import ContractScan.Proofs.Segments
import ContractScan.Proofs.Yields

/-
  What an editor colours. The segments of a scan cover the characters of the tokens that have a
  colour, each by one segment with the name that the legend has for its token (`legendNames`),
  and no line break, no other token and no part of a character (`highlighting_exact`).

  They go out as distances, each from the segment before. A decoder that adds the distances up
  gets the segments back (`decode_encodeHighlights`): they lie one after another, so that no
  distance is cut off at zero.
-/

namespace ContractScan.Editor

open ContractScan.Text (isLineBreak unitLength unitLength_append unitsOf)

/-- The segments of a scan. -/
def segmentsOfScan (s : Scan) : List Segment := (Highlight.ofScan s).flatMap (segments s.index)

theorem segmentsOfScan_ideal (text : String) (o : ScanOptions) :
    segmentsOfScan (Scan.ideal text o) = segmentsOf (LineIndex.ofText text) (tokenize text) := rfl

/-! ## Coverage -/

/-- The kinds of tokens that have a colour, each with its name in the legend. -/
def legendNames : List (TokenKind × String) :=
  [(.keyword, "keyword"), (.identifier, "variable"), (.number, "number"), (.numberFloat, "number"),
    (.string, "string"), (.comment, "comment"), (.operator, "operator")]

theorem exists_ofTokenKind?_of_mem {k : TokenKind} {name : String} (h : (k, name) ∈ legendNames) :
    ∃ kind, HighlightKind.ofTokenKind? k = some kind ∧ kind.name = name := by
  simp only [legendNames, List.mem_cons, Prod.mk.injEq, List.not_mem_nil, or_false] at h
  rcases h with ⟨rfl, rfl⟩ | ⟨rfl, rfl⟩ | ⟨rfl, rfl⟩ | ⟨rfl, rfl⟩ | ⟨rfl, rfl⟩ | ⟨rfl, rfl⟩ |
    ⟨rfl, rfl⟩ <;> exact ⟨_, rfl, rfl⟩

theorem ofTokenKind?_of_not_mem {k : TokenKind} (h : ∀ name, (k, name) ∉ legendNames) :
    HighlightKind.ofTokenKind? k = none := by
  have h : k ∉ legendNames.map Prod.fst := fun hk => by
    obtain ⟨⟨_, name⟩, hmem, rfl⟩ := List.mem_map.mp hk
    exact h name hmem
  revert h
  cases k <;> decide

theorem classOf_of_ne_break {c : Char} (hr : c ≠ '\r') (hn : c ≠ '\n')
    (kind : Option HighlightKind) : classOf kind c = kind := by
  rw [classOf, if_neg (by simp [isLineBreak, hr, hn])]

theorem classOf_of_not_coloured {k : TokenKind} {c : Char}
    (h : c = '\r' ∨ c = '\n' ∨ ∀ name, (k, name) ∉ legendNames) :
    classOf (HighlightKind.ofTokenKind? k) c = none := by
  rcases h with rfl | rfl | hk
  · rfl
  · rfl
  · rw [ofTokenKind?_of_not_mem hk]
    exact ite_self _

theorem length_flatMap_classesOf (ts : List Token) :
    (ts.flatMap classesOf).length = (ts.flatMap fun t => t.lexeme.toList).length := by
  induction ts with
  | nil => rfl
  | cons t ts ih =>
    rw [List.flatMap_cons, List.flatMap_cons, List.length_append, List.length_append, ih, classesOf,
      List.length_map]

/-- The class of a character is chosen by the token in which it lies. -/
theorem getElem?_flatMap_classesOf {text : String} {t : Token} {p : Nat} {c : Char}
    (ht : t ∈ tokenize text) (hcov : t.Covers p) (hc : text.toList[p]? = some c) :
    ((tokenize text).flatMap classesOf)[p]? =
      some (classOf (HighlightKind.ofTokenKind? t.kind) c) := by
  obtain ⟨before, after, heq⟩ := List.append_of_mem ht
  have hstart : t.start = (before.flatMap fun t => t.lexeme.toList).length := by
    rw [start_of_tokensFrom_eq heq, Nat.zero_add]
  have htext := flatMap_tokensFrom 0 0 text.toList
  rw [show tokensFrom 0 0 text.toList = before ++ t :: after from heq, List.flatMap_append,
    List.flatMap_cons] at htext
  obtain ⟨hle, hlt⟩ := hcov
  rw [Token.stop, ← String.length_toList] at hlt
  rw [← htext, List.getElem?_append_right (by omega), List.getElem?_append_left (by omega),
    ← hstart] at hc
  rw [heq, List.flatMap_append, List.flatMap_cons,
    List.getElem?_append_right (by rw [length_flatMap_classesOf]; omega),
    length_flatMap_classesOf, ← hstart, classesOf,
    List.getElem?_append_left (by rw [List.length_map]; omega), List.getElem?_map, hc]
  rfl

/-- A token of each class, among them a string over an escaped break and a comment over a break,
with characters of two units. -/
def mixedText : String := "if x+1.5 \"a\\\n😀\"/*\r\n😀*/"

/-- The lines of the mixed text. -/
def mixedLines : List (List Char) :=
  ["if x+1.5 \"a\\\n".toList, "😀\"/*\r\n".toList, "😀*/".toList]

/-- **Exact highlighting.** Every segment starts and stops between characters of its line. Every
    character lies in a token; if the token has a colour and the character is no line break,
    each of its units is covered by one segment, whose place in the legend is that of the name
    for the token, and otherwise by none. -/
theorem highlighting_exact {text : String} (o : ScanOptions) {lines : List (List Char)}
    (hsize : unitLength text.toList < 2 ^ 32) (hlines : CutIntoLines text.toList lines) :
    Scan.Yields text o fun scan =>
      (∀ s ∈ segmentsOfScan scan, ∃ l a b, lines[s.line]? = some l ∧
        a < b ∧ b ≤ l.length ∧ s.column = unitLength (l.take a) ∧
          s.column + s.length = unitLength (l.take b)) ∧
      ∀ i l k c, lines[i]? = some l → l[k]? = some c →
        (∃ t ∈ tokenize text, t.Covers (charsAbove lines i + k)) ∧
        ∀ t ∈ tokenize text, t.Covers (charsAbove lines i + k) →
          ∀ u, unitLength (l.take k) ≤ u → u < unitLength (l.take k) + unitsOf c →
            (c ≠ '\r' → c ≠ '\n' → ∀ name, (t.kind, name) ∈ legendNames →
              ∃ s, ((segmentsOfScan scan).filter fun s => s.covers i u) = [s] ∧
                HighlightKind.legend[s.kind.index]?.map HighlightKind.name = some name) ∧
            (c = '\r' ∨ c = '\n' ∨ (∀ name, (t.kind, name) ∉ legendNames) →
              ((segmentsOfScan scan).filter fun s => s.covers i u) = []) := by
  apply Scan.Yields.of_ideal
  obtain rfl := hlines.eq_splitLines
  have hpaint := paints_tokenize hsize
  have htext {i k : Nat} {l : List Char} {c : Char} (hl : (splitLines text.toList)[i]? = some l)
      (hc : l[k]? = some c) : text.toList[charsAbove (splitLines text.toList) i + k]? = some c := by
    have h := getElem?_flatten_of_line hl (List.getElem?_eq_some_iff.mp hc).1
    rw [flatten_splitLines, hc] at h
    exact h
  rw [segmentsOfScan_ideal]
  refine ⟨fun s hs => ?_, fun i l k c hl hc => ⟨?_, fun t ht hcov u hu hu' => ?_⟩⟩
  · obtain ⟨q, n, -, hn, pre, mid, post, hl, hcol, hlen, -, rfl⟩ := hpaint.exists_marks s hs
    refine ⟨_, pre.length, pre.length + mid.length, hl, Nat.lt_add_of_pos_right hn, ?_, ?_, ?_⟩
    · rw [List.length_append, List.length_append]
      exact Nat.le_add_right _ _
    · rw [hcol, List.append_assoc, List.take_left]
    · rw [hcol, hlen, ← List.length_append, List.take_left, unitLength_append]
  · obtain ⟨t, ht, hcov⟩ := exists_covers_tokensFrom (List.getElem?_eq_some_iff.mp (htext hl hc)).1
    rw [Nat.zero_add] at hcov
    exact ⟨t, ht, hcov⟩
  · have hfilter := hpaint.filter_covers hl hc hu hu'
    rw [if_neg (Nat.not_lt_zero _), Nat.sub_zero,
      getElem?_flatMap_classesOf ht hcov (htext hl hc), Option.getD_some] at hfilter
    refine ⟨fun hr hn name hname => ?_, fun hno => ?_⟩
    · obtain ⟨kind, hkind, rfl⟩ := exists_ofTokenKind?_of_mem hname
      rw [classOf_of_ne_break hr hn, hkind] at hfilter
      obtain ⟨s, hs, hskind⟩ := List.map_eq_singleton_iff.mp hfilter
      exact ⟨s, hs, by rw [HighlightKind.legend_getElem?_index, hskind, Option.map_some]⟩
    · rw [classOf_of_not_coloured hno] at hfilter
      exact List.map_eq_nil_iff.mp hfilter

theorem highlighting_exact_mixedText :
    unitLength mixedText.toList < 2 ^ 32 ∧ CutIntoLines mixedText.toList mixedLines ∧
    ∃ scan, Scan.ofText mixedText .standard = .ok scan ∧
      (∀ p ∈ [(0, 1, "keyword"), (0, 3, "variable"), (0, 4, "operator"), (0, 6, "number"),
          (1, 1, "string"), (2, 1, "comment")],
        ∃ s, ((segmentsOfScan scan).filter fun s => s.covers p.1 p.2.1) = [s] ∧
          HighlightKind.legend[s.kind.index]?.map HighlightKind.name = some p.2.2) ∧
      ((segmentsOfScan scan).filter fun s => s.covers 0 2) = [] := by
  have hsize : unitLength mixedText.toList < 2 ^ 32 := by decide +kernel
  have hlines : CutIntoLines mixedText.toList mixedLines :=
    cutIntoLines_iff.mpr (by decide +kernel)
  have hfits : (LineIndex.ofText mixedText).FitsFor .standard :=
    LineIndex.fitsFor_of_lt (by decide +kernel)
  obtain ⟨scan, hscan, -, hchars⟩ := (highlighting_exact .standard hsize hlines).returns hfits
  -- The rules for a unit `u` of the character `k` of the line `i`, which lies in the token `t`.
  have hchar (t : Token) (i k u : Nat) {l : List Char} {c : Char} (hl : mixedLines[i]? = some l)
      (hc : l[k]? = some c)
      (h : t ∈ tokenize mixedText ∧
        (t.start ≤ charsAbove mixedLines i + k ∧ charsAbove mixedLines i + k < t.stop) ∧
        unitLength (l.take k) ≤ u ∧ u < unitLength (l.take k) + unitsOf c) :=
    (hchars i l k c hl hc).2 t h.1 h.2.1 u h.2.2.1 h.2.2.2
  refine ⟨hsize, hlines, scan, hscan, ?_, ?_⟩
  · simp only [List.forall_mem_cons, List.not_mem_nil, false_imp_iff, implies_true, and_true]
    refine ⟨?keyword, ?identifier, ?operator, ?number, ?string, ?comment⟩
    case keyword =>
      exact (hchar ⟨.keyword, "if", 0, ⟨0, 2⟩⟩ 0 1 1 rfl rfl (by decide +kernel)).1
        (by decide) (by decide) _ (by decide)
    case identifier =>
      exact (hchar ⟨.identifier, "x", 3, ⟨3, 4⟩⟩ 0 3 3 rfl rfl (by decide +kernel)).1
        (by decide) (by decide) _ (by decide)
    case operator =>
      exact (hchar ⟨.operator, "+", 4, ⟨4, 5⟩⟩ 0 4 4 rfl rfl (by decide +kernel)).1
        (by decide) (by decide) _ (by decide)
    case number =>
      exact (hchar ⟨.numberFloat, "1.5", 5, ⟨5, 8⟩⟩ 0 6 6 rfl rfl (by decide +kernel)).1
        (by decide) (by decide) _ (by decide)
    case string =>
      exact (hchar ⟨.string, "\"a\\\n😀\"", 9, ⟨9, 18⟩⟩ 1 0 1 rfl rfl (by decide +kernel)).1
        (by decide) (by decide) _ (by decide)
    case comment =>
      exact (hchar ⟨.comment, "/*\r\n😀*/", 15, ⟨18, 28⟩⟩ 2 0 1 rfl rfl (by decide +kernel)).1
        (by decide) (by decide) _ (by decide)
  · exact (hchar ⟨.whitespace, " ", 2, ⟨2, 3⟩⟩ 0 2 2 rfl rfl (by decide +kernel)).2
      (.inr (.inr (by simp [legendNames])))

/-! ## Decoding -/

/-- The segment at a distance from a place, if its class is in the legend. -/
def Delta.segment? (line column : Nat) (d : Delta) : Option Segment :=
  HighlightKind.legend[d.index]?.map fun kind =>
    ⟨line + d.lines, if d.lines = 0 then column + d.columns else d.columns, d.length, kind⟩

/-- Distances added up from a place on. -/
def decodeFrom : Nat → Nat → List Delta → Option (List Segment)
  | _, _, [] => some []
  | line, column, d :: rest =>
    (d.segment? line column).bind fun s => (decodeFrom s.line s.column rest).map (s :: ·)

/-- Distances added up from the start of a text. -/
def decode : List Delta → Option (List Segment) := decodeFrom 0 0

/-- A segment that does not start in front of a place is got back from its distance. -/
theorem segment?_deltaFrom {line column : Nat} {s : Segment}
    (h : line < s.line ∨ line = s.line ∧ column ≤ s.column) :
    (deltaFrom line column s).segment? line column = some s := by
  have hline : line + (s.line - line) = s.line := by omega
  rw [Delta.segment?, deltaFrom, HighlightKind.legend_getElem?_index, Option.map_some]
  rcases h with hlt | ⟨heq, hle⟩
  · have hbelow : s.line - line ≠ 0 := by omega
    simp only [if_neg hbelow, hline]
  · have hsame : s.line - line = 0 := by omega
    have hcolumn : column + (s.column - column) = s.column := by omega
    simp only [if_pos hsame, hline, hcolumn]

theorem decodeFrom_deltasFrom {ss : List Segment} (hss : ss.Pairwise Segment.Before)
    {line column : Nat} (h : ∀ s ∈ ss, line < s.line ∨ line = s.line ∧ column ≤ s.column) :
    decodeFrom line column (deltasFrom line column ss) = some ss := by
  induction hss generalizing line column with
  | nil => rfl
  | @cons s ss hs _ ih =>
    have hrest : ∀ t ∈ ss, s.line < t.line ∨ s.line = t.line ∧ s.column ≤ t.column := by
      intro t ht
      rcases hs t ht with hlt | ⟨heq, hle⟩
      · exact Or.inl hlt
      · exact Or.inr ⟨heq, Nat.le_trans (Nat.le_add_right _ _) hle⟩
    rw [deltasFrom, decodeFrom, segment?_deltaFrom (h s List.mem_cons_self), Option.bind_some,
      ih hrest, Option.map_some]

/-- **Decodable highlighting.** The distances add up to the segments again; these have units,
    and each of them ends before all that follow it start. -/
theorem decode_encodeHighlights {text : String} (o : ScanOptions)
    (hsize : unitLength text.toList < 2 ^ 32) :
    Scan.Yields text o fun scan =>
      decode (encodeHighlights scan.index (Highlight.ofScan scan)) = some (segmentsOfScan scan) ∧
      (segmentsOfScan scan).Pairwise Segment.Before ∧ ∀ s ∈ segmentsOfScan scan, 0 < s.length := by
  apply Scan.Yields.of_ideal
  have hpaint := paints_tokenize hsize
  rw [← segmentsOfScan_ideal text o] at hpaint
  have hbefore := hpaint.pairwise_before
  refine ⟨decodeFrom_deltasFrom hbefore fun s _ => ?_, hbefore, fun s hs => ?_⟩
  · rcases Nat.eq_zero_or_pos s.line with hzero | hpos
    · exact Or.inr ⟨hzero.symm, Nat.zero_le _⟩
    · exact Or.inl hpos
  · obtain ⟨q, n, -, hn, hmarks⟩ := hpaint.exists_marks s hs
    exact hmarks.length_pos hn

theorem decode_encodeHighlights_mixedText :
    unitLength mixedText.toList < 2 ^ 32 ∧
    ∃ scan, Scan.ofText mixedText .standard = .ok scan ∧
      decode (encodeHighlights scan.index (Highlight.ofScan scan)) =
        some [⟨0, 0, 2, .keyword⟩, ⟨0, 3, 1, .identifier⟩, ⟨0, 4, 1, .operator⟩,
          ⟨0, 5, 3, .number⟩, ⟨0, 9, 3, .string⟩, ⟨1, 0, 3, .string⟩, ⟨1, 3, 2, .comment⟩,
          ⟨2, 0, 4, .comment⟩] := by
  have hsize : unitLength mixedText.toList < 2 ^ 32 := by decide +kernel
  have hfits : (LineIndex.ofText mixedText).FitsFor .standard :=
    LineIndex.fitsFor_of_lt (by decide +kernel)
  have hsegments : segmentsOfScan (Scan.ideal mixedText .standard) =
      [⟨0, 0, 2, .keyword⟩, ⟨0, 3, 1, .identifier⟩, ⟨0, 4, 1, .operator⟩, ⟨0, 5, 3, .number⟩,
        ⟨0, 9, 3, .string⟩, ⟨1, 0, 3, .string⟩, ⟨1, 3, 2, .comment⟩, ⟨2, 0, 4, .comment⟩] := by
    decide +kernel
  obtain ⟨scan, hscan, hdecode, -⟩ := (decode_encodeHighlights .standard hsize).returns hfits
  obtain rfl := Scan.eq_ideal hscan
  rw [hsegments] at hdecode
  exact ⟨hsize, _, hscan, hdecode⟩

end ContractScan.Editor
