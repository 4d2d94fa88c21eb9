import ContractScan.Proofs.Painting
import ContractScan.Proofs.Seams
import Mathlib.Algebra.Group.Nat.Defs

/-
  The segments of the highlights of a text paint it (`paints_tokenize`): they mark the characters
  of the tokens that have a colour, without the line breaks among them, and nothing else.

  A highlight is cut into the lines of its own text. Since no token ends within a line break
  (`not_seamInBreak_first`), these are parts of the lines of the whole text, the first one after
  what its line holds before the token (`paints_segmentsOfLines`). Texts are shorter than `2 ^ 32`
  units of UTF-16, so no line number, column or length is cut down to 32 bits (`word_of_lt`).
-/

namespace ContractScan.Editor

open ContractScan.Text (isLineBreak unitLength unitLength_append byteLength byteLength_append
  byteSlice)

/-! ## Sizes -/

theorem unitLength_le_flatten {ls : List (List Char)} {i : Nat} {pre l post : List Char}
    (h : ls[i]? = some (pre ++ l ++ post)) : unitLength l ≤ unitLength ls.flatten := by
  obtain ⟨a, b, hab⟩ := List.append_of_mem (List.mem_of_getElem? h)
  rw [hab, List.flatten_append, List.flatten_cons, unitLength_append, unitLength_append,
    unitLength_append, unitLength_append]
  omega

theorem length_splitLines_le_of_lt {text : List Char} (h : unitLength text < 2 ^ 32) :
    (splitLines text).length ≤ 2 ^ 32 := by
  have h1 := length_splitLines_le text
  have h2 := length_le_unitLength text
  omega

/-! ## Lines -/

/-- The class that colours a character of a token: that of the token, but none for breaks. -/
def classOf (kind : Option HighlightKind) (c : Char) : Option HighlightKind :=
  if isLineBreak c then none else kind

theorem map_classOf_of_forall {l : List Char} (hl : ∀ c ∈ l, isLineBreak c = false)
    (kind : Option HighlightKind) : l.map (classOf kind) = List.replicate l.length kind := by
  rw [List.map_eq_replicate_iff]
  intro c hc
  rw [classOf, hl c hc]
  rfl

theorem map_classOf_of_break {brk rest : List Char} (h : IsBreak brk rest)
    (kind : Option HighlightKind) : brk.map (classOf kind) = List.replicate brk.length none := by
  rw [List.map_eq_replicate_iff]
  intro c hc
  rw [classOf, h.isLineBreak c hc]
  rfl

theorem withoutBreak_append {l brk rest : List Char} (hl : ∀ c ∈ l, isLineBreak c = false)
    (h : IsBreak brk rest) : withoutBreak (l ++ brk) = l := by
  unfold withoutBreak
  rw [List.takeWhile_append_of_pos fun c hc => by rw [hl c hc]; rfl]
  cases h <;> simp [isLineBreak]

theorem withoutBreak_of_forall {l : List Char} (hl : ∀ c ∈ l, isLineBreak c = false) :
    withoutBreak l = l := by
  unfold withoutBreak
  rw [List.takeWhile_eq_self_iff]
  intro c hc
  rw [hl c hc]
  rfl

/-- The segment of a part of a line, if it has characters, paints them. -/
theorem Paints.line {ls above below : List (List Char)} {pre l post : List Char}
    {kind : HighlightKind} {ks : List (Option HighlightKind)} {ss : List Segment}
    (hls : ls = above ++ (pre ++ l ++ post) :: below) (hsize : unitLength ls.flatten < 2 ^ 32)
    (h : Paints ls (above.flatten.length + pre.length + l.length) ks ss) :
    Paints ls (above.flatten.length + pre.length) (List.replicate l.length (some kind) ++ ks)
      (if 0 < word (unitLength l) then
        ⟨above.length, unitLength pre, word (unitLength l), kind⟩ :: ss else ss) := by
  have hline : ls[above.length]? = some (pre ++ l ++ post) := by
    rw [hls, List.getElem?_append_right (Nat.le_refl _), Nat.sub_self]
    rfl
  have hplace : above.flatten.length + pre.length =
      charsAbove ls above.length + pre.length := by
    rw [hls, charsAbove_length]
  have hle := unitLength_le_flatten hline
  rw [word_of_lt (by omega)]
  have hlen := length_le_unitLength l
  cases l with
  | nil => exact h
  | cons c l =>
    rw [List.length_cons] at hlen
    rw [if_pos (by omega)]
    exact .mark (s := ⟨above.length, unitLength pre, _, kind⟩)
      ⟨pre, c :: l, post, hline, rfl, rfl, hplace, rfl⟩ (Nat.succ_pos _) h

/-- The segments of a text paint it, where it goes on after `x` in a line below others. -/
theorem paints_segmentsOfLines (kind : HighlightKind) {ls : List (List Char)} {w b : List Char}
    {ws : List (List Char)} (hw : CutIntoLines w ws) (hs : ¬ SeamInBreak w b)
    (hsize : unitLength ls.flatten < 2 ^ 32) (hcount : ls.length ≤ 2 ^ 32)
    {above : List (List Char)} {x : List Char} (hx : ∀ c ∈ x, isLineBreak c = false)
    (hls : ls = above ++ splitLines (x ++ (w ++ b))) :
    Paints ls (above.flatten.length + x.length) (w.map (classOf (some kind)))
      (segmentsOfLines kind above.length (unitLength x) ws) := by
  induction hw generalizing above x with
  | @last l hl =>
    cases hb : splitLines b with
    | nil => exact absurd hb (splitLines_ne_nil b)
    | cons m ms =>
      have hline : ls = above ++ (x ++ l ++ m) :: ms := by
        rw [hls, splitLines_append_of_forall hx (splitLines_append_of_forall hl hb),
          List.append_assoc]
      rw [map_classOf_of_forall hl, segmentsOfLines, segmentsOfLines, withoutBreak_of_forall hl,
        ← List.append_nil (List.replicate _ _)]
      exact Paints.line hline hsize (.done _)
  | @line l brk rest ws hl hbrk _ ih =>
    have hbrk' : IsBreak brk (rest ++ b) := hbrk.append fun h => hs (h.append_left l)
    have hline : ls = above ++ (x ++ l ++ brk) :: splitLines (rest ++ b) := by
      rw [hls, List.append_assoc l, List.append_assoc brk, splitLines_append_of_forall hx
        (splitLines_append_of_forall hl (splitLines_append_of_break hbrk')), List.append_assoc x]
    -- The next line starts at its own beginning, below this one.
    have hnext : ls = (above ++ [x ++ l ++ brk]) ++ splitLines ([] ++ (rest ++ b)) := by
      rw [hline, List.append_assoc above, List.singleton_append, List.nil_append]
    have hrest := ih (fun h => hs ((h.append_left brk).append_left l)) (by simp) hnext
    have hcount' : above.length + 1 < 2 ^ 32 := by
      have := List.length_pos_iff.mpr (splitLines_ne_nil (rest ++ b))
      rw [hline, List.length_append, List.length_cons] at hcount
      omega
    have hchars : (above ++ [x ++ l ++ brk]).flatten.length + ([] : List Char).length =
        above.flatten.length + x.length + l.length + brk.length := by
      simp only [List.flatten_append, List.flatten_singleton, List.length_append,
        List.length_nil]
      omega
    rw [hchars, List.length_append, List.length_singleton] at hrest
    rw [List.map_append, List.map_append, map_classOf_of_forall hl, map_classOf_of_break hbrk,
      segmentsOfLines, withoutBreak_append hl hbrk, word_of_lt hcount']
    exact Paints.line hline hsize hrest.skip_replicate

/-! ## Tokens -/

theorem byteSlice_left (a b : List Char) : byteSlice (a ++ b) 0 (byteLength a) = a := by
  induction a with
  | nil => cases b <;> simp [byteSlice, byteLength]
  | cons c a ih =>
    have := c.utf8Size_pos
    rw [List.cons_append, byteSlice, byteLength, if_neg (Nat.lt_irrefl 0), if_pos (by omega),
      Nat.add_sub_cancel_left, ih]

theorem byteSlice_append (a b c : List Char) :
    byteSlice (a ++ (b ++ c)) (byteLength a) (byteLength a + byteLength b) = b := by
  induction a with
  | nil =>
    rw [byteLength, Nat.zero_add]
    exact byteSlice_left b c
  | cons x a ih =>
    have := x.utf8Size_pos
    rw [List.cons_append, byteSlice, byteLength, if_pos (by omega), Nat.add_assoc,
      Nat.add_sub_cancel_left, Nat.add_sub_cancel_left, ih]

/-- The wire position of the end of a text that goes on, cut down to 32 bits. -/
theorem wirePosition_eq_word {a b : List Char} {text : String} (htext : text.toList = a ++ b)
    (hs : ¬ SeamInBreak a b) :
    wirePosition (LineIndex.ofText text) ((LineIndex.ofText text).position a.length) =
      ⟨word (linesAbove a).length, word (unitLength (lineSoFar a))⟩ := by
  obtain ⟨m, hm⟩ := exists_line_of_append hs
  have hline : (LineIndex.ofText text).lineText (linesAbove a).length = lineSoFar a ++ m := by
    rw [LineIndex.lineText, LineIndex.ofText, htext, hm]
    rfl
  rw [LineIndex.position_of_append htext hs]
  show (⟨word (linesAbove a).length,
    word (unitLength (List.take (lineSoFar a).length _))⟩ : WirePosition) = _
  rw [hline, List.take_left]

/-- In a text that is not too long, no place of a line is cut down to 32 bits. -/
theorem wirePosition_of_line {text : String} {i : Nat} {l : List Char}
    (hsize : unitLength text.toList < 2 ^ 32) (hl : (LineIndex.ofText text).lines[i]? = some l)
    (k : Nat) : wirePosition (LineIndex.ofText text) ⟨i, k⟩ = ⟨i, unitLength (l.take k)⟩ := by
  have hcount : (LineIndex.ofText text).lines.length ≤ 2 ^ 32 := length_splitLines_le_of_lt hsize
  have hi : i < (LineIndex.ofText text).lines.length := (List.getElem?_eq_some_iff.mp hl).1
  have hline : (LineIndex.ofText text).lines[i]? = some ([] ++ l.take k ++ l.drop k) := by
    rwa [List.nil_append, List.take_append_drop]
  have hunits := unitLength_le_flatten hline
  rw [show (LineIndex.ofText text).lines.flatten = text.toList from flatten_splitLines _] at hunits
  simp only [wirePosition, unitColumn, LineIndex.lineText, hl, Option.getD_some]
  rw [word_of_lt (by omega), word_of_lt (by omega)]

/-- The wire position of the end of a text that goes on. -/
theorem wirePosition_of_append {a b : List Char} {text : String} (htext : text.toList = a ++ b)
    (hs : ¬ SeamInBreak a b) (hsize : unitLength text.toList < 2 ^ 32) :
    wirePosition (LineIndex.ofText text) ((LineIndex.ofText text).position a.length) =
      ⟨(linesAbove a).length, unitLength (lineSoFar a)⟩ := by
  obtain ⟨m, hm⟩ := exists_line_of_append hs
  rw [← htext] at hm
  rw [LineIndex.position_of_append htext hs, wirePosition_of_line hsize hm, List.take_left]

/-- The segments of a token that stands in a text between two parts of it are those of its own
lines, from its place on. -/
theorem segments_toToken {a w b : List Char} {text : String} (htext : text.toList = a ++ (w ++ b))
    (kind : HighlightKind) (tokenKind : TokenKind) :
    segments (LineIndex.ofText text) ⟨kind, (LineIndex.ofText text).rangeOf
        (Lexeme.toToken ⟨tokenKind, w⟩ a.length (byteLength a))⟩ =
      let p := wirePosition (LineIndex.ofText text) ((LineIndex.ofText text).position a.length)
      segmentsOfLines kind p.line p.character (splitLines w) := by
  have hslice : byteSlice (LineIndex.ofText text).text (byteLength a)
      (byteLength a + byteLength w) = w := by
    rw [LineIndex.text, LineIndex.ofText, flatten_splitLines, htext]
    exact byteSlice_append a w b
  simp only [segments, LineIndex.rangeOf, Lexeme.toToken, hslice]

theorem segments_of_append {a w b : List Char} {text : String}
    (htext : text.toList = a ++ (w ++ b)) (hs : ¬ SeamInBreak a (w ++ b))
    (hsize : unitLength text.toList < 2 ^ 32) (kind : HighlightKind) (tokenKind : TokenKind) :
    segments (LineIndex.ofText text) ⟨kind, (LineIndex.ofText text).rangeOf
        (Lexeme.toToken ⟨tokenKind, w⟩ a.length (byteLength a))⟩ =
      segmentsOfLines kind (linesAbove a).length (unitLength (lineSoFar a)) (splitLines w) := by
  rw [segments_toToken htext, wirePosition_of_append htext hs hsize]

/-! ## Texts -/

/-- The highlight of a token, if it has a colour. -/
def highlightOf? (ix : LineIndex) (t : Token) : Option Highlight :=
  (HighlightKind.ofTokenKind? t.kind).map fun kind => ⟨kind, ix.rangeOf t⟩

/-- The segments of some tokens. -/
def segmentsOf (ix : LineIndex) (ts : List Token) : List Segment :=
  (ts.filterMap (highlightOf? ix)).flatMap (segments ix)

/-- The classes of the characters of a token. -/
def classesOf (t : Token) : List (Option HighlightKind) :=
  t.lexeme.toList.map (classOf (HighlightKind.ofTokenKind? t.kind))

theorem segmentsOf_singleton_of_none {t : Token} (h : HighlightKind.ofTokenKind? t.kind = none)
    (ix : LineIndex) : segmentsOf ix [t] = [] := by
  simp [segmentsOf, highlightOf?, h]

theorem segmentsOf_singleton_of_some {t : Token} {kind : HighlightKind}
    (h : HighlightKind.ofTokenKind? t.kind = some kind) (ix : LineIndex) :
    segmentsOf ix [t] = segments ix ⟨kind, ix.rangeOf t⟩ := by
  simp [segmentsOf, highlightOf?, h]

theorem segmentsOf_cons (ix : LineIndex) (t : Token) (ts : List Token) :
    segmentsOf ix (t :: ts) = segmentsOf ix [t] ++ segmentsOf ix ts := by
  rw [segmentsOf, segmentsOf, segmentsOf, ← List.flatMap_append, ← List.filterMap_append]
  rfl

theorem paints_token {a w b : List Char} {text : String} (htext : text.toList = a ++ (w ++ b))
    (hs : ¬ SeamInBreak a (w ++ b)) (hs' : ¬ SeamInBreak w b)
    (hsize : unitLength text.toList < 2 ^ 32) (kind : TokenKind) :
    Paints (splitLines text.toList) a.length
      (classesOf (Lexeme.toToken ⟨kind, w⟩ a.length (byteLength a)))
      (segmentsOf (LineIndex.ofText text)
        [Lexeme.toToken ⟨kind, w⟩ a.length (byteLength a)]) := by
  have hclasses : classesOf (Lexeme.toToken ⟨kind, w⟩ a.length (byteLength a)) =
      w.map (classOf (HighlightKind.ofTokenKind? kind)) := by
    rw [classesOf, Lexeme.toToken, String.toList_ofList]
  rw [hclasses]
  cases hkind : HighlightKind.ofTokenKind? kind with
  | none =>
    have hnone : w.map (classOf none) = List.replicate w.length none ++ [] := by
      rw [List.append_nil, List.map_eq_replicate_iff]
      exact fun c _ => ite_self _
    rw [hnone, segmentsOf_singleton_of_none hkind]
    exact Paints.skip_replicate (.done _)
  | some k =>
    have hsize' : unitLength (splitLines text.toList).flatten < 2 ^ 32 := by
      rwa [flatten_splitLines]
    have hls : splitLines text.toList =
        linesAbove a ++ splitLines (lineSoFar a ++ (w ++ b)) := by
      rw [htext, splitLines_append hs]
    rw [segmentsOf_singleton_of_some hkind, segments_of_append htext hs hsize,
      ← length_linesAbove_add a]
    exact paints_segmentsOfLines k (cutIntoLines_splitLines w) hs' hsize'
      (length_splitLines_le_of_lt hsize) (not_isLineBreak_lineSoFar a) hls

theorem paints_tokensFrom {text : String} (hsize : unitLength text.toList < 2 ^ 32) :
    ∀ a cs : List Char, text.toList = a ++ cs → ¬ SeamInBreak a cs →
      Paints (splitLines text.toList) a.length
        ((tokensFrom a.length (byteLength a) cs).flatMap classesOf)
        (segmentsOf (LineIndex.ofText text) (tokensFrom a.length (byteLength a) cs))
  | a, [], _, _ => by
    rw [tokensFrom_nil]
    exact .done _
  | a, c :: r, htext, hs => by
    have hpiece := Lexeme.first_append_drop c r
    have hseam := Lexeme.not_seamInBreak_first c r
    have hne := Lexeme.first_ne_nil c r
    rw [← hpiece] at htext hs
    have hhead := paints_token htext hs hseam hsize (Lexeme.first c r).kind
    have hrest := paints_tokensFrom hsize (a ++ (Lexeme.first c r).chars)
      ((c :: r).drop (Lexeme.first c r).chars.length) (by rw [htext, List.append_assoc])
      (not_seamInBreak_append (fun h => absurd h hne) fun _ => hseam)
    rw [List.length_append, byteLength_append] at hrest
    rw [tokensFrom_cons, List.flatMap_cons, segmentsOf_cons]
    refine hhead.append ?_
    rw [classesOf, List.length_map, Lexeme.toToken, String.toList_ofList]
    exact hrest
termination_by _ cs => cs.length
decreasing_by exact Lexeme.length_drop_first_lt c r

/-- The segments of the highlights of a text paint its tokens. -/
theorem paints_tokenize {text : String} (hsize : unitLength text.toList < 2 ^ 32) :
    Paints (splitLines text.toList) 0 ((tokenize text).flatMap classesOf)
      (segmentsOf (LineIndex.ofText text) (tokenize text)) :=
  paints_tokensFrom hsize [] text.toList rfl fun h => absurd h.1 (by simp)

end ContractScan.Editor
