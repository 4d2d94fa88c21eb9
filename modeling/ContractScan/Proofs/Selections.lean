import ContractScan.Proofs.Findings
import ContractScan.Proofs.Segments

/-
  What an editor selects for a finding. The range of a finding is that of a part of the text that
  is not empty and parts no line break (`IsRangeOf`): the lexeme of a token, or the trimmed text
  of a marker line. An editor that looks the two places of such a range up in the lines of the
  text, in units of UTF-16, gets the bytes of that part back (`selects_of_isRangeOf`).
  So it selects the error or the bracket that a finding is about, or its marker line without the
  blanks around it (`selection_exact`).
-/

namespace ContractScan

open ContractScan.Text (isBlank isLineBreak trim unitLength unitLength_append unitsOf unitsOf_pos
  byteLength byteLength_append)

/-! ## Ranges of parts -/

/-- The range of a part of a text that holds characters and parts no line break. -/
inductive IsRangeOf (text : String) : List Char → Range → Prop
  | intro {a w b : List Char} (htext : text.toList = a ++ (w ++ b)) (hne : w ≠ [])
      (hs : ¬ SeamInBreak a (w ++ b)) (hs' : ¬ SeamInBreak (a ++ w) b) :
    IsRangeOf text w ⟨⟨byteLength a, byteLength a + byteLength w⟩,
      (LineIndex.ofText text).position a.length,
      (LineIndex.ofText text).position (a.length + w.length)⟩

/-- The bytes of a range are those of the part that it is of. -/
theorem IsRangeOf.bytes {text : String} {w : List Char} {r : Range} (h : IsRangeOf text w r) :
    text.toByteArray.extract r.span.start r.span.stop = (String.ofList w).toByteArray := by
  obtain @⟨a, w, b, htext, -, -, -⟩ := h
  rw [← String.utf8Encode_toList, htext, ← List.append_assoc, extract_utf8Encode,
    String.toByteArray_ofList]

/-- A token other than white space starts and stops between line breaks. -/
theorem isRangeOf_rangeOf {text : String} {t : Token} (ht : t ∈ tokenize text)
    (hk : t.kind ≠ .whitespace) :
    IsRangeOf text t.lexeme.toList ((LineIndex.ofText text).rangeOf t) := by
  obtain ⟨a, c, r, htext, rfl⟩ := mem_tokenize ht
  have hne := Lexeme.first_ne_nil c r
  have hpiece := Lexeme.first_append_drop c r
  have hstart : ¬ SeamInBreak a (c :: r) := by
    rintro ⟨-, hhead⟩
    -- A line feed starts white space.
    rw [Option.some.inj hhead] at hk
    exact hk (by rw [Lexeme.toToken, Lexeme.first, if_pos (by decide)])
  have hstop : ¬ SeamInBreak (a ++ (Lexeme.first c r).chars)
      ((c :: r).drop (Lexeme.first c r).chars.length) :=
    not_seamInBreak_append (fun h => absurd h hne) fun _ => Lexeme.not_seamInBreak_first c r
  rw [← hpiece] at htext hstart
  simp only [LineIndex.rangeOf, Lexeme.stop_toToken]
  rw [Lexeme.toToken, String.toList_ofList]
  exact .intro htext hne hstart hstop

/-- The trimmed text of a marker line stands within its line. -/
theorem isRangeOf_markerRange {text : String} {n : Nat} {m : RegionMarker}
    (hm : (LineIndex.ofText text).lines[n]?.bind markerOf? = some m) :
    IsRangeOf text (trim ((LineIndex.ofText text).lineText n))
      (markerRange (LineIndex.ofText text) n) := by
  obtain ⟨l, hl, hm⟩ := Option.bind_eq_some_iff.mp hm
  have hline : (LineIndex.ofText text).lineText n = l := by rw [LineIndex.lineText, hl]; rfl
  obtain ⟨marker, htrim⟩ := exists_of_ofTrimmed? hm
  obtain ⟨rest, htext⟩ := exists_around_marker text n
  have hcr : '\r' ∉ trim l := fun h => by
    cases not_isLineBreak_trim (List.mem_of_getElem? hl) _ h
  rw [hline] at htext ⊢
  have hne : trim l ≠ [] := by simp [htrim]
  have hstart : ¬ SeamInBreak ((LineIndex.ofText text).above n ++ l.takeWhile isBlank)
      (trim l ++ rest) := by
    rw [htrim]
    exact fun hs => absurd hs.2 (by simp)
  have h := IsRangeOf.intro htext hne hstart
    (not_seamInBreak_append (fun h => absurd h hne) fun _ => not_seamInBreak_of_not_mem hcr rest)
  rw [byteLength_append, List.length_append] at h
  simp only [markerRange, hline]
  exact h

/-- What a finding is about: the tokens or the marker lines of its kind, with their text. -/
def Scan.IsAbout (s : Scan) (k : DiagnosticKind) (r : Range) (text : String) : Prop :=
  let token (p : Token → Prop) := ∃ t ∈ s.tokens, p t ∧ s.index.rangeOf t = r ∧ t.lexeme = text
  let marker (p : Nat → Prop) :=
    ∃ n, p n ∧ markerRange s.index n = r ∧ String.ofList (trim (s.index.lineText n)) = text
  match k with
  | .unterminatedString => token fun t => t.kind = .invalidString
  | .invalidCharacter => token fun t => t.kind = .invalid
  | .unrecognizedOperator => token fun t => t.kind = .unrecognized
  | .unmatchedCloser => token fun t => t.isCloser ∧ ¬ closesMatched s.outline.brackets t
  | .unmatchedOpener => token fun t => t.isOpener ∧ ¬ opensMatched s.outline.brackets t
  | .unterminatedRegion => marker (LeftOpen s.index.lines)
  | .unmatchedEndRegion => marker (Astray s.index.lines)

theorem exists_isRangeOf_of_mem_rangesOf {text : String} {o : ScanOptions} {p : Token → Bool}
    {r : Range} (h : r ∈ (Scan.ideal text o).rangesOf p)
    (hp : ∀ t, p t → t.kind ≠ .whitespace) :
    ∃ w, IsRangeOf text w r ∧ ∃ t ∈ tokenize text, p t ∧
      (LineIndex.ofText text).rangeOf t = r ∧ t.lexeme = String.ofList w := by
  obtain ⟨t, ht, hpt, rfl⟩ := Scan.mem_rangesOf.mp h
  exact ⟨_, isRangeOf_rangeOf ht (hp t hpt), t, ht, hpt, rfl, String.ofList_toList.symm⟩

theorem exists_isRangeOf_of_kind {text : String} {o : ScanOptions} {k : TokenKind} {r : Range}
    (hk : k ≠ .whitespace) (h : r ∈ (Scan.ideal text o).rangesOf fun t => t.kind = k) :
    ∃ w, IsRangeOf text w r ∧ ∃ t ∈ tokenize text, t.kind = k ∧
      (LineIndex.ofText text).rangeOf t = r ∧ t.lexeme = String.ofList w := by
  obtain ⟨w, hw, t, ht, hp, h⟩ := exists_isRangeOf_of_mem_rangesOf h fun t hp => by
    rwa [of_decide_eq_true hp]
  exact ⟨w, hw, t, ht, of_decide_eq_true hp, h⟩

theorem exists_isRangeOf_of_mem_markerRanges {text : String} {o : ScanOptions} {p : Nat → Bool}
    {m : RegionMarker} {r : Range} (h : r ∈ (Scan.ideal text o).markerRanges o p)
    (hp : ∀ n, p n → (LineIndex.ofText text).lines[n]?.bind markerOf? = some m) :
    ∃ w, IsRangeOf text w r ∧ ∃ n, p n ∧ markerRange (LineIndex.ofText text) n = r ∧
      String.ofList (trim ((LineIndex.ofText text).lineText n)) = String.ofList w := by
  obtain ⟨n, hpn, rfl⟩ := Scan.exists_of_mem_markerRanges h
  exact ⟨_, isRangeOf_markerRange (hp n hpn), n, hpn, rfl, rfl⟩

/-- A cause is the range of what findings of its kind are about. -/
theorem exists_isAbout_of_mem_causes {text : String} {o : ScanOptions} {k : DiagnosticKind}
    {r : Range} (h : r ∈ (Scan.ideal text o).causes o k) :
    ∃ w, IsRangeOf text w r ∧ (Scan.ideal text o).IsAbout k r (String.ofList w) := by
  cases k with
  | unmatchedCloser =>
    obtain ⟨w, hw, t, ht, hp, h⟩ := exists_isRangeOf_of_mem_rangesOf h fun t hp => by
      rw [Token.kind_of_isCloser (Bool.and_eq_true _ _ ▸ hp).2]
      decide
    rw [Bool.and_eq_true, Bool.not_eq_true', ← Bool.not_eq_true] at hp
    exact ⟨w, hw, t, ht, hp.symm, h⟩
  | unmatchedOpener =>
    obtain ⟨w, hw, t, ht, hp, h⟩ := exists_isRangeOf_of_mem_rangesOf h fun t hp => by
      rw [Token.kind_of_isOpener (Bool.and_eq_true _ _ ▸ hp).2]
      decide
    rw [Bool.and_eq_true, Bool.not_eq_true', ← Bool.not_eq_true] at hp
    exact ⟨w, hw, t, ht, hp.symm, h⟩
  | unterminatedRegion =>
    obtain ⟨w, hw, n, hp, h⟩ := exists_isRangeOf_of_mem_markerRanges h fun n hp =>
      (of_decide_eq_true hp).1
    exact ⟨w, hw, n, of_decide_eq_true hp, h⟩
  | unmatchedEndRegion =>
    obtain ⟨w, hw, n, hp, h⟩ := exists_isRangeOf_of_mem_markerRanges h fun n hp =>
      (of_decide_eq_true hp).1
    exact ⟨w, hw, n, of_decide_eq_true hp, h⟩
  | unterminatedString => exact exists_isRangeOf_of_kind (by decide) h
  | invalidCharacter => exact exists_isRangeOf_of_kind (by decide) h
  | unrecognizedOperator => exact exists_isRangeOf_of_kind (by decide) h

namespace Editor

/-! ## Looking places up -/

/-- Whether a place lies before another. -/
def WirePosition.Before (p q : WirePosition) : Prop :=
  p.line < q.line ∨ p.line = q.line ∧ p.character < q.character

/-- Whether a place lies in lines: in one of them, and not past its last character. -/
def WirePosition.IsIn (lines : List (List Char)) (p : WirePosition) : Prop :=
  ∃ l, lines[p.line]? = some l ∧ p.character ≤ unitLength (withoutBreak l)

/-- The characters that take up the first units of a line; none where the units end within a
character or go on after the line. -/
def unitPrefix? : List Char → Nat → Option (List Char)
  | [], n => if n = 0 then some [] else none
  | c :: cs, n =>
    if n = 0 then some []
    else if unitsOf c ≤ n then (unitPrefix? cs (n - unitsOf c)).map (List.cons c)
    else none

/-- The byte of the text at a place in its lines. -/
def byteOf? (lines : List (List Char)) (p : WirePosition) : Option Nat := do
  let line ← lines[p.line]?
  let before ← unitPrefix? (withoutBreak line) p.character
  return byteLength (lines.take p.line).flatten + byteLength before

/-- The bytes of the text between the places of a range in its lines. -/
def selection? (lines : List (List Char)) (r : WireRange) : Option Span := do
  return ⟨← byteOf? lines r.start, ← byteOf? lines r.stop⟩

theorem unitPrefix?_append (a b : List Char) : unitPrefix? (a ++ b) (unitLength a) = some a := by
  induction a with
  | nil => cases b <;> rfl
  | cons c a ih =>
    have hpos := unitsOf_pos c
    rw [List.cons_append, unitPrefix?, unitLength, if_neg (by omega), if_pos (by omega),
      Nat.add_sub_cancel_left, ih]
    rfl

theorem withoutBreak_append_of_forall {l : List Char} (hl : ∀ c ∈ l, isLineBreak c = false)
    (m : List Char) : withoutBreak (l ++ m) = l ++ withoutBreak m := by
  unfold withoutBreak
  rw [List.takeWhile_append_of_pos fun c hc => by rw [hl c hc]; rfl]

/-- The place of the end of a text, where it goes on. -/
def endOf (a : List Char) : WirePosition := ⟨(linesAbove a).length, unitLength (lineSoFar a)⟩

theorem isIn_endOf {a b : List Char} (hs : ¬ SeamInBreak a b) :
    (endOf a).IsIn (splitLines (a ++ b)) := by
  obtain ⟨m, hm⟩ := exists_line_of_append hs
  refine ⟨_, hm, ?_⟩
  rw [withoutBreak_append_of_forall (not_isLineBreak_lineSoFar a), unitLength_append]
  exact Nat.le_add_right _ _

theorem byteOf?_endOf {a b : List Char} (hs : ¬ SeamInBreak a b) :
    byteOf? (splitLines (a ++ b)) (endOf a) = some (byteLength a) := by
  obtain ⟨m, hm⟩ := exists_line_of_append hs
  have htake : (splitLines (a ++ b)).take (linesAbove a).length = linesAbove a := by
    rw [splitLines_append hs, List.take_left]
  simp only [byteOf?, endOf]
  rw [hm, htake]
  simp only [bind, Option.bind_some, withoutBreak_append_of_forall (not_isLineBreak_lineSoFar a),
    unitPrefix?_append, pure, ← byteLength_append, flatten_linesAbove]

/-- A text that goes on by characters ends at a later place. -/
theorem before_endOf {a w b : List Char} (hw : w ≠ []) (hs : ¬ SeamInBreak a (w ++ b))
    (hs' : ¬ SeamInBreak (a ++ w) b) : (endOf a).Before (endOf (a ++ w)) := by
  have htext : (String.ofList (a ++ (w ++ b))).toList = a ++ (w ++ b) := String.toList_ofList
  have htext' : (String.ofList (a ++ (w ++ b))).toList = (a ++ w) ++ b := by
    rw [htext, List.append_assoc]
  have hlt : a.length < (a ++ w).length := by
    have := List.length_pos_iff.mpr hw
    rw [List.length_append]
    omega
  have hle : (a ++ w).length ≤ (String.ofList (a ++ (w ++ b))).toList.length := by
    rw [htext']
    exact (List.prefix_append (a ++ w) b).length_le
  have hbefore := LineIndex.position_before hlt hle
  rw [LineIndex.position_of_append htext hs, LineIndex.position_of_append htext' hs',
    Position.before_iff] at hbefore
  rcases hbefore with hline | ⟨hline, hcolumn⟩
  · exact Or.inl hline
  · refine Or.inr ⟨hline, ?_⟩
    -- Both places lie in one line, so more characters in front of them are more units.
    obtain ⟨m, hm⟩ := exists_line_of_append hs
    obtain ⟨m', hm'⟩ := exists_line_of_append hs'
    have hline : (linesAbove a).length = (linesAbove (a ++ w)).length := hline
    rw [List.append_assoc, ← hline, hm] at hm'
    have hsame := Option.some.inj hm'
    exact unitLength_lt_of_length_lt (List.prefix_append _ m)
      (hsame ▸ List.prefix_append _ m') hcolumn

/-! ## Selections -/

/-- What an editor selects in lines by a range. -/
structure Selects (lines : List (List Char)) (r : WireRange) (s : Span) : Prop where
  before : r.start.Before r.stop
  start_isIn : r.start.IsIn lines
  stop_isIn : r.stop.IsIn lines
  selection? : selection? lines r = some s

/-- An editor selects the part that a range is of. -/
theorem selects_of_isRangeOf {text : String} {w : List Char} {r : Range} (h : IsRangeOf text w r)
    (hsize : unitLength text.toList < 2 ^ 32) :
    Selects (splitLines text.toList) (wireRange (LineIndex.ofText text) r) r.span := by
  obtain @⟨a, w, b, htext, hne, hs, hs'⟩ := h
  have htext' : text.toList = (a ++ w) ++ b := by rw [htext, List.append_assoc]
  have hrange : wireRange (LineIndex.ofText text) ⟨⟨byteLength a, byteLength a + byteLength w⟩,
      (LineIndex.ofText text).position a.length,
      (LineIndex.ofText text).position (a.length + w.length)⟩ = ⟨endOf a, endOf (a ++ w)⟩ := by
    rw [wireRange, wirePosition_of_append htext hs hsize, ← List.length_append,
      wirePosition_of_append htext' hs' hsize, endOf, endOf]
  rw [hrange]
  constructor
  · exact before_endOf hne hs hs'
  · rw [htext]
    exact isIn_endOf hs
  · rw [htext']
    exact isIn_endOf hs'
  · have hstart := byteOf?_endOf hs
    have hstop := byteOf?_endOf hs'
    rw [← htext] at hstart
    rw [← htext'] at hstop
    simp only [Editor.selection?, hstart, hstop, byteLength_append]
    rfl

/-- **Selections.** The range of a finding, as it goes to an editor, starts before it stops, at
    places of the text. What it selects in the lines of the text are the bytes of the finding,
    and these are the lexeme of the token that is an error or has no partner, or the trimmed text
    of the marker line. -/
theorem selection_exact {text : String} (o : ScanOptions) {lines : List (List Char)}
    (hsize : unitLength text.toList < 2 ^ 32) (hlines : CutIntoLines text.toList lines) :
    Scan.Yields text o fun scan => ∀ d ∈ scan.diagnostics,
      Selects lines (wireDiagnostic scan.index d).range d.range.span ∧
      ∃ w, scan.IsAbout d.kind d.range w ∧
        text.toByteArray.extract d.range.span.start d.range.span.stop = w.toByteArray := by
  obtain rfl := hlines.eq_splitLines
  refine .of_ideal fun d hd => ?_
  obtain ⟨w, hw, habout⟩ :=
    exists_isAbout_of_mem_causes (range_mem_causes (mem_diagnostics_iff.mp hd))
  exact ⟨selects_of_isRangeOf hw hsize, _, habout, hw.bytes⟩

/-- An end marker between wide blanks, and a string that its line does not close. -/
def brokenText : String := "\u3000//endregion 😀\t\r\n'é\\\r\n"

/-- The lines of the broken text. -/
def brokenLines : List (List Char) :=
  ["\u3000//endregion 😀\t\r\n".toList, "'é\\\r\n".toList, []]

/-- The finding about the end marker of the broken text. -/
def brokenRegion : Diagnostic :=
  .ofKind .unmatchedEndRegion ⟨⟨3, 19⟩, ⟨0, 1⟩, ⟨0, 14⟩⟩
    "endregion marker without an open region"

/-- The finding about the string of the broken text. -/
def brokenString : Diagnostic :=
  .ofKind .unterminatedString ⟨⟨22, 28⟩, ⟨1, 0⟩, ⟨2, 0⟩⟩
    "string literal is not closed before the end of the line"

theorem selection_exact_brokenText :
    unitLength brokenText.toList < 2 ^ 32 ∧ CutIntoLines brokenText.toList brokenLines ∧
    ∃ scan, Scan.ofText brokenText .standard = .ok scan ∧
      (brokenRegion ∈ scan.diagnostics ∧
        (wireDiagnostic scan.index brokenRegion).range = ⟨⟨0, 1⟩, ⟨0, 15⟩⟩ ∧
        selection? brokenLines ⟨⟨0, 1⟩, ⟨0, 15⟩⟩ = some ⟨3, 19⟩) ∧
      (brokenString ∈ scan.diagnostics ∧
        (wireDiagnostic scan.index brokenString).range = ⟨⟨1, 0⟩, ⟨2, 0⟩⟩ ∧
        selection? brokenLines ⟨⟨1, 0⟩, ⟨2, 0⟩⟩ = some ⟨22, 28⟩) := by
  have hsize : unitLength brokenText.toList < 2 ^ 32 := by decide +kernel
  have hlines : CutIntoLines brokenText.toList brokenLines :=
    cutIntoLines_iff.mpr (by decide +kernel)
  have hfits : (LineIndex.ofText brokenText).FitsFor .standard :=
    LineIndex.fitsFor_of_lt (by decide +kernel)
  obtain ⟨scan, hscan, hselects⟩ := (selection_exact .standard hsize hlines).returns hfits
  obtain rfl := Scan.eq_ideal hscan
  have hshown {d : Diagnostic} {r : WireRange} (hd : d ∈ findings brokenText .standard)
      (hr : (wireDiagnostic (Scan.ideal brokenText .standard).index d).range = r) :
      d ∈ (Scan.ideal brokenText .standard).diagnostics ∧
        (wireDiagnostic (Scan.ideal brokenText .standard).index d).range = r ∧
        selection? brokenLines r = some d.range.span := by
    have hd := mem_diagnostics_iff.mpr hd
    exact ⟨hd, hr, hr ▸ (hselects d hd).1.selection?⟩
  exact ⟨hsize, hlines, _, hscan, hshown (by decide +kernel) (by decide +kernel),
    hshown (by decide +kernel) (by decide +kernel)⟩

end Editor

end ContractScan
