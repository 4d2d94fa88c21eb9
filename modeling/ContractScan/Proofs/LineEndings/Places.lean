import ContractScan.Proofs.LineEndings.Pieces
import ContractScan.Proofs.RegionMarkers
import ContractScan.Proofs.Segments
import ContractScan.Proofs.Yields

/-
  Line endings and places. Other line breaks cut a text into the same lines, each with its other
  break (`splitLines_put`). A character lies on the same line and in the same column
  (`position_put`), for an editor too (`wirePosition_put`), and so do the ranges of tokens and
  of region markers (`SameRange`). Folds look at lines without their breaks, and stay the same
  (`trueFoldsOf_put`).
-/

namespace ContractScan

open ContractScan.Text (isBlank isLineBreak trim trimStart trimEnd)
open ContractScan.Editor (wirePosition wireRange)

namespace LineEnding

variable (e : LineEnding)

/-! ## Lines -/

theorem isBreak_chars (cs : List Char) : IsBreak e.chars (e.put cs) := by
  cases e with
  | crlf => exact .crlf _
  | cr => exact .cr (LineEnding.cr.head?_put_ne cs)

/-- Other line breaks cut a text into the same lines. -/
theorem splitLines_put {cs : List Char} (h : '\r' ∉ cs) :
    splitLines (e.put cs) = (splitLines cs).map e.put := by
  induction cs with
  | nil => rfl
  | cons c r ih =>
    rw [List.mem_cons, not_or] at h
    by_cases hc : c = '\n'
    · subst hc
      rw [put_lf, splitLines_append_of_break (e.isBreak_chars r), splitLines_lf, ih h.2,
        List.map_cons, put_lf, put_nil, List.append_nil]
    · have hbreak : isLineBreak c = false := by simp [isLineBreak, hc, Ne.symm h.1]
      rw [put_cons e hc, splitLines_cons hbreak, splitLines_cons hbreak, ih h.2]
      cases hs : splitLines r with
      | nil => exact absurd hs (splitLines_ne_nil r)
      | cons l ls => rw [List.map_cons, consFirst, consFirst, List.map_cons, put_cons e hc]

theorem linesAbove_put {a : List Char} (h : '\r' ∉ a) :
    linesAbove (e.put a) = (linesAbove a).map e.put := by
  simp only [linesAbove, splitLines_put e h, List.map_dropLast]

theorem put_of_forall {l : List Char} (hl : ∀ c ∈ l, isLineBreak c = false) : e.put l = l :=
  put_of_not_mem e fun h => by cases hl _ h

theorem lineSoFar_put {a : List Char} (h : '\r' ∉ a) : lineSoFar (e.put a) = lineSoFar a := by
  have hlast : lineSoFar (e.put a) = e.put (lineSoFar a) := by
    simp only [lineSoFar, splitLines_put e h, List.getLast_map]
  rw [hlast, put_of_forall e (not_isLineBreak_lineSoFar a)]

/-! ## Places -/

/-- The index of a text with other line breaks. -/
theorem lines_putText {text : String} (h : '\r' ∉ text.toList) :
    (LineIndex.ofText (e.putText text)).lines = (LineIndex.ofText text).lines.map e.put := by
  rw [LineIndex.ofText, putText, String.toList_ofList, splitLines_put e h]
  rfl

variable {text : String} (hcr : '\r' ∉ text.toList)

section
include hcr

theorem position_put {a b : List Char} (htext : text.toList = a ++ b) :
    (LineIndex.ofText (e.putText text)).position (e.put a).length =
      (LineIndex.ofText text).position a.length := by
  have ha : '\r' ∉ a := fun h => hcr (htext ▸ List.mem_append_left b h)
  have htext' : (e.putText text).toList = e.put a ++ e.put b := by
    rw [putText, String.toList_ofList, htext, put_append]
  rw [LineIndex.position_of_append htext' fun hs => head?_put_ne e b hs.2,
    LineIndex.position_of_append htext (not_seamInBreak_of_not_mem ha b), linesAbove_put e ha,
    lineSoFar_put e ha, List.length_map]

theorem wirePosition_put {a b : List Char} (htext : text.toList = a ++ b) :
    wirePosition (LineIndex.ofText (e.putText text))
        ((LineIndex.ofText (e.putText text)).position (e.put a).length) =
      wirePosition (LineIndex.ofText text) ((LineIndex.ofText text).position a.length) := by
  have ha : '\r' ∉ a := fun h => hcr (htext ▸ List.mem_append_left b h)
  have htext' : (e.putText text).toList = e.put a ++ e.put b := by
    rw [putText, String.toList_ofList, htext, put_append]
  rw [Editor.wirePosition_eq_word htext' fun hs => head?_put_ne e b hs.2,
    Editor.wirePosition_eq_word htext (not_seamInBreak_of_not_mem ha b), linesAbove_put e ha,
    lineSoFar_put e ha, List.length_map]

end

/-- Whether a range of a text with other line breaks lies where a range of the text lies, for
readers and for editors. -/
structure SameRange (text : String) (r' r : Range) : Prop where
  start : r'.start = r.start
  stop : r'.stop = r.stop
  wire : wireRange (LineIndex.ofText (e.putText text)) r' = wireRange (LineIndex.ofText text) r

include hcr in
/-- A part of a text lies at the same place. -/
theorem sameRange_put {a w b : List Char} (htext : text.toList = a ++ (w ++ b))
    (span span' : Span) :
    SameRange e text
      ⟨span', (LineIndex.ofText (e.putText text)).position (e.put a).length,
        (LineIndex.ofText (e.putText text)).position ((e.put a).length + (e.put w).length)⟩
      ⟨span, (LineIndex.ofText text).position a.length,
        (LineIndex.ofText text).position (a.length + w.length)⟩ := by
  have htext' : text.toList = (a ++ w) ++ b := by rw [htext, List.append_assoc]
  have hlength : (e.put a).length + (e.put w).length = (e.put (a ++ w)).length := by
    rw [put_append, List.length_append]
  rw [hlength, ← List.length_append]
  constructor
  · rw [position_put e hcr htext]
  · rw [position_put e hcr htext']
  · rw [wireRange, wireRange, wirePosition_put e hcr htext, wirePosition_put e hcr htext']

include hcr in
theorem sameRange_rangeOf {t : Token} (ht : t ∈ tokenize text) :
    SameRange e text ((LineIndex.ofText (e.putText text)).rangeOf (e.putToken text t))
      ((LineIndex.ofText text).rangeOf t) := by
  obtain ⟨a, w, b, kind, htext, -, rfl⟩ := exists_cut_of_mem_tokenize ht
  rw [putToken_toToken e htext kind]
  have h := sameRange_put e hcr htext
  simp only [LineIndex.rangeOf, Lexeme.stop_toToken]
  exact h _ _

include hcr in
/-- The last character of a part of a text lies on the same line, also if it is a break. -/
theorem lineOf_put_last {a b : List Char} {c : Char} (htext : text.toList = a ++ c :: b) :
    (LineIndex.ofText (e.putText text)).lineOf ((e.put (a ++ [c])).length - 1) =
      (LineIndex.ofText text).lineOf a.length := by
  by_cases hc : c = '\n'
  · -- A break may have more characters than the line feed, but all lie on the line it ends.
    have ha : '\r' ∉ a := fun h => hcr (htext ▸ List.mem_append_left _ h)
    have htext' : (e.putText text).toList = e.put a ++ (e.chars ++ e.put b) := by
      rw [putText, String.toList_ofList, htext, hc, put_append, put_lf]
    have hseam : ¬ SeamInBreak (e.put a) (e.chars ++ e.put b) :=
      fun hs => head?_put_ne e ('\n' :: b) hs.2
    have hpos : 0 < e.chars.length := List.length_pos_iff.mpr (e.isBreak_chars b).ne_nil
    have hlast : (e.put (a ++ [c])).length - 1 = (e.put a).length + (e.chars.length - 1) := by
      rw [hc, put_append, put_lf, put_nil, List.append_nil, List.length_append]
      omega
    rw [hlast, LineIndex.lineOf_of_break htext' hseam (e.isBreak_chars b) (by omega),
      linesAbove_put e ha, List.length_map, LineIndex.lineOf,
      LineIndex.position_of_append htext (not_seamInBreak_of_not_mem ha _)]
  · have hlast : (e.put (a ++ [c])).length - 1 = (e.put a).length := by
      rw [put_append, put_cons e hc, put_nil, List.length_append, List.length_singleton,
        Nat.add_sub_cancel]
    rw [hlast, LineIndex.lineOf, position_put e hcr htext]
    rfl

/-! ## Indentation -/

theorem indentBlanks_put (l : List Char) : indentBlanks (e.put l) = indentBlanks l :=
  takeWhile_put_of_false e rfl rfl l

theorem startsContent_put (l : List Char) : startsContent (e.put l) = startsContent l := by
  induction l with
  | nil => rfl
  | cons c r ih =>
    by_cases hc : c = '\n'
    · obtain ⟨t, ht⟩ := e.chars_eq_cons
      rw [hc, put_lf, ht, List.cons_append, startsContent_cons_of_not_isIndent (by decide),
        startsContent_cons_of_not_isIndent (by decide)]
      decide
    · rw [put_cons e hc]
      cases hindent : isIndent c with
      | true =>
        rw [startsContent_cons_of_isIndent hindent, startsContent_cons_of_isIndent hindent, ih]
      | false =>
        rw [startsContent_cons_of_not_isIndent hindent, startsContent_cons_of_not_isIndent hindent]

theorem columnsOf_put (tab : Nat) (l : List Char) : columnsOf tab (e.put l) = columnsOf tab l := by
  rw [columnsOf, columnsOf, indentBlanks_put]

theorem trueColumn?_put (tab : Nat) (l : List Char) :
    trueColumn? tab (e.put l) = trueColumn? tab l := by
  rw [trueColumn?, trueColumn?, startsContent_put, indentBlanks_put]

include hcr in
theorem fitsFor_put (o : ScanOptions) :
    (LineIndex.ofText (e.putText text)).FitsFor o ↔ (LineIndex.ofText text).FitsFor o := by
  simp only [LineIndex.FitsFor, LineIndex.Fits, LineFits, lines_putText e hcr, List.forall_mem_map,
    columnsOf_put]

include hcr in
theorem trueFolds_put (tab : Nat) :
    trueFolds (LineIndex.ofText (e.putText text)) tab = trueFolds (LineIndex.ofText text) tab := by
  rw [trueFolds, trueContentLines, lines_putText e hcr, List.zipIdx_map, List.filterMap_map]
  simp only [Function.comp_def, Prod.map_fst, Prod.map_snd, trueColumn?_put]
  rfl

/-! ## Region markers -/

/-- The trimmed text of a line has no line breaks, and is the same with other ones. -/
theorem trim_put {cs l : List Char} (h : l ∈ splitLines cs) :
    trim (e.put l) = trim l ∧ e.put (trim l) = trim l := by
  refine ⟨?_, put_of_forall e (not_isLineBreak_trim h)⟩
  obtain ⟨a, b, rfl, ha, hb⟩ := exists_of_mem_splitLines h
  have hblank : ∀ c ∈ b, isBlank c := fun c hc => Text.isBlank_of_isLineBreak (hb c hc)
  have hblank' : ∀ c ∈ e.put b, isBlank c := by
    intro c hc
    obtain ⟨x, hx, hc⟩ := List.mem_flatMap.mp hc
    split at hc
    · exact Text.isBlank_of_isLineBreak (isLineBreak_of_mem_chars hc)
    · rw [List.mem_singleton.mp hc]
      exact hblank x hx
  rw [put_append, put_of_forall e ha, trim_append_of_blank hblank, trim_append_of_blank hblank']

theorem markerLinesFrom_put {cs : List Char} (n : Nat) {ls : List (List Char)}
    (h : ∀ l ∈ ls, l ∈ splitLines cs) :
    markerLinesFrom n (ls.map e.put) = markerLinesFrom n ls := by
  induction ls generalizing n with
  | nil => rfl
  | cons l ls ih =>
    rw [List.map_cons, markerLinesFrom, markerLinesFrom, (trim_put e (h l List.mem_cons_self)).1,
      ih (n + 1) fun m hm => h m (List.mem_cons_of_mem l hm)]

include hcr in
theorem regionPairing_put :
    RegionPairing.ofIndex (LineIndex.ofText (e.putText text)) =
      RegionPairing.ofIndex (LineIndex.ofText text) := by
  have hmarkers : markerLinesFrom 0 ((LineIndex.ofText text).lines.map e.put) =
      markerLinesFrom 0 (LineIndex.ofText text).lines := e.markerLinesFrom_put 0 fun _ hl => hl
  rw [RegionPairing.ofIndex, RegionPairing.ofIndex, lines_putText e hcr, hmarkers]

include hcr in
theorem trueFoldsOf_put (o : ScanOptions) :
    Outline.trueFoldsOf (LineIndex.ofText (e.putText text)) o =
      Outline.trueFoldsOf (LineIndex.ofText text) o := by
  rw [Outline.trueFoldsOf, Outline.trueFoldsOf, trueFolds_put e hcr, regionFolds, regionFolds,
    regionPairing_put e hcr]

theorem put_flatten (ls : List (List Char)) : (ls.map e.put).flatten = e.put ls.flatten := by
  induction ls with
  | nil => rfl
  | cons l ls ih => rw [List.map_cons, List.flatten_cons, List.flatten_cons, ih, put_append]

include hcr in
theorem sameRange_markerRange (n : Nat) :
    SameRange e text (markerRange (LineIndex.ofText (e.putText text)) n)
      (markerRange (LineIndex.ofText text) n) := by
  obtain ⟨rest, htext⟩ := exists_around_marker text n
  have habove : (LineIndex.ofText (e.putText text)).above n =
      e.put ((LineIndex.ofText text).above n) := by
    rw [LineIndex.above, LineIndex.above, lines_putText e hcr, ← List.map_take, put_flatten]
  have hline : (LineIndex.ofText (e.putText text)).lineText n =
      e.put ((LineIndex.ofText text).lineText n) := by
    rw [LineIndex.lineText, LineIndex.lineText, lines_putText e hcr, List.getElem?_map]
    cases (LineIndex.ofText text).lines[n]? <;> rfl
  have htrim : trim (e.put ((LineIndex.ofText text).lineText n)) =
        trim ((LineIndex.ofText text).lineText n) ∧
      e.put (trim ((LineIndex.ofText text).lineText n)) =
        trim ((LineIndex.ofText text).lineText n) := by
    rw [LineIndex.lineText]
    cases hl : (LineIndex.ofText text).lines[n]? with
    | none => exact ⟨rfl, rfl⟩
    | some l => exact trim_put e (List.mem_of_getElem? hl)
  have h := sameRange_put e hcr htext
  rw [put_append, List.length_append, List.length_append, htrim.2] at h
  simp only [markerRange, LineIndex.charStart, habove, hline, htrim.1,
    takeWhile_put e (p := isBlank) rfl]
  exact h _ _

end LineEnding

end ContractScan
