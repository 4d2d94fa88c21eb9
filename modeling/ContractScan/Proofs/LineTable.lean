import ContractScan.Proofs.LineCut
import ContractScan.Proofs.Tiling

/-
  The table of lines. One pass over the characters of a text, with a look at the one that comes
  next, notes where each line starts, in characters and in bytes (`lineStarts`). Its entries are
  the starts that the index of the text gives (`getElem?_lineStarts`), so the index can be looked
  up in the table (`LineIndex.tabled_ofText`).

  The bytes of the lines tile the text from one character to another, every line but the last
  ends in the one break that it has, and the index knows of no other lines
  (`LineIndex.cuts_ofText`).
-/

namespace ContractScan

open ContractScan.Text (isLineBreak byteLength byteLength_append)

/-! ## One pass -/

/-- Where a line starts. -/
structure LineStart where
  char : Nat
  byte : Nat
deriving DecidableEq

/-- Whether a character ends its line. A carriage return leaves this to a line feed behind it. -/
def endsLine (c : Char) (r : List Char) : Bool :=
  c == '\n' || c == '\r' && r.head? != some '\n'

/-- The starts of the lines that begin within a text that goes on from a character and a byte. -/
def startsFrom (char byte : Nat) : List Char → List LineStart
  | [] => []
  | c :: r =>
    let below := startsFrom (char + 1) (byte + c.utf8Size) r
    if endsLine c r then ⟨char + 1, byte + c.utf8Size⟩ :: below else below

/-- The starts of the lines of a text. -/
def lineStarts (text : String) : List LineStart := ⟨0, 0⟩ :: startsFrom 0 0 text.toList

/-- The bytes of a line by its start and that of the next line; those of the last line go up to
the end of the text. -/
def spanBetween? (starts : List LineStart) (size i : Nat) : Option Span :=
  starts[i]?.map fun s => ⟨s.byte, (starts[i + 1]?.map LineStart.byte).getD size⟩

theorem endsLine_eq_false {c : Char} (h : isLineBreak c = false) (r : List Char) :
    endsLine c r = false := by
  rw [isLineBreak, Bool.or_eq_false_iff] at h
  rw [endsLine, h.1, h.2, Bool.false_and, Bool.false_or]

theorem startsFrom_append_of_forall {l : List Char} (hl : ∀ c ∈ l, isLineBreak c = false)
    (char byte : Nat) (r : List Char) :
    startsFrom char byte (l ++ r) = startsFrom (char + l.length) (byte + byteLength l) r := by
  induction l generalizing char byte with
  | nil => rfl
  | cons c l ih =>
    have hc := endsLine_eq_false (hl c List.mem_cons_self) (l ++ r)
    rw [List.cons_append, startsFrom, hc, if_neg Bool.false_ne_true,
      ih fun x hx => hl x (List.mem_cons_of_mem _ hx), List.length_cons, byteLength,
      Nat.add_assoc, Nat.add_assoc, Nat.add_comm 1]

theorem startsFrom_append_of_break {brk rest : List Char} (h : IsBreak brk rest)
    (char byte : Nat) :
    startsFrom char byte (brk ++ rest) = ⟨char + brk.length, byte + byteLength brk⟩ ::
      startsFrom (char + brk.length) (byte + byteLength brk) rest := by
  cases h with
  | crlf => rfl
  | lf => rfl
  | cr h =>
    have hends : endsLine '\r' rest = true := by simpa [endsLine] using h
    rw [List.singleton_append, startsFrom, hends, if_pos rfl]
    rfl

/-- The pass finds the lines of the grammar. -/
theorem getElem?_cons_startsFrom {cs : List Char} {ls : List (List Char)} (h : CutIntoLines cs ls)
    (char byte i : Nat) : (⟨char, byte⟩ :: startsFrom char byte cs : List LineStart)[i]? =
      if i < ls.length then
        some ⟨char + charsAbove ls i, byte + byteLength (ls.take i).flatten⟩ else none := by
  induction h generalizing char byte i with
  | @last l hl =>
    have hnil : startsFrom char byte l = [] := by
      have happ := startsFrom_append_of_forall hl char byte []
      rwa [List.append_nil] at happ
    rw [hnil]
    cases i with
    | zero => rfl
    | succ i => rfl
  | @line l brk rest ls hl hbrk _ ih =>
    cases i with
    | zero => rfl
    | succ i =>
      rw [startsFrom_append_of_forall hl, startsFrom_append_of_break hbrk, List.getElem?_cons_succ,
        ih]
      simp only [charsAbove, List.length_cons, List.take_succ_cons, List.flatten_cons,
        List.length_append, byteLength_append, Nat.add_assoc, Nat.add_lt_add_iff_right]

/-! ## Lines as pieces of a text -/

/-- Whether a line has a break at its end, in front of the rest of the text, and no other. -/
def EndsInBreak (l rest : List Char) : Prop :=
  ∃ content brk, l = content ++ brk ∧ (∀ c ∈ content, isLineBreak c = false) ∧ IsBreak brk rest

/-- Every line but the last ends in a break. -/
theorem CutIntoLines.endsInBreak {cs l : List Char} {ls : List (List Char)}
    (h : CutIntoLines cs ls) {i : Nat} (hl : ls[i]? = some l) :
    if i + 1 < ls.length then EndsInBreak l (ls.drop (i + 1)).flatten
      else ∀ c ∈ l, isLineBreak c = false := by
  induction h generalizing i with
  | @last m hm =>
    obtain ⟨hi, rfl⟩ := List.getElem?_eq_some_iff.mp hl
    rw [List.length_singleton, if_neg (Nat.not_lt.mpr (Nat.le_add_left 1 i)),
      List.getElem_singleton]
    exact hm
  | @line content brk rest ls hcontent hbrk hrest ih =>
    have heq := hrest.eq_splitLines
    cases i with
    | zero =>
      obtain rfl := Option.some.inj hl
      have hpos := List.length_pos_iff.mpr (splitLines_ne_nil rest)
      rw [← heq] at hpos
      rw [if_pos (by rw [List.length_cons]; omega)]
      refine ⟨content, brk, rfl, hcontent, ?_⟩
      rwa [List.drop_one, List.tail_cons, heq, flatten_splitLines]
    | succ i => simpa using ih hl

namespace LineIndex

/-- A text around one of its lines. -/
theorem toList_around_line {text : String} {i : Nat} {l : List Char}
    (hl : (ofText text).lines[i]? = some l) : text.toList =
      (ofText text).above i ++ (l ++ ((ofText text).lines.drop (i + 1)).flatten) := by
  obtain ⟨hi, rfl⟩ := List.getElem?_eq_some_iff.mp hl
  calc text.toList = (ofText text).lines.flatten := (flatten_splitLines _).symm
    _ = ((ofText text).lines.take i ++
          (ofText text).lines[i] :: (ofText text).lines.drop (i + 1)).flatten := by
        rw [← List.drop_eq_getElem_cons hi, List.take_append_drop]
    _ = _ := by
        rw [List.flatten_append, List.flatten_cons]
        rfl

theorem above_succ {ix : LineIndex} {i : Nat} {l : List Char} (hl : ix.lines[i]? = some l) :
    ix.above (i + 1) = ix.above i ++ l := by
  rw [above, above, List.take_add_one, hl, Option.toList_some, List.flatten_append,
    List.flatten_singleton]

theorem byteStart_succ {ix : LineIndex} {i : Nat} {l : List Char} (hl : ix.lines[i]? = some l) :
    ix.byteStart (i + 1) = ix.byteStart i + byteLength l := by
  rw [byteStart, byteStart, above_succ hl, byteLength_append]

theorem byteStart_zero (ix : LineIndex) : ix.byteStart 0 = 0 := by
  rw [byteStart, above, List.take_zero, List.flatten_nil, byteLength]

theorem byteStart_lineCount (text : String) :
    (ofText text).byteStart (ofText text).lineCount = text.utf8ByteSize := by
  rw [byteStart, above, lineCount, List.take_length, ofText, flatten_splitLines,
    ← utf8ByteSize_ofList, String.ofList_toList]

theorem lineCount_pos (text : String) : 0 < (ofText text).lineCount :=
  List.length_pos_iff.mpr (splitLines_ne_nil _)

theorem mem_span? {ix : LineIndex} {i : Nat} {s : Span} :
    s ∈ ix.span? i ↔ i < ix.lineCount ∧ s = ⟨ix.byteStart i, ix.byteStart (i + 1)⟩ := by
  rw [span?, Option.mem_def, Option.ite_none_right_eq_some, Option.some.injEq]
  exact and_congr_right fun _ => eq_comm

/-- A line starts between two characters, and so does what follows it. -/
theorem isValid_byteStart (text : String) (i : Nat) :
    String.Pos.Raw.IsValid text ⟨(ofText text).byteStart i⟩ := by
  have htext : (ofText text).above i ++ ((ofText text).lines.drop i).flatten = text.toList := by
    rw [above, ← List.flatten_append, List.take_append_drop]
    exact flatten_splitLines _
  have hvalid := isValid_byteLength ((ofText text).above i) ((ofText text).lines.drop i).flatten
  rwa [htext, String.ofList_toList] at hvalid

/-! ## The table -/

theorem getElem?_lineStarts (text : String) (i : Nat) : (lineStarts text)[i]? =
    if i < (ofText text).lineCount then
      some ⟨(ofText text).charStart i, (ofText text).byteStart i⟩ else none := by
  rw [lineStarts, getElem?_cons_startsFrom (cutIntoLines_splitLines text.toList) 0 0 i,
    Nat.zero_add, Nat.zero_add]
  rfl

/-- A carriage return leaves the end of its line to the line feed behind it, and to no other
character. -/
example : lineStarts "é\r\r\n\n\r" = [⟨0, 0⟩, ⟨2, 3⟩, ⟨4, 5⟩, ⟨5, 6⟩, ⟨6, 7⟩] := by decide

theorem length_lineStarts (text : String) : (lineStarts text).length = (ofText text).lineCount := by
  refine Nat.le_antisymm ?_ ?_
  · rw [← List.getElem?_eq_none_iff, getElem?_lineStarts, if_neg (Nat.lt_irrefl _)]
  · refine Nat.le_of_not_lt fun h => ?_
    have hnone := List.getElem?_eq_none (Nat.le_refl (lineStarts text).length)
    rw [getElem?_lineStarts, if_pos h] at hnone
    cases hnone

/-- What is looked up in an index stands in a table of the starts of lines, for a text of so many
bytes. -/
structure TabledBy (ix : LineIndex) (starts : List LineStart) (size : Nat) : Prop where
  lineCount : ix.lineCount = starts.length
  charStart? : ∀ i, ix.charStart? i = starts[i]?.map LineStart.char
  byteStart? : ∀ i, ix.byteStart? i = starts[i]?.map LineStart.byte
  span? : ∀ i, ix.span? i = spanBetween? starts size i

theorem span?_eq_spanBetween? (text : String) (i : Nat) :
    (ofText text).span? i = spanBetween? (lineStarts text) text.utf8ByteSize i := by
  rw [LineIndex.span?, spanBetween?, getElem?_lineStarts, getElem?_lineStarts]
  by_cases hi : i < (ofText text).lineCount
  · rw [if_pos hi, if_pos hi]
    by_cases hnext : i + 1 < (ofText text).lineCount
    · rw [if_pos hnext]
      rfl
    · have hlast : i + 1 = (ofText text).lineCount := by omega
      rw [if_neg hnext, hlast, byteStart_lineCount]
      rfl
  · rw [if_neg hi, if_neg hi]
    rfl

theorem tabledBy_lineStarts (text : String) :
    (ofText text).TabledBy (lineStarts text) text.utf8ByteSize where
  lineCount := (length_lineStarts text).symm
  charStart? i := by
    rw [LineIndex.charStart?, getElem?_lineStarts]
    split <;> rfl
  byteStart? i := by
    rw [LineIndex.byteStart?, getElem?_lineStarts]
    split <;> rfl
  span? := span?_eq_spanBetween? text

/-! ## The cut -/

/-- What an index says of a line that stands in a text between what comes before it and what
follows. -/
structure LineAt (ix : LineIndex) (text : String) (i : Nat) (before l rest : List Char) :
    Prop where
  toList : text.toList = before ++ (l ++ rest)
  charStart? : ix.charStart? i = some before.length
  byteStart? : ix.byteStart? i = some (byteLength before)
  span? : ix.span? i = some ⟨byteLength before, byteLength before + byteLength l⟩
  bytes : text.toByteArray.extract (byteLength before) (byteLength before + byteLength l) =
    l.utf8Encode
  ends : if i + 1 < ix.lineCount then EndsInBreak l rest
    else rest = [] ∧ ∀ c ∈ l, isLineBreak c = false

/-- An index that cuts a text into its lines. -/
structure Cuts (ix : LineIndex) (text : String) : Prop where
  lineCount_pos : 0 < ix.lineCount
  head : ∀ s ∈ ix.span? 0, s.start = 0
  adjoins : ∀ i, ∀ s ∈ ix.span? i, ∀ t ∈ ix.span? (i + 1), t.start = s.stop
  last : ∀ s ∈ ix.span? (ix.lineCount - 1), s.stop = text.utf8ByteSize
  /-- The bytes of a line start and stop between two characters of the text. -/
  isValid : ∀ i, ∀ s ∈ ix.span? i, s.start ≤ s.stop ∧
    String.Pos.Raw.IsValid text ⟨s.start⟩ ∧ String.Pos.Raw.IsValid text ⟨s.stop⟩
  line : ∀ i < ix.lineCount, ∃ before l rest, ix.LineAt text i before l rest
  eq_none : ∀ i, ix.lineCount ≤ i →
    ix.charStart? i = none ∧ ix.byteStart? i = none ∧ ix.span? i = none

theorem lineAt_ofText {text : String} {i : Nat} {l : List Char}
    (hl : (ofText text).lines[i]? = some l) : (ofText text).LineAt text i
      ((ofText text).above i) l ((ofText text).lines.drop (i + 1)).flatten := by
  have hi : i < (ofText text).lineCount := (List.getElem?_eq_some_iff.mp hl).1
  have htext := toList_around_line hl
  exact {
    toList := htext
    charStart? := if_pos hi
    byteStart? := if_pos hi
    span? := by
      rw [LineIndex.span?, if_pos hi, byteStart_succ hl]
      rfl
    bytes := by
      rw [← String.utf8Encode_toList, htext, ← List.append_assoc]
      exact extract_utf8Encode _ _ _
    ends := by
      have hends := (cutIntoLines_splitLines text.toList).endsInBreak hl
      by_cases hnext : i + 1 < (ofText text).lineCount
      · rw [if_pos hnext]
        exact (if_pos hnext).mp hends
      · rw [if_neg hnext, List.drop_eq_nil_of_le (Nat.le_of_not_lt hnext)]
        exact ⟨rfl, (if_neg hnext).mp hends⟩ }

/-- **The cut into lines.** The index of every text cuts it into its lines, and what it says is
    what the table of one pass says. -/
theorem cuts_ofText (text : String) : (ofText text).Cuts text ∧
    (ofText text).TabledBy (lineStarts text) text.utf8ByteSize := by
  refine ⟨?_, tabledBy_lineStarts text⟩
  exact {
    lineCount_pos := lineCount_pos text
    head := by
      intro s hs
      rw [(mem_span?.mp hs).2, byteStart_zero]
    adjoins := by
      intro i s hs t ht
      rw [(mem_span?.mp hs).2, (mem_span?.mp ht).2]
    last := by
      intro s hs
      rw [(mem_span?.mp hs).2, Nat.sub_add_cancel (lineCount_pos text), byteStart_lineCount]
    isValid := by
      intro i s hs
      obtain ⟨hi, rfl⟩ := mem_span?.mp hs
      refine ⟨?_, isValid_byteStart text i, isValid_byteStart text (i + 1)⟩
      show (ofText text).byteStart i ≤ (ofText text).byteStart (i + 1)
      rw [byteStart_succ (List.getElem?_eq_getElem hi)]
      exact Nat.le_add_right _ _
    line := fun i hi => ⟨_, _, _, lineAt_ofText (List.getElem?_eq_getElem hi)⟩
    eq_none := fun i hi =>
      ⟨if_neg (Nat.not_lt.mpr hi), if_neg (Nat.not_lt.mpr hi), if_neg (Nat.not_lt.mpr hi)⟩ }

end LineIndex

end ContractScan
