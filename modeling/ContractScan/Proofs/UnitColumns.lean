import ContractScan.Proofs.LineSearch
import ContractScan.Proofs.Selections

/-
  Characters and their places for an editor. A text in UTF-16 (`utf16`) has one unit for a
  character of the basic plane and a pair of units for any other. The place of a character is on
  the line of its position, and its column counts the units of the text between the start of this
  line and the character. An editor that counts the units of its own lines gets from a place back
  to the character, so different characters have different places, and these are in the order of
  the characters (`places_placeOf`).

  All of it comes from one cut of the text: a character lies on a line (`exists_line_of_char`), and
  up to there the text is what lies above the line and a part of the line from its start
  (`take_toList_of_line`). This holds within a line break too, where the place of a line feed lies
  behind its carriage return.
-/

namespace ContractScan

open ContractScan.Text (byteSlice unitLength unitsOf)

/-! ## Text in UTF-16 -/

/-- The units that a character is written in. A character outside the basic plane is written in
two, which hold the upper and the lower ten bits of its distance from this plane. -/
def encodeUnits (c : Char) : List UInt16 :=
  if c.toNat < 0x10000 then [.ofNat c.toNat]
  else [.ofNat (0xd800 + (c.toNat - 0x10000) / 0x400),
    .ofNat (0xdc00 + (c.toNat - 0x10000) % 0x400)]

/-- A text in UTF-16. -/
def utf16 (cs : List Char) : List UInt16 := cs.flatMap encodeUnits

theorem length_encodeUnits (c : Char) : (encodeUnits c).length = unitsOf c := by
  unfold encodeUnits unitsOf
  split <;> rfl

theorem length_utf16 (cs : List Char) : (utf16 cs).length = unitLength cs := by
  induction cs with
  | nil => rfl
  | cons c cs ih =>
    show (encodeUnits c ++ utf16 cs).length = _
    rw [List.length_append, length_encodeUnits, ih, unitLength]

example : utf16 "é😀".toList = [0xe9, 0xd83d, 0xde00] := by decide

/-! ## The line of a character -/

namespace LineIndex

/-- A character of a text, or its end, lies on a line, so many characters behind its start. -/
theorem exists_line_of_char {text : String} {c : Nat} (h : c ≤ text.toList.length) :
    ∃ i k l, (ofText text).position c = ⟨i, k⟩ ∧ (ofText text).lines[i]? = some l ∧
      k ≤ l.length ∧ (ofText text).charStart i + k = c := by
  obtain ⟨l, hl, hk⟩ := exists_line_of_locate (splitLines_ne_nil text.toList) c
  obtain ⟨start, hstart, hc⟩ := exists_start_add_column h
  obtain rfl := (mem_charStart?.mp hstart).2
  exact ⟨_, _, l, rfl, hl, hk, hc⟩

/-- A text up to a character is what lies above a line and a part of the line. -/
theorem take_toList_of_line {text : String} {i k : Nat} {l : List Char}
    (hl : (ofText text).lines[i]? = some l) (hk : k ≤ l.length) :
    text.toList.take ((ofText text).charStart i + k) = (ofText text).above i ++ l.take k := by
  rw [toList_around_line hl, charStart, List.take_length_add_append,
    List.take_append_of_le_length hk]

/-- The characters of a line, cut out of a text by the bytes of the line; none past the last
line. -/
def lineSlice (ix : LineIndex) (text : List Char) (line : Nat) : List Char :=
  (ix.span? line).elim [] fun s => byteSlice text s.start s.stop

theorem lineSlice_ofText (text : String) (line : Nat) :
    (ofText text).lineSlice text.toList line = (ofText text).lineText line := by
  rw [lineSlice, lineText]
  cases hl : (ofText text).lines[line]? with
  | none =>
    have hline : ¬ line < (ofText text).lineCount :=
      Nat.not_lt.mpr (List.getElem?_eq_none_iff.mp hl)
    rw [LineIndex.span?, if_neg hline]
    rfl
  | some l =>
    rw [(lineAt_ofText hl).span?, toList_around_line hl]
    exact Editor.byteSlice_append _ _ _

end LineIndex

namespace Editor

open LineIndex (ofText lineAt_ofText exists_line_of_char take_toList_of_line)

/-! ## Places -/

/-- The place of a character for an editor. -/
def placeOf (ix : LineIndex) (c : Nat) : WirePosition := wirePosition ix (ix.position c)

/-- The character at a place in lines, where line breaks count as well. -/
def charOf? (lines : List (List Char)) (p : WirePosition) : Option Nat := do
  let line ← lines[p.line]?
  let before ← unitPrefix? line p.character
  return charsAbove lines p.line + before.length

/-- Places that tell the characters of a text, and its end, by lines and by units of UTF-16. -/
structure Places (text : String) (lines : List (List Char)) (place : Nat → WirePosition) :
    Prop where
  line : ∀ c ≤ text.toList.length, (place c).line = ((ofText text).position c).line
  /-- The column counts the units between the start of the line and the character. -/
  character : ∀ c ≤ text.toList.length, ∃ start ∈ (ofText text).charStart? (place c).line,
    start ≤ c ∧ (place c).character = (utf16 ((text.toList.take c).drop start)).length
  before : ∀ p q, p < q → q ≤ text.toList.length → (place p).Before (place q)
  injective : ∀ p ≤ text.toList.length, ∀ q ≤ text.toList.length, place p = place q → p = q
  charOf? : ∀ c ≤ text.toList.length, charOf? lines (place c) = some c

section
variable {text : String} (hsize : unitLength text.toList < 2 ^ 32)
include hsize

theorem exists_start_of_placeOf {c : Nat} (h : c ≤ text.toList.length) :
    ∃ start ∈ (ofText text).charStart? (placeOf (ofText text) c).line, start ≤ c ∧
      (placeOf (ofText text) c).character =
        (utf16 ((text.toList.take c).drop start)).length := by
  obtain ⟨i, k, l, hplace, hl, hk, rfl⟩ := exists_line_of_char h
  rw [placeOf, hplace, wirePosition_of_line hsize hl, take_toList_of_line hl hk]
  refine ⟨_, (lineAt_ofText hl).charStart?, Nat.le_add_right _ _, ?_⟩
  rw [List.drop_left, length_utf16]

/-- Places are in the order of the characters. -/
theorem placeOf_before {p q : Nat} (h : p < q) (hq : q ≤ text.toList.length) :
    (placeOf (ofText text) p).Before (placeOf (ofText text) q) := by
  have hbefore := Position.before_iff.mp (LineIndex.position_before h hq)
  obtain ⟨i, k, l, hplace, hl, hk, -⟩ := exists_line_of_char (Nat.le_trans (Nat.le_of_lt h) hq)
  obtain ⟨j, m, l', hplace', hl', hm, -⟩ := exists_line_of_char hq
  rw [placeOf, hplace, wirePosition_of_line hsize hl, placeOf, hplace',
    wirePosition_of_line hsize hl']
  rw [hplace, hplace'] at hbefore
  rcases hbefore with hline | ⟨hline, hcolumn⟩
  · exact Or.inl hline
  · -- In one line the later character has a longer part of the line in front of it.
    obtain rfl : i = j := hline
    obtain rfl := Option.some.inj (hl.symm.trans hl')
    refine Or.inr ⟨rfl, ?_⟩
    refine unitLength_lt_of_length_lt (List.take_prefix k l) (List.take_prefix m l) ?_
    rwa [List.length_take_of_le hk, List.length_take_of_le hm]

/-- An editor that counts units gets from the place of a character back to the character. -/
theorem charOf?_placeOf {c : Nat} (h : c ≤ text.toList.length) :
    charOf? (ofText text).lines (placeOf (ofText text) c) = some c := by
  obtain ⟨i, k, l, hplace, hl, hk, rfl⟩ := exists_line_of_char h
  have hprefix := unitPrefix?_append (l.take k) (l.drop k)
  rw [List.take_append_drop] at hprefix
  rw [placeOf, hplace, wirePosition_of_line hsize hl]
  simp only [charOf?, hl, hprefix, bind, Option.bind_some, pure, List.length_take_of_le hk]
  rfl

end

/-- **Faithful places.** In a text that is not too long, the places of the characters and of the
    end are on the lines of their positions, at the column in units of UTF-16, in the order of
    the characters, and they lead back to them. The units are those of the line that the bytes of
    its span make up. -/
theorem places_placeOf {text : String} {lines : List (List Char)}
    (hsize : unitLength text.toList < 2 ^ 32) (hlines : CutIntoLines text.toList lines) :
    Places text lines (placeOf (ofText text)) ∧
      ∀ p : Position, unitColumn (ofText text) p =
        word (unitLength (((ofText text).lineSlice text.toList p.line).take p.column)) := by
  obtain rfl := hlines.eq_splitLines
  have hchar (c : Nat) (h : c ≤ text.toList.length) :
      charOf? (splitLines text.toList) (placeOf (ofText text) c) = some c :=
    charOf?_placeOf hsize h
  refine ⟨?_, fun p => by rw [LineIndex.lineSlice_ofText, unitColumn]⟩
  exact {
    line := by
      intro c h
      obtain ⟨i, k, l, hplace, hl, -⟩ := exists_line_of_char h
      rw [placeOf, hplace, wirePosition_of_line hsize hl]
    character := fun _ h => exists_start_of_placeOf hsize h
    before := fun _ _ h hq => placeOf_before hsize h hq
    injective := by
      intro p hp q hq h
      have hsame := hchar p hp
      rw [h, hchar q hq] at hsame
      exact (Option.some.inj hsame).symm
    charOf? := hchar }

/-- Characters of two units before and behind a line break of two characters. -/
def pairedText : String := "é😀\r\n😀x"

/-- The lines of the paired text. -/
def pairedLines : List (List Char) := ["é😀\r\n".toList, "😀x".toList]

theorem places_placeOf_pairedText :
    unitLength pairedText.toList < 2 ^ 32 ∧ CutIntoLines pairedText.toList pairedLines ∧
    placeOf (ofText pairedText) 3 = ⟨0, 4⟩ ∧ charOf? pairedLines ⟨0, 4⟩ = some 3 ∧
    placeOf (ofText pairedText) 5 = ⟨1, 2⟩ ∧ charOf? pairedLines ⟨1, 2⟩ = some 5 ∧
    (placeOf (ofText pairedText) 3).Before (placeOf (ofText pairedText) 5) := by
  have hsize : unitLength pairedText.toList < 2 ^ 32 := by decide +kernel
  have hlines : CutIntoLines pairedText.toList pairedLines :=
    cutIntoLines_iff.mpr (by decide +kernel)
  have hfeed : placeOf (ofText pairedText) 3 = ⟨0, 4⟩ := by decide +kernel
  have hletter : placeOf (ofText pairedText) 5 = ⟨1, 2⟩ := by decide +kernel
  obtain ⟨hplaces, -⟩ := places_placeOf hsize hlines
  have hbefore := hplaces.before 3 5 (by decide) (by decide +kernel)
  have hfeedBack := hplaces.charOf? 3 (by decide +kernel)
  have hletterBack := hplaces.charOf? 5 (by decide +kernel)
  rw [hfeed] at hfeedBack
  rw [hletter] at hletterBack
  exact ⟨hsize, hlines, hfeed, hfeedBack, hletter, hletterBack, hbefore⟩

end Editor

end ContractScan
