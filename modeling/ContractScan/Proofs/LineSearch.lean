import ContractScan.Proofs.LineTable
import ContractScan.Proofs.Positions
import Mathlib.Data.List.GetD
import Mathlib.Data.Nat.PSub

/-
  The line of a character by a search of the table of lines. A search either finds a number in a
  table that is in order or says where it would have to be put in (`Search.Answers`); searching
  by halves is one way to it (`answers_bisect`). The line of a character is the one that it is
  found to start, or the one before the line that it would have to start. Since the table begins
  with zero there is such a line, and it starts no later than the character, so neither the line
  nor the column is taken from below zero.

  `LineIndex.HoldsChar` says of what characters a line is the line. An answer leads to a line
  that holds the character (`exists_line?_of_answers`) and a character that a line holds has its
  place there (`position_of_holdsChar`); all that is said of positions in
  `LineIndex.locates_ofText` follows from these two.
-/

namespace ContractScan

/-! ## Searching a table -/

/-- What a search says of a number: where it stands in a table, or where it would be put in. -/
inductive Search
  | found (i : Nat)
  | absent (next : Nat)
deriving DecidableEq

namespace Search

/-- Whether an answer is right. A number that is absent is put in where it leaves the table in
order. -/
def Answers (table : List Nat) (c : Nat) : Search → Prop
  | found i => table[i]? = some c
  | absent next => c ∉ table ∧ next ≤ table.length ∧
      (table.take next ++ c :: table.drop next).Pairwise (· ≤ ·)

/-- The line of a character, from a search of the starts of lines; none before the first one. -/
def line? : Search → Option Nat
  | found i => some i
  | absent next => next.ppred

end Search

/-- The place that halving comes to in a part of a table. -/
def halve (table : List Nat) (c base size : Nat) : Nat :=
  if size ≤ 1 then base
  else if c < table.getD (base + size / 2) 0 then halve table c base (size - size / 2)
  else halve table c (base + size / 2) (size - size / 2)
termination_by size
decreasing_by all_goals omega

/-- The search of a table by halves. -/
def bisect (table : List Nat) (c : Nat) : Search :=
  let base := halve table c 0 table.length
  match table[base]? with
  | none => .absent 0
  | some x => if x = c then .found base else .absent (if x < c then base + 1 else base)

/-- What halving keeps: behind the part all is above the number, and the part starts with what is
not above it, unless this is the start of the table. -/
structure Narrows (table : List Nat) (c base size : Nat) : Prop where
  size_pos : 0 < size
  le_length : base + size ≤ table.length
  base_le : base = 0 ∨ table.getD base 0 ≤ c
  lt_behind : ∀ i, base + size ≤ i → i < table.length → c < table.getD i 0

section
variable {table : List Nat} {c : Nat}

theorem forall_mem_take {next : Nat} (hnext : next ≤ table.length)
    (h : ∀ i < next, table.getD i 0 < c) : ∀ x ∈ table.take next, x < c := by
  intro x hx
  obtain ⟨i, hi, rfl⟩ := List.mem_iff_getElem.mp hx
  rw [List.length_take_of_le hnext] at hi
  have hlt := h i hi
  rwa [List.getD_eq_getElem _ _ (Nat.lt_of_lt_of_le hi hnext), ← List.getElem_take] at hlt

theorem forall_mem_drop {next : Nat}
    (h : ∀ i, next ≤ i → i < table.length → c < table.getD i 0) : ∀ x ∈ table.drop next, c < x := by
  intro x hx
  obtain ⟨i, hi, rfl⟩ := List.mem_iff_getElem.mp hx
  rw [List.length_drop] at hi
  have hlt := h (next + i) (Nat.le_add_right _ _) (by omega)
  rwa [List.getD_eq_getElem _ _ (by omega), ← List.getElem_drop] at hlt

variable (horder : table.Pairwise (· < ·))
include horder

theorem getD_lt_getD {i j : Nat} (hij : i < j) (hj : j < table.length) :
    table.getD i 0 < table.getD j 0 := by
  have hlt := List.pairwise_iff_getElem.mp horder i j (Nat.lt_trans hij hj) hj hij
  rwa [← List.getD_eq_getElem table 0, ← List.getD_eq_getElem table 0] at hlt

/-- From a part whose middle is not above the number halving goes on behind the middle, else
before it. -/
theorem Narrows.half {base size : Nat} (h : Narrows table c base size) (hsize : 1 < size) :
    if c < table.getD (base + size / 2) 0 then Narrows table c base (size - size / 2)
      else Narrows table c (base + size / 2) (size - size / 2) := by
  obtain ⟨-, hlength, hbase, hbehind⟩ := h
  split
  · rename_i hmid
    refine ⟨by omega, by omega, hbase, fun i hi hlt => ?_⟩
    rcases Nat.lt_or_eq_of_le (show base + size / 2 ≤ i by omega) with hi | rfl
    · exact Nat.lt_trans hmid (getD_lt_getD horder hi hlt)
    · exact hmid
  · rename_i hmid
    refine ⟨by omega, by omega, Or.inr (Nat.le_of_not_lt hmid), fun i hi hlt => ?_⟩
    exact hbehind i (by omega) hlt

theorem narrows_halve {base size : Nat} (h : Narrows table c base size) :
    Narrows table c (halve table c base size) 1 := by
  fun_induction halve table c base size with
  | case1 base size hsize =>
    obtain rfl : size = 1 := Nat.le_antisymm hsize h.size_pos
    exact h
  | case2 base size hsize hmid ih =>
    have hhalf := h.half horder (Nat.lt_of_not_le hsize)
    rw [if_pos hmid] at hhalf
    exact ih hhalf
  | case3 base size hsize hmid ih =>
    have hhalf := h.half horder (Nat.lt_of_not_le hsize)
    rw [if_neg hmid] at hhalf
    exact ih hhalf

/-- A number goes between what is below it and what is above it. -/
theorem answers_absent {next : Nat} (hnext : next ≤ table.length)
    (htake : ∀ x ∈ table.take next, x < c) (hdrop : ∀ x ∈ table.drop next, c < x) :
    (Search.absent next).Answers table c := by
  have hle : table.Pairwise (· ≤ ·) := horder.imp Nat.le_of_lt
  refine ⟨fun hmem => ?_, hnext, ?_⟩
  · rw [← List.take_append_drop next table, List.mem_append] at hmem
    rcases hmem with hmem | hmem
    · exact Nat.lt_irrefl c (htake c hmem)
    · exact Nat.lt_irrefl c (hdrop c hmem)
  · rw [List.pairwise_append, List.pairwise_cons]
    refine ⟨hle.take, ⟨fun x hx => Nat.le_of_lt (hdrop x hx), hle.drop⟩, fun x hx y hy => ?_⟩
    rcases List.mem_cons.mp hy with rfl | hy
    · exact Nat.le_of_lt (htake x hx)
    · exact Nat.le_of_lt (Nat.lt_trans (htake x hx) (hdrop y hy))

/-- The search by halves gives a right answer. -/
theorem answers_bisect : (bisect table c).Answers table c := by
  rcases Nat.eq_zero_or_pos table.length with hempty | hpos
  · obtain rfl := List.eq_nil_of_length_eq_zero hempty
    exact ⟨List.not_mem_nil, Nat.le_refl _, List.pairwise_singleton _ _⟩
  have hstart : Narrows table c 0 table.length :=
    ⟨hpos, by omega, Or.inl rfl, fun i hi hlt => by omega⟩
  obtain ⟨-, hlt, hbase, hbehind⟩ := narrows_halve horder hstart
  unfold bisect
  generalize halve table c 0 table.length = base at hlt hbase hbehind
  have hget : table[base]? = some (table.getD base 0) := by
    rw [List.getElem?_eq_getElem hlt, List.getD_eq_getElem _ _ hlt]
  simp only [hget]
  rcases Nat.lt_trichotomy (table.getD base 0) c with hbelow | heq | habove
  · rw [if_neg (Nat.ne_of_lt hbelow), if_pos hbelow]
    refine answers_absent horder hlt (forall_mem_take hlt fun i hi => ?_) (forall_mem_drop hbehind)
    rcases Nat.lt_or_eq_of_le (Nat.le_of_lt_succ hi) with hi | rfl
    · exact Nat.lt_trans (getD_lt_getD horder hi hlt) hbelow
    · exact hbelow
  · rw [if_pos heq]
    exact hget.trans (congrArg some heq)
  · -- above the number there is only the start of the table
    obtain rfl : base = 0 := by omega
    rw [if_neg (Nat.ne_of_gt habove), if_neg (Nat.lt_asymm habove)]
    refine answers_absent horder (Nat.zero_le _) (by simp) (forall_mem_drop fun i _ hi => ?_)
    rcases Nat.eq_zero_or_pos i with rfl | hpos
    · exact habove
    · exact hbehind i hpos hi

end

/-! ## The starts of lines -/

/-- The starts of the lines of a text, in characters. -/
def charTable (text : String) : List Nat := (lineStarts text).map LineStart.char

theorem pairwise_startsFrom (char byte : Nat) (cs : List Char) :
    (∀ s ∈ startsFrom char byte cs, char < s.char) ∧
      (startsFrom char byte cs).Pairwise fun s t => s.char < t.char := by
  induction cs generalizing char byte with
  | nil => exact ⟨by simp [startsFrom], List.Pairwise.nil⟩
  | cons c r ih =>
    obtain ⟨hlt, hpairwise⟩ := ih (char + 1) (byte + c.utf8Size)
    have hlater : ∀ s ∈ startsFrom (char + 1) (byte + c.utf8Size) r, char < s.char :=
      fun s hs => Nat.lt_of_succ_lt (hlt s hs)
    rw [startsFrom]
    split
    · refine ⟨fun s hs => ?_, List.Pairwise.cons hlt hpairwise⟩
      rcases List.mem_cons.mp hs with rfl | hs
      · exact Nat.lt_succ_self char
      · exact hlater s hs
    · exact ⟨hlater, hpairwise⟩

/-- Every line starts behind the one before it. -/
theorem pairwise_charTable (text : String) : (charTable text).Pairwise (· < ·) := by
  obtain ⟨hlt, hpairwise⟩ := pairwise_startsFrom 0 0 text.toList
  exact List.pairwise_map.mpr (List.Pairwise.cons hlt hpairwise)

namespace LineIndex

theorem getElem?_charTable (text : String) (i : Nat) :
    (charTable text)[i]? = (ofText text).charStart? i := by
  rw [charTable, List.getElem?_map, (tabledBy_lineStarts text).charStart?]

/-- Whether a character lies on a line: not before its start, and before the start of the next
line. The last line has all that comes behind its start. -/
def HoldsChar (ix : LineIndex) (i c : Nat) : Prop :=
  (∃ start ∈ ix.charStart? i, start ≤ c) ∧ ∀ next ∈ ix.charStart? (i + 1), c < next

/-! ## From an answer to a line -/

/-- A right answer leads to a line, and this line holds the character. -/
theorem exists_line?_of_answers {text : String} {c : Nat} {a : Search}
    (h : a.Answers (charTable text) c) :
    ∃ i, a.line? = some i ∧ (ofText text).HoldsChar i c := by
  have horder := pairwise_charTable text
  cases a with
  | found i =>
    refine ⟨i, rfl, ⟨c, by rw [← getElem?_charTable]; exact h, Nat.le_refl c⟩, fun next hnext => ?_⟩
    rw [← getElem?_charTable] at hnext
    obtain ⟨hi, hget⟩ := List.getElem?_eq_some_iff.mp h
    obtain ⟨hi', rfl⟩ := List.getElem?_eq_some_iff.mp hnext
    rw [← hget]
    exact List.pairwise_iff_getElem.mp horder i (i + 1) hi hi' (Nat.lt_succ_self i)
  | absent next =>
    obtain ⟨hmem, hle, hsorted⟩ := h
    obtain ⟨-, hdrop, hcross⟩ := List.pairwise_append.mp hsorted
    cases next with
    | zero =>
      -- the table starts with zero, and nothing goes before it
      have hle := List.rel_of_pairwise_cons hdrop (show 0 ∈ charTable text from List.mem_cons_self)
      obtain rfl := Nat.le_zero.mp hle
      exact absurd List.mem_cons_self hmem
    | succ i =>
      have hget := List.getElem?_eq_getElem hle
      have htake : (charTable text)[i] ∈ (charTable text).take (i + 1) := by
        rw [List.take_add_one, hget]
        exact List.mem_append_right _ List.mem_cons_self
      refine ⟨i, rfl, ⟨_, by rw [← getElem?_charTable]; exact hget,
        hcross _ htake c List.mem_cons_self⟩, fun start hstart => ?_⟩
      rw [← getElem?_charTable] at hstart
      obtain ⟨hi, rfl⟩ := List.getElem?_eq_some_iff.mp hstart
      have hle := List.rel_of_pairwise_cons hdrop
        (show (charTable text)[i + 1] ∈ _ by
          rw [List.drop_eq_getElem_cons hi]
          exact List.mem_cons_self)
      exact Nat.lt_of_le_of_ne hle fun heq => hmem (heq ▸ List.getElem_mem hi)

/-! ## From a line to a place -/

theorem mem_charStart? {ix : LineIndex} {i start : Nat} :
    start ∈ ix.charStart? i ↔ i < ix.lineCount ∧ start = ix.charStart i := by
  rw [charStart?, Option.mem_def, Option.ite_none_right_eq_some, Option.some.injEq]
  exact and_congr_right fun _ => eq_comm

theorem charStart_succ {ix : LineIndex} {i : Nat} {l : List Char} (hl : ix.lines[i]? = some l) :
    ix.charStart (i + 1) = ix.charStart i + l.length := charsAbove_succ hl

/-- The characters of a text are those above a line, those of the line and those below it. -/
theorem length_toList {text : String} {i : Nat} {l : List Char}
    (hl : (ofText text).lines[i]? = some l) :
    text.toList.length = (ofText text).charStart i + l.length +
      ((ofText text).lines.drop (i + 1)).flatten.length := by
  rw [toList_around_line hl, List.length_append, List.length_append, Nat.add_assoc]
  rfl

theorem locate_last {above : List (List Char)} {l : List Char} {c : Nat}
    (h : above.flatten.length ≤ c) : locate (above ++ [l]) c =
      ⟨above.length, min (c - above.flatten.length) l.length⟩ := by
  induction above generalizing c with
  | nil => rfl
  | cons a above ih =>
    rw [List.flatten_cons, List.length_append] at h ⊢
    rw [List.cons_append, locate_cons a (by simp), if_neg (by omega), ih (by omega),
      Nat.sub_sub]
    rfl

/-- A character that a line holds has its place there; what is past the end has the end. -/
theorem position_of_holdsChar {text : String} {i c : Nat} (h : (ofText text).HoldsChar i c) :
    (ofText text).position c = ⟨i, min c text.toList.length - (ofText text).charStart i⟩ := by
  obtain ⟨⟨start, hstart, hle⟩, hnext⟩ := h
  obtain ⟨hi, rfl⟩ := mem_charStart?.mp hstart
  obtain ⟨l, hl⟩ : ∃ l, (ofText text).lines[i]? = some l := ⟨_, List.getElem?_eq_getElem hi⟩
  have hlength := length_toList hl
  by_cases hlast : i + 1 < (ofText text).lineCount
  · have hlt := hnext _ (mem_charStart?.mpr ⟨hlast, rfl⟩)
    rw [charStart_succ hl] at hlt
    have hplace := locate_of_line (k := c - (ofText text).charStart i) hl (by omega)
    have hc : charsAbove (ofText text).lines i + (c - (ofText text).charStart i) = c :=
      Nat.add_sub_of_le hle
    rw [hc] at hplace
    rw [position, hplace, Nat.min_eq_left (by omega)]
  · have hlines : (ofText text).lines = (ofText text).lines.take i ++ [l] := by
      rw [← Option.toList_some, ← hl, ← List.take_add_one,
        List.take_of_length_le (Nat.le_of_not_lt hlast)]
    have hplace := locate_last (l := l) hle
    have hcolumn : min (c - (ofText text).charStart i) l.length =
        min c text.toList.length - (ofText text).charStart i := by
      rw [List.drop_eq_nil_of_le (Nat.le_of_not_lt hlast), List.flatten_nil,
        List.length_nil] at hlength
      omega
    rw [← hlines, List.length_take_of_le (Nat.le_of_lt hi)] at hplace
    rw [position, hplace, ← hcolumn]
    rfl

theorem exists_holdsChar (text : String) (c : Nat) : ∃ i, (ofText text).HoldsChar i c := by
  obtain ⟨i, -, h⟩ := exists_line?_of_answers (answers_bisect (pairwise_charTable text))
  exact ⟨i, h⟩

/-- The line of a character is the one that holds it. -/
theorem holdsChar_iff {text : String} {i c : Nat} :
    (ofText text).HoldsChar i c ↔ i = ((ofText text).position c).line := by
  have hline {j : Nat} (h : (ofText text).HoldsChar j c) :
      j = ((ofText text).position c).line := by
    rw [position_of_holdsChar h]
  constructor
  · exact hline
  · rintro rfl
    obtain ⟨j, h⟩ := exists_holdsChar text c
    rwa [← hline h]

/-- What is past the end of a text lies where the end does. -/
theorem position_of_le {text : String} {c : Nat} (h : text.toList.length ≤ c) :
    (ofText text).position c = (ofText text).position text.toList.length := by
  obtain ⟨i, hholds⟩ := exists_holdsChar text c
  have hend : (ofText text).HoldsChar i text.toList.length := by
    obtain ⟨⟨start, hstart, -⟩, hnext⟩ := hholds
    obtain ⟨hi, rfl⟩ := mem_charStart?.mp hstart
    have hlength := length_toList (List.getElem?_eq_getElem hi)
    exact ⟨⟨_, hstart, by omega⟩, fun next hmem => Nat.lt_of_le_of_lt h (hnext next hmem)⟩
  rw [position_of_holdsChar hholds, position_of_holdsChar hend, Nat.min_eq_right h, Nat.min_self]

theorem position_min (text : String) (c : Nat) :
    (ofText text).position (min c text.toList.length) = (ofText text).position c := by
  rcases Nat.le_total c text.toList.length with h | h
  · rw [Nat.min_eq_left h]
  · rw [Nat.min_eq_right h, position_of_le h]

/-- A line and a column lead back to their character. -/
theorem exists_start_add_column {text : String} {c : Nat} (h : c ≤ text.toList.length) :
    ∃ start ∈ (ofText text).charStart? ((ofText text).position c).line,
      start + ((ofText text).position c).column = c := by
  obtain ⟨i, hholds⟩ := exists_holdsChar text c
  rw [position_of_holdsChar hholds, Nat.min_eq_left h]
  obtain ⟨⟨start, hstart, hle⟩, -⟩ := hholds
  refine ⟨start, hstart, ?_⟩
  rw [← (mem_charStart?.mp hstart).2]
  exact Nat.add_sub_of_le hle

/-! ## Places -/

/-- The position of a character by the line that a search of a table comes to; none where a
subtraction would go below zero. -/
def positionFrom? (table : List Nat) (c : Nat) (a : Search) : Option Position := do
  let line ← a.line?
  let start ← table[line]?
  let column ← c.psub start
  return ⟨line, column⟩

theorem positionFrom?_of_answers {text : String} {c : Nat} {a : Search}
    (h : a.Answers (charTable text) c) (hc : c ≤ text.toList.length) :
    positionFrom? (charTable text) c a = some ((ofText text).position c) := by
  obtain ⟨i, hline, hholds⟩ := exists_line?_of_answers h
  rw [position_of_holdsChar hholds, Nat.min_eq_left hc]
  obtain ⟨⟨start, hstart, hle⟩, -⟩ := hholds
  rw [← (mem_charStart?.mp hstart).2, positionFrom?, hline]
  have hget : (charTable text)[i]? = some start := (getElem?_charTable text i).trans hstart
  simp [hget, Nat.psub_eq_sub hle]

/-- An index in which positions and characters go back and forth. -/
structure Locates (ix : LineIndex) (text : String) : Prop where
  before : ∀ p q, p < q → q ≤ text.toList.length → (ix.position p).before (ix.position q)
  clamp : ∀ c, text.toList.length ≤ c → ix.position c = ix.position text.toList.length
  offset : ∀ c ≤ text.toList.length, ∃ start ∈ ix.charStart? (ix.position c).line,
    start + (ix.position c).column = c
  holdsChar : ∀ c i, ix.HoldsChar i c ↔ i = (ix.position c).line
  /-- Searching by halves answers right, and no right answer leads before the first line. -/
  search : ∀ c, (bisect (charTable text) c).Answers (charTable text) c ∧
    ∀ a : Search, a.Answers (charTable text) c → a.line? = some (ix.lineOf c)
  /-- No column is taken from below zero. -/
  column : ∀ c, ∀ a : Search, a.Answers (charTable text) (min c text.toList.length) →
    positionFrom? (charTable text) (min c text.toList.length) a = some (ix.position c)

/-- **Positions and characters.** In the index of every text positions are in the order of the
    characters and lead back to them, and they are what a search of the starts of lines gives. -/
theorem locates_ofText (text : String) : (ofText text).Locates text where
  before _ _ h hq := position_before h hq
  clamp _ h := position_of_le h
  offset _ h := exists_start_add_column h
  holdsChar _ _ := holdsChar_iff
  search c := by
    refine ⟨answers_bisect (pairwise_charTable text), fun a h => ?_⟩
    obtain ⟨i, hline, hholds⟩ := exists_line?_of_answers h
    rw [hline, holdsChar_iff.mp hholds, lineOf]
  column c a h := by
    rw [positionFrom?_of_answers h (Nat.min_le_right _ _), position_min]

end LineIndex

end ContractScan
