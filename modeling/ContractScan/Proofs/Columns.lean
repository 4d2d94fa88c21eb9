import ContractScan.Fold.Indentation
import Mathlib.Algebra.Group.Nat.Defs
import Mathlib.Data.List.Infix

/-
  Columns of 64 bits. `trueColumn?` is the column of the content of a line where columns have no
  end. The indentation of a line is this column if all columns on the way to it fit into 64 bits,
  and there is none otherwise; the folds by indentation are those of the true columns if all
  lines fit, and there are none otherwise (`indentation_exact`). Columns fit wherever the tab size
  times the number of blanks in front of a line does, but two tabs can be enough for one that does
  not (`not_columns_fit`).

  A tab leads to the next multiple of the tab size, which is where the places added for it lead to
  (`columnBehind_tab`). Columns only grow along the blanks of a line (`le_columnBehindAll`), so it
  is enough to look at the last of them (`lineFits_iff`).
-/

namespace ContractScan

open ContractScan.Text (isBlank isLineBreak)

/-! ## Columns without end -/

/-- Whether a character belongs to the indentation of a line that goes on. -/
def isIndent (c : Char) : Bool := isBlank c && !isLineBreak c

/-- The blanks in front of a line. -/
def indentBlanks (l : List Char) : List Char := l.takeWhile isIndent

/-- Whether a line has content behind its blanks. -/
def startsContent (l : List Char) : Bool :=
  (l.dropWhile isIndent).head?.any fun c => !isLineBreak c

/-- The column behind a blank: a tab leads to the next multiple of the tab size. -/
def columnBehind (tab column : Nat) (c : Char) : Nat :=
  if c = '\t' then tab * (column / tab + 1) else column + 1

/-- The column behind blanks. -/
def columnBehindAll (tab column : Nat) (blanks : List Char) : Nat :=
  blanks.foldl (columnBehind tab) column

/-- The columns that the blanks in front of a line lead through. -/
def columnsOf (tab : Nat) (l : List Char) : List Nat :=
  (indentBlanks l).inits.map (columnBehindAll (max tab 1) 0)

/-- The column of the content of a line, if it has any. -/
def trueColumn? (tab : Nat) (l : List Char) : Option Nat :=
  if startsContent l then some (columnBehindAll (max tab 1) 0 (indentBlanks l)) else none

/-- The lines with content of a text and their columns. -/
def trueContentLines (ix : LineIndex) (tab : Nat) : List ContentLine :=
  ix.lines.zipIdx.filterMap fun l => (trueColumn? tab l.1).map (ContentLine.mk l.2)

/-- The folds of a text by the columns of its lines. -/
def trueFolds (ix : LineIndex) (tab : Nat) : List Fold := foldsOfContent (trueContentLines ix tab)

theorem columnBehindAll_cons (tab column : Nat) (c : Char) (blanks : List Char) :
    columnBehindAll tab column (c :: blanks) =
      columnBehindAll tab (columnBehind tab column c) blanks :=
  rfl

theorem columnBehindAll_append (tab column : Nat) (blanks blanks' : List Char) :
    columnBehindAll tab column (blanks ++ blanks') =
      columnBehindAll tab (columnBehindAll tab column blanks) blanks' :=
  List.foldl_append

section
variable {tab : Nat} (ht : 0 < tab) (column : Nat)
include ht

/-- The next multiple of the tab size is as many places away as a tab adds. -/
theorem columnBehind_tab :
    columnBehind tab column '\t' = column + placesToTabStop tab column := by
  have hdiv := Nat.div_add_mod column tab
  have hmod := Nat.mod_lt column ht
  rw [columnBehind, if_pos rfl, placesToTabStop, Nat.mul_succ]
  omega

theorem le_columnBehind (c : Char) : column ≤ columnBehind tab column c := by
  by_cases hc : c = '\t'
  · rw [hc, columnBehind_tab ht]
    exact Nat.le_add_right _ _
  · rw [columnBehind, if_neg hc]
    exact Nat.le_succ _

/-- A blank leads at most one tab further. -/
theorem columnBehind_le (c : Char) : columnBehind tab column c ≤ column + tab := by
  by_cases hc : c = '\t'
  · rw [hc, columnBehind_tab ht, placesToTabStop]
    omega
  · rw [columnBehind, if_neg hc]
    omega

theorem le_columnBehindAll (blanks : List Char) :
    column ≤ columnBehindAll tab column blanks := by
  induction blanks generalizing column with
  | nil => exact Nat.le_refl _
  | cons c blanks ih => exact Nat.le_trans (le_columnBehind ht column c) (ih _)

theorem columnBehindAll_le (blanks : List Char) :
    columnBehindAll tab column blanks ≤ column + tab * blanks.length := by
  induction blanks generalizing column with
  | nil => exact Nat.le_refl _
  | cons c blanks ih =>
    have hstep := columnBehind_le ht column c
    have hrest := ih (columnBehind tab column c)
    rw [columnBehindAll_cons, List.length_cons, Nat.mul_succ]
    omega

end

/-! ## Columns that fit -/

/-- Whether all columns fit that the blanks in front of a line lead through. -/
def LineFits (tab : Nat) (l : List Char) : Prop := ∀ c ∈ columnsOf tab l, c < 2 ^ 64

instance (tab : Nat) : DecidablePred (LineFits tab) := fun l =>
  inferInstanceAs (Decidable (∀ c ∈ columnsOf tab l, c < 2 ^ 64))

/-- Whether the columns of all lines fit. -/
def LineIndex.Fits (ix : LineIndex) (tab : Nat) : Prop := ∀ l ∈ ix.lines, LineFits tab l

instance (ix : LineIndex) : DecidablePred ix.Fits := fun tab =>
  inferInstanceAs (Decidable (∀ l ∈ ix.lines, LineFits tab l))

theorem max_one_pos (tab : Nat) : 0 < max tab 1 :=
  Nat.lt_of_lt_of_le Nat.one_pos (Nat.le_max_right tab 1)

/-- The last column of a line decides. -/
theorem lineFits_iff {tab : Nat} {l : List Char} :
    LineFits tab l ↔ columnBehindAll (max tab 1) 0 (indentBlanks l) < columnLimit := by
  constructor
  · exact fun h => h _ (List.mem_map.mpr ⟨_, (List.mem_inits _ _).mpr (List.prefix_refl _), rfl⟩)
  · intro h c hc
    obtain ⟨blanks, hblanks, rfl⟩ := List.mem_map.mp hc
    obtain ⟨rest, hrest⟩ := (List.mem_inits _ _).mp hblanks
    rw [← hrest, columnBehindAll_append] at h
    exact Nat.lt_of_le_of_lt (le_columnBehindAll (max_one_pos tab) _ rest) h

/-- The columns of a line are bounded by its blanks. -/
theorem le_of_mem_columnsOf {tab c : Nat} {l : List Char} (h : c ∈ columnsOf tab l) :
    c ≤ max tab 1 * (indentBlanks l).length := by
  obtain ⟨blanks, hblanks, rfl⟩ := List.mem_map.mp h
  have hlen := ((List.mem_inits _ _).mp hblanks).length_le
  have hle := columnBehindAll_le (max_one_pos tab) 0 blanks
  have hmul := Nat.mul_le_mul_left (max tab 1) hlen
  omega

theorem mem_columnsOf_of_mem_trueColumn? {tab c : Nat} {l : List Char}
    (h : c ∈ trueColumn? tab l) : c ∈ columnsOf tab l := by
  rw [trueColumn?, Option.mem_def, Option.ite_none_right_eq_some] at h
  exact List.mem_map.mpr ⟨_, (List.mem_inits _ _).mpr (List.prefix_refl _), Option.some.inj h.2⟩

/-! ## Columns of 64 bits -/

theorem columnFrom_cons_of_isIndent {tab : Nat} (ht : 0 < tab) (column : Nat) {c : Char}
    (h : isIndent c) (r : List Char) :
    columnFrom tab column (c :: r) =
      if columnBehind tab column c < columnLimit then columnFrom tab (columnBehind tab column c) r
      else .error .column := by
  rw [isIndent, Bool.and_eq_true, Bool.not_eq_true'] at h
  rw [columnFrom]
  by_cases hc : c = '\t'
  · rw [if_pos hc, hc, columnBehind_tab ht, columnAfter]
    split <;> rfl
  · rw [if_neg hc, if_neg (by rw [h.2]; decide), if_pos h.1, columnBehind, if_neg hc, columnAfter]
    split <;> rfl

theorem columnFrom_cons_of_not_isIndent (tab column : Nat) {c : Char} (h : isIndent c = false)
    (r : List Char) :
    columnFrom tab column (c :: r) = .ok (if isLineBreak c then none else some column) := by
  have hc : c ≠ '\t' := by
    rintro rfl
    exact absurd h (by decide)
  rw [columnFrom, if_neg hc]
  cases hbreak : isLineBreak c with
  | true => rfl
  | false =>
    have hblank : isBlank c = false := by simpa [isIndent, hbreak] using h
    simp [hblank]

theorem startsContent_cons_of_isIndent {c : Char} (h : isIndent c) (r : List Char) :
    startsContent (c :: r) = startsContent r := by
  rw [startsContent, List.dropWhile_cons_of_pos h, startsContent]

theorem startsContent_cons_of_not_isIndent {c : Char} (h : isIndent c = false) (r : List Char) :
    startsContent (c :: r) = !isLineBreak c := by
  rw [startsContent, List.dropWhile_cons_of_neg (by rw [h]; decide)]
  rfl

/-- From a column that fits, the column of the content is found if the one behind the blanks
    fits. -/
theorem columnFrom_eq {tab : Nat} (ht : 0 < tab) {column : Nat} (hcolumn : column < columnLimit)
    (l : List Char) :
    columnFrom tab column l =
      if columnBehindAll tab column (indentBlanks l) < columnLimit then
        .ok (if startsContent l then some (columnBehindAll tab column (indentBlanks l)) else none)
      else .error .column := by
  induction l generalizing column with
  | nil => exact (if_pos hcolumn).symm
  | cons c r ih =>
    cases hc : isIndent c with
    | true =>
      have hblanks : indentBlanks (c :: r) = c :: indentBlanks r := List.takeWhile_cons_of_pos hc
      rw [columnFrom_cons_of_isIndent ht column hc, startsContent_cons_of_isIndent hc, hblanks,
        columnBehindAll_cons]
      by_cases hfits : columnBehind tab column c < columnLimit
      · rw [if_pos hfits, ih hfits]
      · have hle := le_columnBehindAll ht (columnBehind tab column c) (indentBlanks r)
        rw [if_neg hfits, if_neg (by omega)]
    | false =>
      have hblanks : indentBlanks (c :: r) = [] := List.takeWhile_cons_of_neg (by rw [hc]; decide)
      rw [columnFrom_cons_of_not_isIndent tab column hc, startsContent_cons_of_not_isIndent hc,
        hblanks]
      refine Eq.trans ?_ (if_pos hcolumn).symm
      cases isLineBreak c <;> rfl

/-- The indentation of a line is its true column, if all columns on the way there fit. -/
theorem indentationOf_eq (tab : Nat) (l : List Char) :
    indentationOf tab l = if LineFits tab l then .ok (trueColumn? tab l) else .error .column := by
  rw [indentationOf, columnFrom_eq (max_one_pos tab) (by decide), trueColumn?]
  simp only [lineFits_iff]

theorem contentLinesFrom_eq (tab n : Nat) (ls : List (List Char)) :
    contentLinesFrom tab n ls =
      if ∀ l ∈ ls, LineFits tab l then
        .ok ((ls.zipIdx n).filterMap fun l => (trueColumn? tab l.1).map (ContentLine.mk l.2))
      else .error .column := by
  induction ls generalizing n with
  | nil => rfl
  | cons l ls ih =>
    rw [contentLinesFrom, indentationOf_eq, ih, List.zipIdx_cons, List.filterMap_cons]
    simp only [List.forall_mem_cons]
    by_cases hl : LineFits tab l
    · by_cases hls : ∀ l ∈ ls, LineFits tab l
      · rw [if_pos hl, if_pos hls, if_pos ⟨hl, hls⟩]
        cases trueColumn? tab l <;> rfl
      · rw [if_pos hl, if_neg hls, if_neg (not_and_of_not_right _ hls)]
        rfl
    · rw [if_neg hl, if_neg (not_and_of_not_left _ hl)]
      rfl

/-- The lines with content have their true columns, if all lines fit. -/
theorem contentLinesFrom_lines (ix : LineIndex) (tab : Nat) :
    contentLinesFrom tab 0 ix.lines =
      if ix.Fits tab then .ok (trueContentLines ix tab) else .error .column :=
  contentLinesFrom_eq tab 0 ix.lines

theorem indentationFolds_eq (ix : LineIndex) (tab : Nat) :
    indentationFolds ix tab = if ix.Fits tab then .ok (trueFolds ix tab) else .error .column := by
  rw [indentationFolds, contentLinesFrom_lines]
  split <;> rfl

/-- **Columns.** A line has its true column exactly if all columns on the way there are below
    `2 ^ 64`; the column of its content is one of them, and none is larger than the tab size times
    the number of blanks in front of the line. The folds by indentation of a text are those of its
    true columns if all lines are so. There is no column and there are no folds otherwise. -/
theorem indentation_exact (tab : Nat) (ix : LineIndex) :
    (∀ l, indentationOf tab l =
      if ∀ c ∈ columnsOf tab l, c < 2 ^ 64 then .ok (trueColumn? tab l) else .error .column) ∧
    (∀ l, (∀ c ∈ trueColumn? tab l, c ∈ columnsOf tab l) ∧
      ∀ c ∈ columnsOf tab l, c ≤ max tab 1 * (indentBlanks l).length) ∧
    indentationFolds ix tab =
      if ∀ l ∈ ix.lines, ∀ c ∈ columnsOf tab l, c < 2 ^ 64 then
        .ok (foldsOfContent (trueContentLines ix tab))
      else .error .column :=
  ⟨indentationOf_eq tab, fun _ => ⟨fun _ => mem_columnsOf_of_mem_trueColumn?,
    fun _ => le_of_mem_columnsOf⟩, indentationFolds_eq ix tab⟩

/-- The column behind two tabs need not fit: a tab of `2 ^ 63` places leads from `2 ^ 63` to a
column that no 64 bits hold. There are no folds then, though the second line lies deeper. -/
theorem not_columns_fit :
    (¬ ∀ (tab : Nat) (l : List Char), tab < 2 ^ 64 → Text.byteLength l < 2 ^ 64 →
      ∀ c ∈ columnsOf tab l, c < 2 ^ 64) ∧
    indentationFolds (.ofText "\tx\n\t\ty") (2 ^ 63) = .error .column ∧
    foldsOfContent (trueContentLines (.ofText "\tx\n\t\ty") (2 ^ 63)) =
      [⟨0, 1, .indentation⟩] := by
  refine ⟨fun h => ?_, by decide, by decide⟩
  have hmem : 2 ^ 64 ∈ columnsOf (2 ^ 63) ['\t', '\t', 'y'] := by decide
  exact absurd (h _ _ (by decide) (by decide) _ hmem) (by decide)

end ContractScan
