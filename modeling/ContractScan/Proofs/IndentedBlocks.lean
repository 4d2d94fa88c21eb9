import ContractScan.Proofs.Folds
import Mathlib.Data.List.Basic
import Mathlib.Data.List.TakeWhile

/-
  Folds by indentation. `IsBlock` says line by line what folds: a line whose next line with content
  lies deeper, down to the last line with content before the indentation is back. These are the
  folds that are found, each once and in order (`indentationFolds_exact`).

  The folds are also those of one pass over the lines, with a stack of the lines that are still
  open (`onePass`): a line ends the open lines that lie no less deep, all at the last line with
  content so far. The columns on the stack decrease, so the lines that it ends are on top of it
  (`onePass_perm`).
-/

namespace ContractScan

/-! ## Blocks -/

/-- Whether a number is the first behind another that has a property. -/
def IsFirstAfter (n : Nat) (p : Nat → Prop) (m : Nat) : Prop :=
  n < m ∧ p m ∧ ∀ k, n < k → k < m → ¬ p k

/-- Whether a number is the last in front of another that has a property. -/
def IsLastBefore (n : Nat) (p : Nat → Prop) (m : Nat) : Prop :=
  m < n ∧ p m ∧ ∀ k, m < k → k < n → ¬ p k

section
variable (column : Nat → Option Nat)

/-- Whether a line has content. -/
def HasContent (n : Nat) : Prop := (column n).isSome

/-- Whether a line has content at a column or less. -/
def ComesBack (depth n : Nat) : Prop := ∃ d ∈ column n, d ≤ depth

/-- Whether the lines from one to another are a block, where so many lines have columns: the first
has content, the next with content lies deeper, and the last is the last with content before the
first line below that comes back to the column of the first, or of all if none does. -/
def IsBlock (count first last : Nat) : Prop :=
  ∃ depth ∈ column first,
    (∃ next, IsFirstAfter first (HasContent column) next ∧ ∃ d ∈ column next, depth < d) ∧
    ∃ stop, (IsFirstAfter first (ComesBack column depth) stop ∨
        stop = count ∧ ∀ n, first < n → ¬ ComesBack column depth n) ∧
      IsLastBefore stop (HasContent column) last

end

/-- The column of a line; nothing if the line is blank, or if there is no such line. -/
def LineIndex.column? (ix : LineIndex) (tab n : Nat) : Option Nat :=
  ix.lines[n]?.bind fun l => (indentationOf tab l).toOption.join

/-- The column of a line where columns have no end. -/
def LineIndex.trueColumn? (ix : LineIndex) (tab n : Nat) : Option Nat :=
  ix.lines[n]?.bind (ContractScan.trueColumn? tab)

/-- The lines of a text that fits have their true columns. -/
theorem LineIndex.column?_eq {ix : LineIndex} {tab : Nat} (h : ix.Fits tab) :
    ix.column? tab = ix.trueColumn? tab := by
  funext n
  rw [column?, trueColumn?]
  cases hl : ix.lines[n]? with
  | none => rfl
  | some l =>
    rw [Option.bind_some, Option.bind_some, indentationOf_eq,
      if_pos (h l (List.mem_of_getElem? hl))]
    rfl

theorem IsFirstAfter.unique {n : Nat} {p : Nat → Prop} {m m' : Nat} (h : IsFirstAfter n p m)
    (h' : IsFirstAfter n p m') : m = m' := by
  rcases Nat.lt_trichotomy m m' with hlt | heq | hlt
  · exact absurd h.2.1 (h'.2.2 m h.1 hlt)
  · exact heq
  · exact absurd h'.2.1 (h.2.2 m' h'.1 hlt)

theorem IsLastBefore.unique {n : Nat} {p : Nat → Prop} {m m' : Nat} (h : IsLastBefore n p m)
    (h' : IsLastBefore n p m') : m = m' := by
  rcases Nat.lt_trichotomy m m' with hlt | heq | hlt
  · exact absurd h'.2.1 (h.2.2 m' hlt h'.1)
  · exact heq
  · exact absurd h.2.1 (h'.2.2 m hlt h.1)

/-- A block is told by its first line. -/
theorem IsBlock.unique {column : Nat → Option Nat} {count first last last' : Nat}
    (h : IsBlock column count first last) (h' : IsBlock column count first last') :
    last = last' := by
  obtain ⟨depth, hdepth, -, stop, hstop, hlast⟩ := h
  obtain ⟨depth', hdepth', -, stop', hstop', hlast'⟩ := h'
  obtain rfl := Option.mem_unique hdepth hdepth'
  have heq : stop = stop' := by
    rcases hstop with hstop | ⟨rfl, hnone⟩ <;> rcases hstop' with hstop' | ⟨rfl, hnone'⟩
    · exact hstop.unique hstop'
    · exact absurd hstop.2.1 (hnone' _ hstop.1)
    · exact absurd hstop'.2.1 (hnone _ hstop'.1)
    · rfl
  rw [← heq] at hlast'
  exact hlast.unique hlast'

/-! ## Lines with content -/

theorem mem_trueContentLines_iff {ix : LineIndex} {tab n c : Nat} :
    ⟨n, c⟩ ∈ trueContentLines ix tab ↔ ix.trueColumn? tab n = some c := by
  simp [trueContentLines, LineIndex.trueColumn?, List.mem_zipIdx_iff_getElem?,
    Option.bind_eq_some_iff]

theorem pairwise_trueContentLines (ix : LineIndex) (tab : Nat) :
    (trueContentLines ix tab).Pairwise fun a b => a.line < b.line :=
  List.pairwise_map.mp ((List.pairwise_lt_range' 1).sublist (lines_trueContentLines ix tab))

/-- A fold starts at a line with deeper lines right behind it, and ends at the last of them. -/
theorem mem_foldsOfContent {ls : List ContentLine} {f : Fold} :
    f ∈ foldsOfContent ls ↔ ∃ l below last, l :: below <:+ ls ∧
      (deeperLines l.column below).getLast? = some last ∧
        f = ⟨l.line, last.line, .indentation⟩ := by
  induction ls with
  | nil => simp [foldsOfContent]
  | cons l ls ih =>
    have hhere : (∃ last, (deeperLines l.column ls).getLast? = some last ∧
        f = ⟨l.line, last.line, .indentation⟩) ∨ f ∈ foldsOfContent ls ↔
          f ∈ foldsOfContent (l :: ls) := by
      rw [foldsOfContent]
      cases (deeperLines l.column ls).getLast? <;> simp
    rw [← hhere, ih]
    constructor
    · rintro (⟨last, h⟩ | ⟨l', below, last, hsuf, h⟩)
      · exact ⟨l, ls, last, List.suffix_refl _, h⟩
      · exact ⟨l', below, last, hsuf.trans (List.suffix_cons l ls), h⟩
    · rintro ⟨l', below, last, hsuf, h⟩
      rcases List.suffix_cons_iff.mp hsuf with heq | hsuf
      · obtain ⟨rfl, rfl⟩ := List.cons.inj heq
        exact Or.inl ⟨last, h⟩
      · exact Or.inr ⟨l', below, last, hsuf, h⟩

/-! ## Folds are blocks -/

/-- Whether a list holds the lines with content from a line on, in order. -/
structure ListsFrom (column : Nat → Option Nat) (start : Nat) (ls : List ContentLine) : Prop where
  sorted : ls.Pairwise fun a b => a.line < b.line
  mem_iff : ∀ n c, ⟨n, c⟩ ∈ ls ↔ start ≤ n ∧ column n = some c

theorem listsFrom_trueContentLines (ix : LineIndex) (tab : Nat) :
    ListsFrom (ix.trueColumn? tab) 0 (trueContentLines ix tab) :=
  ⟨pairwise_trueContentLines ix tab, fun n c => by simp [mem_trueContentLines_iff]⟩

section
variable {column : Nat → Option Nat} {count first start depth : Nat} {ls : List ContentLine}

theorem ListsFrom.mem (h : ListsFrom column start ls) {l : ContentLine} (hl : l ∈ ls) :
    start ≤ l.line ∧ column l.line = some l.column :=
  (h.mem_iff l.line l.column).mp hl

/-- What stands behind a line of the list are the lines below it. -/
theorem ListsFrom.behind {above below : List ContentLine} {l : ContentLine}
    (h : ListsFrom column start (above ++ l :: below)) : ListsFrom column (l.line + 1) below := by
  obtain ⟨-, hbelow, habove⟩ := List.pairwise_append.mp h.sorted
  obtain ⟨hl, hsorted⟩ := List.pairwise_cons.mp hbelow
  have hmem : ∀ {m : ContentLine}, m ∈ l :: below → m ∈ above ++ l :: below := fun hm =>
    List.mem_append_right above hm
  refine ⟨hsorted, fun n c => ⟨fun hn => ?_, fun ⟨hlt, hc⟩ => ?_⟩⟩
  · exact ⟨hl _ hn, (h.mem (hmem (List.mem_cons_of_mem l hn))).2⟩
  · have hstart : start ≤ l.line := (h.mem (hmem List.mem_cons_self)).1
    rcases List.mem_append.mp ((h.mem_iff n c).mpr ⟨by omega, hc⟩) with hn | hn
    · have hlt' : n < l.line := habove _ hn l List.mem_cons_self
      omega
    · rcases List.mem_cons.mp hn with rfl | hn
      · exact absurd hlt (Nat.not_succ_le_self _)
      · exact hn

/-- The first line of the list is the next one with content. -/
theorem ListsFrom.isFirstAfter {l : ContentLine} (h : ListsFrom column (first + 1) (l :: ls)) :
    IsFirstAfter first (HasContent column) l.line := by
  obtain ⟨hlt, hcolumn⟩ := h.mem List.mem_cons_self
  refine ⟨hlt, Option.isSome_of_eq_some hcolumn, fun k hk hkl hcontent => ?_⟩
  obtain ⟨c, hc⟩ := Option.isSome_iff_exists.mp hcontent
  rcases List.mem_cons.mp ((h.mem_iff k c).mpr ⟨hk, hc⟩) with rfl | hmem
  · exact Nat.lt_irrefl _ hkl
  · exact Nat.lt_asymm hkl ((List.pairwise_cons.mp h.sorted).1 _ hmem)

theorem lt_of_mem_deeperLines {l : ContentLine} (hl : l ∈ deeperLines depth ls) :
    depth < l.column := by
  rw [deeperLines] at hl
  simpa using List.mem_takeWhile_imp hl

/-- The lines from the first that does not lie deeper. -/
def linesBack (depth : Nat) (ls : List ContentLine) : List ContentLine :=
  ls.dropWhile fun l => depth < l.column

theorem deeperLines_append_linesBack (depth : Nat) (ls : List ContentLine) :
    deeperLines depth ls ++ linesBack depth ls = ls :=
  List.takeWhile_append_dropWhile

theorem le_of_linesBack_eq_cons {s : ContentLine} {rest : List ContentLine}
    (h : linesBack depth ls = s :: rest) : s.column ≤ depth := by
  have hhead := List.head?_dropWhile_not (fun l : ContentLine => decide (depth < l.column)) ls
  rw [linesBack] at h
  rw [h] at hhead
  simpa using hhead

/-- A line that comes back does not stand among those that lie deeper. -/
theorem ListsFrom.mem_linesBack (h : ListsFrom column (first + 1) ls) {n : Nat} (hn : first < n)
    (hback : ComesBack column depth n) : ∃ d, ⟨n, d⟩ ∈ linesBack depth ls := by
  obtain ⟨d, hd, hle⟩ := hback
  have hmem := (h.mem_iff n d).mpr ⟨hn, hd⟩
  rw [← deeperLines_append_linesBack depth ls] at hmem
  rcases List.mem_append.mp hmem with hmem | hmem
  · exact absurd (lt_of_mem_deeperLines hmem) (Nat.not_lt.mpr hle)
  · exact ⟨d, hmem⟩

theorem ListsFrom.isFirstAfter_comesBack (h : ListsFrom column (first + 1) ls) {s : ContentLine}
    {rest : List ContentLine} (hrest : linesBack depth ls = s :: rest) :
    IsFirstAfter first (ComesBack column depth) s.line := by
  have hsub : (s :: rest).Sublist ls := by
    rw [← hrest]
    exact List.dropWhile_sublist _
  have hs := h.mem (hsub.subset List.mem_cons_self)
  refine ⟨hs.1, ⟨s.column, hs.2, le_of_linesBack_eq_cons hrest⟩, fun k hk hks hback => ?_⟩
  obtain ⟨d, hd⟩ := h.mem_linesBack hk hback
  rw [hrest] at hd
  rcases List.mem_cons.mp hd with rfl | hd
  · exact Nat.lt_irrefl _ hks
  · exact Nat.lt_asymm hks ((List.pairwise_cons.mp (h.sorted.sublist hsub)).1 _ hd)

/-- Behind the last of the lines that lie deeper stand those from the first that comes back. -/
theorem ListsFrom.behind_deeperLines (h : ListsFrom column start ls) {last : ContentLine}
    (hlast : (deeperLines depth ls).getLast? = some last) :
    ListsFrom column (last.line + 1) (linesBack depth ls) := by
  obtain ⟨init, hinit⟩ := List.getLast?_eq_some_iff.mp hlast
  rw [← deeperLines_append_linesBack depth ls, hinit, List.append_assoc,
    List.singleton_append] at h
  exact h.behind

/-- The last of the lines that lie deeper is the last of a block. -/
theorem isBlock_of_getLast? (h : ListsFrom column (first + 1) ls)
    (hcount : ∀ l ∈ ls, l.line < count) (hdepth : column first = some depth) {last : ContentLine}
    (hlast : (deeperLines depth ls).getLast? = some last) :
    IsBlock column count first last.line := by
  have hmem : last ∈ ls := (List.takeWhile_sublist _).subset (List.mem_of_getLast? hlast)
  have hcontent : HasContent column last.line := Option.isSome_of_eq_some (h.mem hmem).2
  have hbehind := h.behind_deeperLines hlast
  refine ⟨depth, hdepth, ?next, ?stop⟩
  case next =>
    cases ls with
    | nil => cases hlast
    | cons l ls =>
      have hdeeper : depth < l.column := by
        by_contra hle
        rw [deeperLines, List.takeWhile_cons_of_neg (by simpa using hle)] at hlast
        cases hlast
      exact ⟨l.line, h.isFirstAfter, l.column, (h.mem List.mem_cons_self).2, hdeeper⟩
  case stop =>
    cases hrest : linesBack depth ls with
    | nil =>
      refine ⟨count, .inr ⟨rfl, fun n hn hback => ?_⟩, hcount last hmem, hcontent,
        fun k hk _ hk' => ?_⟩
      · obtain ⟨d, hd⟩ := h.mem_linesBack hn hback
        rw [hrest] at hd
        cases hd
      · obtain ⟨c, hc⟩ := Option.isSome_iff_exists.mp hk'
        have hmem := (hbehind.mem_iff k c).mpr ⟨hk, hc⟩
        rw [hrest] at hmem
        cases hmem
    | cons s rest =>
      rw [hrest] at hbehind
      have hnext := hbehind.isFirstAfter
      exact ⟨s.line, .inl (h.isFirstAfter_comesBack hrest), hnext.1, hcontent, hnext.2.2⟩

/-- A block has deeper lines right behind its first. -/
theorem getLast?_of_isBlock (h : ListsFrom column (first + 1) ls) (hdepth : column first = some depth)
    {last : Nat} (hblock : IsBlock column count first last) :
    ∃ l, (deeperLines depth ls).getLast? = some l := by
  obtain ⟨d, hd, ⟨next, hnext, c, hc, hlt⟩, -⟩ := hblock
  obtain rfl := Option.mem_unique hd hdepth
  cases ls with
  | nil => cases (h.mem_iff next c).mpr ⟨hnext.1, hc⟩
  | cons l ls =>
    have hl := hnext.unique h.isFirstAfter
    rw [hl] at hc
    obtain rfl := Option.mem_unique hc (h.mem List.mem_cons_self).2
    rw [deeperLines, List.takeWhile_cons_of_pos (by simpa using hlt)]
    exact ⟨_, List.getLast?_cons⟩

end

/-- The folds are the blocks. -/
theorem mem_trueFolds {ix : LineIndex} {tab : Nat} {f : Fold} :
    f ∈ trueFolds ix tab ↔
      f.kind = .indentation ∧ IsBlock (ix.trueColumn? tab) ix.lineCount f.startLine f.endLine := by
  have hall := listsFrom_trueContentLines ix tab
  have hcount : ∀ l ∈ trueContentLines ix tab, l.line < ix.lineCount := fun l hl => by
    have hl := (lines_trueContentLines ix tab).subset (List.mem_map_of_mem hl)
    simpa [LineIndex.lineCount] using List.mem_range'_1.mp hl
  rw [trueFolds, mem_foldsOfContent]
  constructor
  · rintro ⟨l, below, last, ⟨above, heq⟩, hlast, rfl⟩
    rw [← heq] at hall hcount
    have hl : l ∈ above ++ l :: below := by simp
    refine ⟨rfl, isBlock_of_getLast? hall.behind (fun m hm => hcount m ?_) (hall.mem hl).2 hlast⟩
    exact List.mem_append_right _ (List.mem_cons_of_mem l hm)
  · rintro ⟨hkind, hblock⟩
    obtain ⟨depth, hdepth, -⟩ := id hblock
    obtain ⟨above, below, heq⟩ := List.append_of_mem (mem_trueContentLines_iff.mpr hdepth)
    rw [heq] at hall hcount
    obtain ⟨last, hlast⟩ := getLast?_of_isBlock hall.behind hdepth hblock
    have hfold := isBlock_of_getLast? hall.behind
      (fun m hm => hcount m (List.mem_append_right _ (List.mem_cons_of_mem _ hm))) hdepth hlast
    refine ⟨⟨f.startLine, depth⟩, below, last, ⟨above, heq.symm⟩, hlast, ?_⟩
    rw [← hblock.unique hfold, ← hkind]

theorem startLine_foldsOfContent (ls : List ContentLine) :
    ((foldsOfContent ls).map Fold.startLine).Sublist (ls.map ContentLine.line) := by
  induction ls with
  | nil => exact List.Sublist.refl _
  | cons l ls ih =>
    rw [foldsOfContent]
    split
    · exact ih.cons_cons l.line
    · exact ih.cons l.line

theorem pairwise_startLine_trueFolds (ix : LineIndex) (tab : Nat) :
    (trueFolds ix tab).Pairwise fun a b => a.startLine < b.startLine :=
  List.pairwise_map.mp ((List.pairwise_map.mpr (pairwise_trueContentLines ix tab)).sublist
    (startLine_foldsOfContent _))

/-! ## One pass with a stack -/

/-- The fold from an open line to a line, if that lies below it. -/
def foldUpTo? (last : Nat) (l : ContentLine) : Option Fold :=
  if l.line < last then some ⟨l.line, last, .indentation⟩ else none

/-- The folds of one pass over lines with content, after the last line with content so far and with
a stack of the lines that are open, the innermost first. A line ends all open lines that lie no less
deep, and all are ended behind the last line. -/
def onePass (last : Nat) : List ContentLine → List ContentLine → List Fold
  | [], stack => stack.filterMap (foldUpTo? last)
  | l :: ls, stack =>
    (stack.takeWhile fun o => l.column ≤ o.column).filterMap (foldUpTo? last) ++
      onePass l.line ls (l :: stack.dropWhile fun o => l.column ≤ o.column)

/-- The fold of an open line over the lines to come. -/
def foldOver? (last : Nat) (ls : List ContentLine) (o : ContentLine) : Option Fold :=
  match (deeperLines o.column ls).getLast? with
  | some l => some ⟨o.line, l.line, .indentation⟩
  | none => foldUpTo? last o

theorem foldOver?_of_le {last : Nat} {l o : ContentLine} {ls : List ContentLine}
    (h : l.column ≤ o.column) : foldOver? last (l :: ls) o = foldUpTo? last o := by
  rw [foldOver?, deeperLines, List.takeWhile_cons_of_neg (by simpa using h)]
  rfl

theorem foldOver?_of_lt {last : Nat} {l o : ContentLine} {ls : List ContentLine}
    (h : o.column < l.column) (hline : o.line < l.line) :
    foldOver? last (l :: ls) o = foldOver? l.line ls o := by
  rw [foldOver?, deeperLines, List.takeWhile_cons_of_pos (by simpa using h), List.getLast?_cons,
    foldOver?, deeperLines]
  cases (ls.takeWhile fun l => o.column < l.column).getLast? with
  | some e => rfl
  | none => simp [foldUpTo?, hline]

theorem foldsOfContent_cons (l : ContentLine) (ls : List ContentLine) :
    foldsOfContent (l :: ls) = (foldOver? l.line ls l).toList ++ foldsOfContent ls := by
  rw [foldsOfContent, foldOver?]
  cases (deeperLines l.column ls).getLast? with
  | some e => rfl
  | none => simp [foldUpTo?]

/-- The lines that stay open lie less deep, as the columns on the stack decrease. -/
theorem lt_of_mem_dropWhile {depth : Nat} {stack : List ContentLine}
    (hstack : stack.Pairwise fun inner outer => outer.column < inner.column) {o : ContentLine}
    (ho : o ∈ stack.dropWhile fun o => depth ≤ o.column) : o.column < depth := by
  induction stack with
  | nil => cases ho
  | cons inner outer ih =>
    obtain ⟨hinner, houter⟩ := List.pairwise_cons.mp hstack
    rw [List.dropWhile_cons] at ho
    split at ho
    · exact ih houter ho
    · next hlt =>
      have hlt : inner.column < depth := by simpa using hlt
      rcases List.mem_cons.mp ho with rfl | ho
      · exact hlt
      · exact Nat.lt_trans (hinner o ho) hlt

/-- A line ends the open lines that lie no less deep, and leaves the others to the lines to come. -/
theorem filterMap_foldOver?_cons {last : Nat} {l : ContentLine} {ls stack : List ContentLine}
    (hstack : stack.Pairwise fun inner outer => outer.column < inner.column)
    (hlines : ∀ o ∈ stack, o.line < l.line) :
    stack.filterMap (foldOver? last (l :: ls)) =
      (stack.takeWhile fun o => l.column ≤ o.column).filterMap (foldUpTo? last) ++
        (stack.dropWhile fun o => l.column ≤ o.column).filterMap (foldOver? l.line ls) := by
  conv =>
    lhs
    rw [← List.takeWhile_append_dropWhile (p := fun o : ContentLine => l.column ≤ o.column)
      (l := stack), List.filterMap_append]
  congr 1
  · refine List.filterMap_congr fun o ho => foldOver?_of_le ?_
    simpa using List.mem_takeWhile_imp ho
  · refine List.filterMap_congr fun o ho => foldOver?_of_lt (lt_of_mem_dropWhile hstack ho) ?_
    exact hlines o ((List.dropWhile_sublist _).subset ho)

/-- A pass finds the folds of the open lines and those of the lines to come. -/
theorem onePass_perm {last : Nat} {ls stack : List ContentLine}
    (hls : ls.Pairwise fun a b => a.line < b.line)
    (hstack : stack.Pairwise fun inner outer => outer.column < inner.column)
    (hlines : ∀ o ∈ stack, ∀ l ∈ ls, o.line < l.line) :
    (onePass last ls stack).Perm
      (stack.filterMap (foldOver? last ls) ++ foldsOfContent ls) := by
  induction ls generalizing last stack with
  | nil =>
    rw [onePass, foldsOfContent, List.append_nil]
    exact List.Perm.refl _
  | cons l ls ih =>
    obtain ⟨hl, hls⟩ := List.pairwise_cons.mp hls
    have hline : ∀ o ∈ stack, o.line < l.line := fun o ho => hlines o ho l List.mem_cons_self
    let kept := stack.dropWhile fun o => l.column ≤ o.column
    have hkept : kept.Sublist stack := List.dropWhile_sublist _
    -- The line goes on the stack, on top of the lines that it leaves open.
    have hstack' : (l :: kept).Pairwise fun inner outer => outer.column < inner.column :=
      .cons (fun o ho => lt_of_mem_dropWhile hstack ho) (hstack.sublist hkept)
    have hlines' : ∀ o ∈ l :: kept, ∀ l' ∈ ls, o.line < l'.line := by
      intro o ho l' hl'
      rcases List.mem_cons.mp ho with rfl | ho
      · exact hl l' hl'
      · exact Nat.lt_trans (hline o (hkept.subset ho)) (hl l' hl')
    have hrest := @ih l.line (l :: kept) hls hstack' hlines'
    have hcons (os : List ContentLine) : ((l :: os).filterMap (foldOver? l.line ls)) =
        (foldOver? l.line ls l).toList ++ os.filterMap (foldOver? l.line ls) := by
      rw [List.filterMap_cons]
      cases foldOver? l.line ls l <;> rfl
    rw [hcons] at hrest
    rw [onePass, foldsOfContent_cons, filterMap_foldOver?_cons hstack hline, List.append_assoc,
      ← List.append_assoc _ _ (foldsOfContent ls)]
    exact List.Perm.append_left _ (hrest.trans (List.Perm.append_right _ List.perm_append_comm))

/-- One pass with a stack finds the folds. -/
theorem sort_onePass (ix : LineIndex) (tab : Nat) :
    Fold.sort (onePass 0 (trueContentLines ix tab) []) = trueFolds ix tab :=
  Fold.sort_eq_of_perm (onePass_perm (pairwise_trueContentLines ix tab) .nil (by simp))
    (pairwise_startLine_trueFolds ix tab)

/-- **Folds by indentation.** If all columns of a text fit, its folds are its blocks, each once and
    in the order of their first lines; and one pass over the lines with a stack of those still
    open finds them. There are no folds otherwise. -/
theorem indentationFolds_exact (text : String) (tab : Nat) :
    let ix := LineIndex.ofText text
    if ix.Fits tab then
      ∃ folds lines, indentationFolds ix tab = .ok folds ∧
        contentLinesFrom tab 0 ix.lines = .ok lines ∧
        folds.Pairwise (fun a b => a.startLine < b.startLine) ∧
        (∀ f, f ∈ folds ↔
          f.kind = .indentation ∧ IsBlock (ix.column? tab) ix.lineCount f.startLine f.endLine) ∧
        Fold.sort (onePass 0 lines []) = folds
    else indentationFolds ix tab = .error .column := by
  intro ix
  rw [indentationFolds_eq, contentLinesFrom_lines]
  split
  · next hfits =>
    rw [LineIndex.column?_eq hfits]
    exact ⟨_, _, rfl, rfl, pairwise_startLine_trueFolds ix tab, fun _ => mem_trueFolds,
      sort_onePass ix tab⟩
  · rfl

end ContractScan
