import ContractScan.Proofs.Yields

/-
  The lines of folds. A fold has two lines or more, all of them lines of the text
  (`spans_of_mem_folds`): the lines with content and the marker lines are counted upwards from
  the first line of the text, a fold by indentation ends at a later line with content, and a
  region ends at a marker after the one that opened it. The folds of an outline lie in the order
  of their lines, a fold by indentation in front of a region with the same lines
  (`pairwise_inOrder_folds`).
-/

namespace ContractScan

/-! ## Lines counted upwards -/

theorem lines_trueContentLines (ix : LineIndex) (tab : Nat) :
    ((trueContentLines ix tab).map ContentLine.line).Sublist (List.range' 0 ix.lines.length) := by
  rw [trueContentLines]
  generalize ix.lines = ls, 0 = n
  induction ls generalizing n with
  | nil => exact List.nil_sublist _
  | cons l ls ih =>
    rw [List.zipIdx_cons, List.filterMap_cons, List.length_cons, List.range'_succ]
    cases trueColumn? tab l with
    | some column => exact (ih (n + 1)).cons_cons n
    | none => exact (ih (n + 1)).cons n

theorem lines_markerLinesFrom (n : Nat) (ls : List (List Char)) :
    ((markerLinesFrom n ls).map MarkerLine.line).Sublist (List.range' n ls.length) := by
  induction ls generalizing n with
  | nil => exact List.nil_sublist _
  | cons l ls ih =>
    rw [markerLinesFrom, List.length_cons, List.range'_succ]
    split
    · exact (ih (n + 1)).cons_cons n
    · exact (ih (n + 1)).cons n

/-! ## Lines of folds -/

namespace Fold

/-- Whether a fold has two lines or more, of so many that there are. -/
def Spans (count : Nat) (f : Fold) : Prop := f.startLine < f.endLine ∧ f.endLine < count

theorem spans_of_sublist {lines : List Nat} {count : Nat} {f : Fold}
    (hlines : lines.Sublist (List.range' 0 count))
    (h : f.startLine < f.endLine ∧ f.endLine ∈ lines) : f.Spans count := by
  refine ⟨h.1, ?_⟩
  have hmem := List.mem_range'_1.mp (hlines.subset h.2)
  omega

end Fold

/-- A fold by indentation ends at a line with content below its first one. -/
theorem lines_of_mem_foldsOfContent {ls : List ContentLine}
    (h : (ls.map ContentLine.line).Pairwise (· < ·)) {f : Fold} (hf : f ∈ foldsOfContent ls) :
    f.startLine < f.endLine ∧ f.endLine ∈ ls.map ContentLine.line := by
  induction ls with
  | nil => cases hf
  | cons l ls ih =>
    rw [List.map_cons, List.pairwise_cons] at h
    have hrest (hf : f ∈ foldsOfContent ls) := (ih h.2 hf).imp_right (List.mem_cons_of_mem l.line)
    rw [foldsOfContent] at hf
    split at hf
    · next last hlast =>
      rcases List.mem_cons.mp hf with rfl | hf
      · have hmem := List.mem_map_of_mem (f := ContentLine.line)
          ((List.takeWhile_sublist _).subset (List.mem_of_getLast? hlast))
        exact ⟨h.1 _ hmem, List.mem_cons_of_mem l.line hmem⟩
      · exact hrest hf
    · exact hrest hf

/-- A region ends at a marker line below its first one. -/
theorem lines_of_mem_regions {ms : List MarkerLine} {stack : List Nat}
    (hms : (ms.map MarkerLine.line).Pairwise (· < ·))
    (hstack : ∀ s ∈ stack, ∀ n ∈ ms.map MarkerLine.line, s < n) {r : Nat × Nat}
    (hr : r ∈ (RegionPairing.follow ms stack).regions) :
    r.1 < r.2 ∧ r.2 ∈ ms.map MarkerLine.line := by
  fun_induction RegionPairing.follow ms stack with
  | case1 => cases hr
  | case2 n ms stack ih =>
    rw [List.map_cons, List.pairwise_cons] at hms
    refine (ih hms.2 (fun s hs k hk => ?_) hr).imp_right (List.mem_cons_of_mem n)
    rcases List.mem_cons.mp hs with rfl | hs
    · exact hms.1 k hk
    · exact hstack s hs k (List.mem_cons_of_mem n hk)
  | case3 n ms s stack ih =>
    rw [List.map_cons, List.pairwise_cons] at hms
    rcases List.mem_cons.mp hr with rfl | hr
    · exact ⟨hstack s List.mem_cons_self n List.mem_cons_self, List.mem_cons_self⟩
    · refine (ih hms.2 (fun s' hs k hk => ?_) hr).imp_right (List.mem_cons_of_mem n)
      exact hstack s' (List.mem_cons_of_mem s hs) k (List.mem_cons_of_mem n hk)
  | case4 n ms ih =>
    rw [List.map_cons, List.pairwise_cons] at hms
    exact (ih hms.2 (by simp) hr).imp_right (List.mem_cons_of_mem n)

theorem spans_of_mem_trueFolds {ix : LineIndex} {tab : Nat} {f : Fold}
    (hf : f ∈ trueFolds ix tab) : f.Spans ix.lineCount :=
  have hlines := lines_trueContentLines ix tab
  Fold.spans_of_sublist hlines
    (lines_of_mem_foldsOfContent ((List.pairwise_lt_range' 1).sublist hlines) hf)

theorem spans_of_mem_regionFolds {ix : LineIndex} {f : Fold} (hf : f ∈ regionFolds ix) :
    f.Spans ix.lineCount := by
  obtain ⟨r, hr, rfl⟩ := List.mem_map.mp ((Fold.sort_perm _).mem_iff.mp hf)
  have hlines := lines_markerLinesFrom 0 ix.lines
  exact Fold.spans_of_sublist hlines
    (lines_of_mem_regions ((List.pairwise_lt_range' 1).sublist hlines) (by simp) hr)

theorem spans_of_mem_folds {text : String} {o : ScanOptions} {f : Fold}
    (hf : f ∈ (Scan.ideal text o).outline.folds) :
    f.Spans (LineIndex.ofText text).lineCount := by
  rcases List.mem_append.mp ((Fold.sort_perm _).mem_iff.mp hf) with hf | hf
  · split at hf
    · exact spans_of_mem_trueFolds hf
    · cases hf
  · split at hf
    · exact spans_of_mem_regionFolds hf
    · cases hf

/-! ## Order -/

namespace Fold

theorem inOrder_iff {a b : Fold} :
    a.inOrder b ↔ a.startLine < b.startLine ∨ a.startLine = b.startLine ∧
      (a.endLine < b.endLine ∨ a.endLine = b.endLine ∧ a.kind.rank ≤ b.kind.rank) := by
  simp only [inOrder, Bool.or_eq_true, Bool.and_eq_true, decide_eq_true_eq, beq_iff_eq]

theorem inOrder_trans (a b c : Fold) (hab : a.inOrder b) (hbc : b.inOrder c) : a.inOrder c := by
  rw [inOrder_iff] at *
  omega

theorem inOrder_total (a b : Fold) : a.inOrder b || b.inOrder a := by
  rw [Bool.or_eq_true, inOrder_iff, inOrder_iff]
  omega

theorem inOrder_antisymm {a b : Fold} (hab : a.inOrder b) (hba : b.inOrder a) : a = b := by
  rw [inOrder_iff] at hab hba
  have hstart : a.startLine = b.startLine := by omega
  have hend : a.endLine = b.endLine := by omega
  have hkind : a.kind = b.kind := by
    have hrank : a.kind.rank = b.kind.rank := by omega
    revert hrank
    cases a.kind <;> cases b.kind <;> simp [FoldKind.rank]
  cases a
  cases b
  rw [Fold.mk.injEq]
  exact ⟨hstart, hend, hkind⟩

theorem pairwise_inOrder_sort (fs : List Fold) : (sort fs).Pairwise fun a b => a.inOrder b :=
  List.pairwise_mergeSort inOrder_trans inOrder_total fs

/-- Folds with first lines in order are what the sort makes of them in any order. -/
theorem sort_eq_of_perm {fs gs : List Fold} (h : fs.Perm gs)
    (hgs : gs.Pairwise fun a b => a.startLine < b.startLine) : sort fs = gs := by
  refine ((sort_perm fs).trans h).eq_of_pairwise (fun _ _ _ _ => inOrder_antisymm)
    (pairwise_inOrder_sort fs) ?_
  exact hgs.imp fun hlt => inOrder_iff.mpr (.inl hlt)

end Fold

/-- The folds of an outline lie in order. -/
theorem pairwise_inOrder_folds (text : String) (o : ScanOptions) :
    (Scan.ideal text o).outline.folds.Pairwise fun a b => a.inOrder b :=
  Fold.pairwise_inOrder_sort _

end ContractScan
