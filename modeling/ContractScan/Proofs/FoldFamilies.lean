import ContractScan.Proofs.IndentedBlocks
import ContractScan.Proofs.RegionFolds

/-
  How the folds of a scan lie to one another (`isFoldFamily_folds`). They stand in strict order,
  and two folds of one kind are disjoint or one lies in the other, for a reason of its own in each
  kind.

  Blocks nest because of their columns: the line that ends a block lies no deeper than its first
  line, so it also ends every block that starts inside it (`IsBlock.nested`). Regions nest because
  of their stack: an end marker closes the region opened last, so a region that ends later was
  opened further out, or below the end marker (`pairwise_regions_follow`).
-/

namespace ContractScan

/-! ## Blocks -/

/-- A block that starts inside another ends inside it. -/
theorem IsBlock.nested {column : Nat → Option Nat} {count first last first' last' : Nat}
    (h : IsBlock column count first last) (h' : IsBlock column count first' last')
    (hcount : last' < count) (hlt : first < first') : last < first' ∨ last' ≤ last := by
  rw [or_iff_not_imp_left, Nat.not_lt]
  intro hinside
  obtain ⟨depth, -, -, stop, hstop, hlast⟩ := h
  obtain ⟨depth', hdepth', -, stop', hstop', hlast'⟩ := h'
  have hbefore : first' < stop := Nat.lt_of_le_of_lt hinside hlast.1
  -- The inner block starts in front of the line that ends the outer one, so it lies deeper.
  have hdeeper : depth < depth' := by
    by_contra hle
    have hback : ComesBack column depth first' := ⟨depth', hdepth', Nat.not_lt.mp hle⟩
    rcases hstop with hstop | ⟨-, hnone⟩
    · exact hstop.2.2 first' hlt hbefore hback
    · exact hnone first' hlt hback
  have hends : last' < stop := by
    rcases hstop with ⟨-, ⟨d, hd, hle⟩, -⟩ | ⟨rfl, -⟩
    · have hback : ComesBack column depth' stop := ⟨d, hd, by omega⟩
      rcases hstop' with hstop' | ⟨-, hnone'⟩
      · have hle : stop' ≤ stop := Nat.not_lt.mp fun hlt' => hstop'.2.2 stop hbefore hlt' hback
        exact Nat.lt_of_lt_of_le hlast'.1 hle
      · exact absurd hback (hnone' stop hbefore)
    · exact hcount
  exact Nat.not_lt.mp fun hlt' => hlast.2.2 last' hlt' hends hlast'.2.1

/-! ## Regions -/

namespace RegionPairing

/-- A region that is closed later was opened further out, or below the end of the other. -/
theorem pairwise_regions_follow {ms : List MarkerLine} {stack : List Nat}
    (hms : (ms.map MarkerLine.line).Pairwise (· < ·))
    (hstack : stack.Pairwise fun inner outer => outer < inner)
    (hlines : ∀ s ∈ stack, ∀ n ∈ ms.map MarkerLine.line, s < n) :
    (follow ms stack).regions.Pairwise fun r q => r.2 < q.2 ∧ (q.1 < r.1 ∨ r.2 < q.1) := by
  fun_induction follow ms stack with
  | case1 => exact .nil
  | case2 n ms stack ih =>
    rw [List.map_cons, List.pairwise_cons] at hms
    simp only [List.map_cons, List.forall_mem_cons] at hlines
    refine ih hms.2 (.cons (fun s hs => (hlines s hs).1) hstack) ?_
    exact List.forall_mem_cons.mpr ⟨hms.1, fun s hs => (hlines s hs).2⟩
  | case3 n ms s stack ih =>
    rw [List.map_cons, List.pairwise_cons] at hms
    obtain ⟨hs, hstack⟩ := List.pairwise_cons.mp hstack
    simp only [List.map_cons, List.forall_mem_cons] at hlines
    have hlines' : ∀ s ∈ stack, ∀ k ∈ ms.map MarkerLine.line, s < k := fun s hs =>
      (hlines.2 s hs).2
    refine .cons (fun q hq => ⟨hms.1 _ (lines_of_mem_regions hms.2 hlines' hq).2, ?_⟩)
      (ih hms.2 hstack hlines')
    have hstart : q.1 ∈ stack ++ linesOfKind .opens ms :=
      (starts_perm_follow ms stack).mem_iff.mp
        (List.mem_append_left _ (List.mem_map_of_mem hq))
    rcases List.mem_append.mp hstart with hstart | hstart
    · exact .inl (hs _ hstart)
    · exact .inr (hms.1 _ ((List.filter_sublist.map _).subset hstart))
  | case4 n ms ih =>
    rw [List.map_cons, List.pairwise_cons] at hms
    exact ih hms.2 .nil (by simp)

/-- A region that starts inside another ends inside it. -/
theorem nested_of_mem_regions {ix : LineIndex} {r q : Nat × Nat} (hr : r ∈ (ofIndex ix).regions)
    (hq : q ∈ (ofIndex ix).regions) (hlt : r.1 < q.1) : r.2 < q.1 ∨ q.2 ≤ r.2 := by
  have hpairs := pairwise_regions_follow
    ((List.pairwise_lt_range' 1).sublist (lines_markerLinesFrom 0 ix.lines)) .nil (by simp)
  -- Either of the two may be the one that is closed first.
  let Nests (r q : Nat × Nat) : Prop :=
    (r.1 < q.1 → r.2 < q.1 ∨ q.2 ≤ r.2) ∧ (q.1 < r.1 → q.2 < r.1 ∨ r.2 ≤ q.2)
  have hsymm : Std.Symm Nests := ⟨fun _ _ h => h.symm⟩
  have hnests : (ofIndex ix).regions.Pairwise Nests := hpairs.imp fun {r q} h => by
    constructor
    · intro hlt
      omega
    · intro _
      exact .inr (Nat.le_of_lt h.1)
  have hrefl : ∀ p ∈ (ofIndex ix).regions, Nests p p := fun p _ =>
    ⟨fun h => absurd h (Nat.lt_irrefl _), fun h => absurd h (Nat.lt_irrefl _)⟩
  exact (hnests.forall_of_forall hrefl hr hq).1 hlt

end RegionPairing

/-! ## Ends of folds -/

theorem nodup_startLine_trueFolds (ix : LineIndex) (tab : Nat) :
    ((trueFolds ix tab).map Fold.startLine).Nodup :=
  List.pairwise_map.mpr ((pairwise_startLine_trueFolds ix tab).imp Nat.ne_of_lt)

theorem nodup_startLine_regionFolds (ix : LineIndex) :
    ((regionFolds ix).map Fold.startLine).Nodup :=
  List.pairwise_map.mpr ((pairwise_startLine_regionFolds ix).imp Nat.ne_of_lt)

/-- The ends of regions are told by the kinds of their markers. -/
theorem nodup_endLine_regionFolds (ix : LineIndex) : ((regionFolds ix).map Fold.endLine).Nodup :=
  List.Nodup.of_append_left ((ends_perm ix).nodup_iff.mpr (List.nodup_range.filter _))

theorem startLine_ne_endLine {ix : LineIndex} {f g : Fold} (hf : f ∈ regionFolds ix)
    (hg : g ∈ regionFolds ix) : f.startLine ≠ g.endLine := by
  have hstart := (starts_perm ix).mem_iff.mp
    (List.mem_append_left _ (List.mem_map_of_mem (f := Fold.startLine) hf))
  have hend := (ends_perm ix).mem_iff.mp
    (List.mem_append_left _ (List.mem_map_of_mem (f := Fold.endLine) hg))
  intro heq
  rw [heq] at hstart
  have hopens := of_decide_eq_true (List.mem_filter.mp hstart).2
  rw [of_decide_eq_true (List.mem_filter.mp hend).2] at hopens
  cases hopens

/-! ## Families -/

namespace Fold

/-- Whether a fold lies strictly in front of another: by first line, then last line, then kind. -/
def Before (a b : Fold) : Prop :=
  a.startLine < b.startLine ∨ a.startLine = b.startLine ∧
    (a.endLine < b.endLine ∨ a.endLine = b.endLine ∧ a.kind.rank < b.kind.rank)

/-- Whether a line is the first or the last of a fold. -/
def EndsAt (f : Fold) (n : Nat) : Prop := n = f.startLine ∨ n = f.endLine

theorem before_of_inOrder {a b : Fold} (h : a.inOrder b) (hne : a ≠ b) : a.Before b := by
  have hnot : ¬ b.inOrder a := fun h' => hne (inOrder_antisymm h h')
  rw [inOrder_iff] at h hnot
  unfold Before
  omega

end Fold

/-- Whether folds of a text of so many lines are a family of intervals, nested in each kind. -/
structure IsFoldFamily (count : Nat) (fs : List Fold) : Prop where
  sorted : fs.Pairwise Fold.Before
  spans : ∀ f ∈ fs, f.startLine < f.endLine ∧ f.endLine < count
  /-- Two folds of one kind are disjoint, or the one that starts later ends inside the other. -/
  nested : ∀ f ∈ fs, ∀ g ∈ fs, f.kind = g.kind → f.startLine < g.startLine →
    f.endLine < g.startLine ∨ g.endLine ≤ f.endLine
  /-- One fold by indentation starts at a line. -/
  indentation : ∀ f ∈ fs, ∀ g ∈ fs, f.kind = .indentation → g.kind = .indentation →
    f.startLine = g.startLine → f = g
  /-- One region starts or ends at a line. -/
  region : ∀ f ∈ fs, ∀ g ∈ fs, f.kind = .regionMarker → g.kind = .regionMarker →
    ∀ n, f.EndsAt n → g.EndsAt n → f = g

/-! ## Folds of a scan -/

section
variable {text : String} {o : ScanOptions} {f g : Fold}

theorem mem_folds_iff : f ∈ (Scan.ideal text o).outline.folds ↔
    (o.indentationFolding ∧ f ∈ trueFolds (LineIndex.ofText text) o.tabSize) ∨
      (o.regionFolding ∧ f ∈ regionFolds (LineIndex.ofText text)) := by
  have hsort : f ∈ (Scan.ideal text o).outline.folds ↔ _ := (Fold.sort_perm _).mem_iff
  rw [hsort, List.mem_append]
  cases o.indentationFolding <;> cases o.regionFolding <;> simp

theorem mem_trueFolds_of_kind (hf : f ∈ (Scan.ideal text o).outline.folds)
    (hkind : f.kind = .indentation) :
    f ∈ trueFolds (LineIndex.ofText text) o.tabSize := by
  rcases mem_folds_iff.mp hf with ⟨-, hf⟩ | ⟨-, hf⟩
  · exact hf
  · rw [(mem_regionFolds.mp hf).1] at hkind
    cases hkind

theorem mem_regionFolds_of_kind (hf : f ∈ (Scan.ideal text o).outline.folds)
    (hkind : f.kind = .regionMarker) : f ∈ regionFolds (LineIndex.ofText text) := by
  rcases mem_folds_iff.mp hf with ⟨-, hf⟩ | ⟨-, hf⟩
  · rw [(mem_trueFolds.mp hf).1] at hkind
    cases hkind
  · exact hf

theorem nodup_folds (text : String) (o : ScanOptions) :
    (Scan.ideal text o).outline.folds.Nodup := by
  refine (Fold.sort_perm _).nodup_iff.mpr (List.Nodup.append ?_ ?_ fun f hindent hregion => ?_)
  · split
    · exact (nodup_startLine_trueFolds _ _).of_map
    · exact List.nodup_nil
  · split
    · exact (nodup_startLine_regionFolds _).of_map
    · exact List.nodup_nil
  · -- A fold is of one kind.
    have hindent : f.kind = .indentation := by
      split at hindent
      · exact (mem_trueFolds.mp hindent).1
      · cases hindent
    have hregion : f.kind = .regionMarker := by
      split at hregion
      · exact (mem_regionFolds.mp hregion).1
      · cases hregion
    rw [hindent] at hregion
    cases hregion

/-- Two folds of one kind are disjoint or nested. -/
theorem nested_folds (hf : f ∈ (Scan.ideal text o).outline.folds)
    (hg : g ∈ (Scan.ideal text o).outline.folds) (hkind : f.kind = g.kind)
    (hlt : f.startLine < g.startLine) : f.endLine < g.startLine ∨ g.endLine ≤ f.endLine := by
  cases hk : f.kind with
  | indentation =>
    have hf' := mem_trueFolds.mp (mem_trueFolds_of_kind hf hk)
    have hg' := mem_trueFolds.mp (mem_trueFolds_of_kind hg (hkind ▸ hk))
    exact hf'.2.nested hg'.2 (spans_of_mem_folds hg).2 hlt
  | regionMarker =>
    have hf' := (mem_regionFolds.mp (mem_regionFolds_of_kind hf hk)).2
    have hg' := (mem_regionFolds.mp (mem_regionFolds_of_kind hg (hkind ▸ hk))).2
    exact RegionPairing.nested_of_mem_regions (mem_regions_iff.mpr hf') (mem_regions_iff.mpr hg')
      hlt

/-- A region is told by either of its ends. -/
theorem eq_of_endsAt (hf : f ∈ regionFolds (LineIndex.ofText text))
    (hg : g ∈ regionFolds (LineIndex.ofText text)) {n : Nat} (hfn : f.EndsAt n)
    (hgn : g.EndsAt n) : f = g := by
  rcases hfn with rfl | rfl <;> rcases hgn with heq | heq
  · exact List.inj_on_of_nodup_map (nodup_startLine_regionFolds _) hf hg heq
  · exact absurd heq (startLine_ne_endLine hf hg)
  · exact absurd heq.symm (startLine_ne_endLine hg hf)
  · exact List.inj_on_of_nodup_map (nodup_endLine_regionFolds _) hf hg heq

end

theorem isFoldFamily_ideal (text : String) (o : ScanOptions) :
    IsFoldFamily (Scan.ideal text o).index.lineCount (Scan.ideal text o).outline.folds where
  sorted := by
    have hsorted := pairwise_inOrder_folds text o
    exact (hsorted.and (nodup_folds text o)).imp fun h => Fold.before_of_inOrder h.1 h.2
  spans f hf := spans_of_mem_folds hf
  nested f hf g hg hkind hlt := nested_folds hf hg hkind hlt
  indentation := by
    intro f hf g hg hfk hgk heq
    have hf' := mem_trueFolds_of_kind hf hfk
    have hg' := mem_trueFolds_of_kind hg hgk
    exact List.inj_on_of_nodup_map (nodup_startLine_trueFolds _ _) hf' hg' heq
  region := by
    intro f hf g hg hfk hgk n hfn hgn
    exact eq_of_endsAt (mem_regionFolds_of_kind hf hfk) (mem_regionFolds_of_kind hg hgk) hfn hgn

/-- **Families of folds.** The folds of a scan lie in strict order, by first line, last line and
    kind. Each has two lines or more, all of them lines of the text. Two folds of one kind are
    disjoint or nested, no two folds by indentation start at one line, and no line is an end of two
    regions. -/
theorem isFoldFamily_folds (text : String) (o : ScanOptions) :
    Scan.Yields text o fun scan => IsFoldFamily scan.index.lineCount scan.outline.folds :=
  .of_ideal (isFoldFamily_ideal text o)

end ContractScan
