import ContractScan.Proofs.Findings
import ContractScan.Proofs.IndentedBlocks
import ContractScan.Proofs.RegionFolds

/-
  What the options of a scan decide. Two scans of one text differ in nothing but the folds and the
  findings that the options leave out, and in the folds by indentation, which alone know the size
  of a tab (`options_exact`).

  Leaving out commutes with sorting, for folds because their order leaves one way to line them up
  (`Fold.filter_sort`), and for findings because no two of them start at the same place
  (`Diagnostic.filter_sort`). So it is enough to compare what is collected before it is sorted.
-/

namespace ContractScan

/-! ## Filters and sorts -/

theorem Fold.filter_sort (p : Fold → Bool) (fs : List Fold) :
    (sort fs).filter p = sort (fs.filter p) := by
  have hperm : ((sort fs).filter p).Perm (sort (fs.filter p)) :=
    ((sort_perm fs).filter p).trans (sort_perm _).symm
  exact hperm.eq_of_pairwise (fun _ _ _ _ => inOrder_antisymm)
    ((pairwise_inOrder_sort fs).filter p) (pairwise_inOrder_sort _)

theorem Diagnostic.filter_sort (p : Diagnostic → Bool) {ds : List Diagnostic}
    (h : ds.Pairwise fun a b => a.range.start ≠ b.range.start) :
    (sort ds).filter p = sort (ds.filter p) := by
  have hperm : ((sort ds).filter p).Perm (sort (ds.filter p)) :=
    ((sort_perm ds).filter p).trans (sort_perm _).symm
  exact Position.eq_of_perm_of_before hperm ((pairwise_startsBefore_sort h).filter p)
    (pairwise_startsBefore_sort (h.filter p))

/-! ## What options leave out -/

namespace ScanOptions

/-- The same tabs, and all folds. -/
def withAllFolds (o : ScanOptions) : ScanOptions :=
  { o with indentationFolding := true, regionFolding := true }

/-- Whether the options ask for the folds of a kind. -/
def asksForFolds (o : ScanOptions) : FoldKind → Bool
  | .indentation => o.indentationFolding
  | .regionMarker => o.regionFolding

/-- Whether the options ask for the findings of a kind. -/
def asksForFindings (o : ScanOptions) : DiagnosticKind → Bool
  | .unterminatedRegion | .unmatchedEndRegion => o.regionFolding
  | _ => true

end ScanOptions

/-- A scan without its folds by indentation. -/
def Scan.withoutBlocks (s : Scan) : Scan :=
  { s with outline := { s.outline with
      folds := s.outline.folds.filter fun f => f.kind ≠ .indentation } }

/-- The folds of two kinds, where a filter looks at nothing but the kind. -/
theorem filter_trueFoldsOf (p : FoldKind → Bool) (ix : LineIndex) (o : ScanOptions) :
    (Outline.trueFoldsOf ix o).filter (fun f => p f.kind) =
      Outline.trueFoldsOf ix ⟨o.tabSize, o.indentationFolding && p .indentation,
        o.regionFolding && p .regionMarker⟩ := by
  have hfilter {fs : List Fold} {k : FoldKind} (h : ∀ f ∈ fs, f.kind = k) (b : Bool) :
      (if b then fs else []).filter (fun f => p f.kind) = if b && p k then fs else [] := by
    have hall : fs.filter (fun f => p f.kind) = fs.filter fun _ => p k :=
      List.filter_congr fun f hf => by rw [h f hf]
    cases b <;> cases hp : p k <;> simp [hall, hp]
  rw [Outline.trueFoldsOf, Fold.filter_sort, List.filter_append,
    hfilter (fun f hf => (mem_trueFolds.mp hf).1) o.indentationFolding,
    hfilter (fun f hf => (mem_regionFolds.mp hf).1) o.regionFolding]
  rfl

/-- Of the findings about the structure, those about region markers are left out. -/
theorem filter_structuralFindings (text : String) (o : ScanOptions) :
    (structuralFindings text o.withAllFolds).filter (fun d => o.asksForFindings d.kind) =
      structuralFindings text o := by
  have hstrays (ss : List StrayCloser) : (ss.map (Diagnostic.ofStray (.ofText text))).filter
      (fun d => o.asksForFindings d.kind) = ss.map (Diagnostic.ofStray (.ofText text)) := by
    rw [List.filter_eq_self, List.forall_mem_map]
    exact fun s _ => rfl
  have hopeners (ps : List BracketPair) : (ps.map (Diagnostic.ofOpen (.ofText text))).filter
      (fun d => o.asksForFindings d.kind) = ps.map (Diagnostic.ofOpen (.ofText text)) := by
    rw [List.filter_eq_self, List.forall_mem_map]
    exact fun p _ => rfl
  have hregions : (Diagnostic.regions (.ofText text)).filter
      (fun d => o.asksForFindings d.kind) =
        if o.regionFolding then Diagnostic.regions (.ofText text) else [] := by
    have hkind : ∀ d ∈ Diagnostic.regions (.ofText text),
        o.asksForFindings d.kind = o.regionFolding := by
      intro d hd
      rcases List.mem_append.mp hd with hd | hd
      · obtain ⟨n, -, rfl⟩ := List.mem_map.mp hd
        rfl
      · obtain ⟨n, -, rfl⟩ := List.mem_map.mp hd
        rfl
    rw [List.filter_congr hkind]
    cases o.regionFolding <;> simp
  rw [structuralFindings, List.filter_append, List.filter_append, hstrays, hopeners]
  exact congrArg _ hregions

/-! ## The size of a tab -/

/-- The folds that are no blocks do not know the size of a tab. -/
theorem filter_trueFoldsOf_tabSize (ix : LineIndex) (o : ScanOptions) (tab : Nat) :
    (Outline.trueFoldsOf ix { o with tabSize := tab }).filter (fun f => f.kind ≠ .indentation) =
      (Outline.trueFoldsOf ix o).filter fun f => f.kind ≠ .indentation := by
  have hnone : decide (FoldKind.indentation ≠ .indentation) = false := by decide
  rw [filter_trueFoldsOf fun k => k ≠ .indentation, filter_trueFoldsOf fun k => k ≠ .indentation,
    hnone, Bool.and_false]
  rfl

/-- **Options.** Whatever the options are, a text has the same tokens, lines, pairs of brackets and
    closers astray. Of the folds and findings that there can be, the options leave out those of
    the kinds that they do not ask for, and keep the others in order. The size of a tab matters to
    the folds by indentation alone, and a size of zero counts as one. -/
theorem options_exact (text : String) (o : ScanOptions) :
    (Scan.Yields text o fun scan =>
      (∀ o', Scan.Yields text o' fun scan' =>
        scan'.tokens = scan.tokens ∧ scan'.index = scan.index ∧
        scan'.outline.brackets = scan.outline.brackets ∧
        scan'.outline.strayClosers = scan.outline.strayClosers) ∧
      ∀ tab, Scan.Yields text { o with tabSize := tab } fun scan' =>
        scan'.withoutBlocks = scan.withoutBlocks) ∧
    (Scan.Yields text o.withAllFolds fun full => ∃ scan, Scan.ofText text o = .ok scan ∧
      scan.outline.folds = full.outline.folds.filter (fun f => o.asksForFolds f.kind) ∧
      scan.outline.diagnostics =
        full.outline.diagnostics.filter fun d => o.asksForFindings d.kind) ∧
    Scan.ofText text { o with tabSize := 0 } = Scan.ofText text { o with tabSize := 1 } := by
  refine ⟨.of_ideal ⟨fun o' => .of_ideal ⟨rfl, rfl, rfl, rfl⟩, fun tab => .of_ideal ?tab⟩,
    ⟨fun hfits => ?full, fun hfits => ?stops⟩, ?zero⟩
  case tab =>
    have hfolds := filter_trueFoldsOf_tabSize (LineIndex.ofText text) o tab
    unfold Scan.withoutBlocks Scan.ideal Outline.withFolds
    simp only [hfolds]
  case full =>
    refine ⟨_, Scan.ofText_of_fitsFor hfits, _, Scan.ofText_of_fitsFor fun _ => hfits rfl,
      (filter_trueFoldsOf o.asksForFolds _ o.withAllFolds).symm, ?_⟩
    have hne : (structuralFindings text o.withAllFolds).Pairwise
        fun a b => a.range.start ≠ b.range.start :=
      (pairwise_start_ne_findings text o.withAllFolds).sublist (List.sublist_append_right _ _)
    rw [outline_diagnostics_eq_sort, outline_diagnostics_eq_sort, Diagnostic.filter_sort _ hne,
      filter_structuralFindings]
  case stops => rw [Scan.ofText_eq, if_neg hfits]
  case zero =>
    rw [Scan.ofText_eq, Scan.ofText_eq]
    rfl

end ContractScan
