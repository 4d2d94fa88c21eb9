import ContractScan.Proofs.Columns
import ContractScan.Scan

/-
  Scans that come to their end. A scan returns exactly if the columns of all lines fit, or if no
  folds by indentation are asked for, and what it returns is then the scan by the true columns
  (`Scan.ofText_eq`). `Scan.Yields` is this together with a property of what is returned. The
  results about scans have its form: it is enough to show them of the scan by the true columns
  (`Scan.Yields.of_ideal`).
-/

namespace ContractScan

/-- Whether the columns fit that the options ask for. -/
def LineIndex.FitsFor (ix : LineIndex) (o : ScanOptions) : Prop :=
  o.indentationFolding → ix.Fits o.tabSize

instance (ix : LineIndex) : DecidablePred ix.FitsFor := fun o =>
  inferInstanceAs (Decidable (o.indentationFolding → ix.Fits o.tabSize))

/-- Columns fit where the tab size times the number of characters does. -/
theorem LineIndex.fitsFor_of_lt {text : String} {o : ScanOptions}
    (h : max o.tabSize 1 * text.toList.length < 2 ^ 64) :
    (LineIndex.ofText text).FitsFor o := by
  intro _ l hl c hc
  have hline : (indentBlanks l).length ≤ text.toList.length := by
    rw [← flatten_splitLines text.toList]
    exact ((List.takeWhile_sublist _).trans (List.sublist_flatten_of_mem hl)).length_le
  have hmul := Nat.mul_le_mul_left (max o.tabSize 1) hline
  have hcolumn := le_of_mem_columnsOf hc
  omega

namespace Outline

/-- The folds that the options ask for, in order, by the columns of the lines. -/
def trueFoldsOf (ix : LineIndex) (o : ScanOptions) : List Fold :=
  Fold.sort
    ((if o.indentationFolding then trueFolds ix o.tabSize else []) ++
      (if o.regionFolding then regionFolds ix else []))

theorem foldsOf_eq (ix : LineIndex) (o : ScanOptions) :
    foldsOf ix o = if ix.FitsFor o then .ok (trueFoldsOf ix o) else .error .column := by
  rw [foldsOf, trueFoldsOf, indentationFolds_eq]
  cases hasks : o.indentationFolding with
  | false => simp [LineIndex.FitsFor, hasks]
  | true =>
    by_cases hfits : ix.Fits o.tabSize <;> simp [LineIndex.FitsFor, hasks, hfits]

end Outline

namespace Scan

/-- The scan of a text where columns have no end. -/
def ideal (text : String) (o : ScanOptions) : Scan :=
  let index := LineIndex.ofText text
  let tokens := tokenize text
  ⟨tokens, Outline.withFolds tokens index o (Outline.trueFoldsOf index o), index⟩

/-- A scan returns if the columns fit that it needs, and it is then as if columns had no end. -/
theorem ofText_eq (text : String) (o : ScanOptions) :
    ofText text o =
      if (LineIndex.ofText text).FitsFor o then .ok (ideal text o) else .error .column := by
  rw [ofText, Outline.ofTokens, Outline.foldsOf_eq]
  split <;> rfl

theorem ofText_of_fitsFor {text : String} {o : ScanOptions}
    (h : (LineIndex.ofText text).FitsFor o) : ofText text o = .ok (ideal text o) := by
  rw [ofText_eq, if_pos h]

theorem eq_ideal {text : String} {o : ScanOptions} {scan : Scan} (h : ofText text o = .ok scan) :
    scan = ideal text o := by
  rw [ofText_eq] at h
  split at h
  · exact (Except.ok.inj h).symm
  · cases h

/-- Whether the scan of a text returns exactly if its columns fit, and what it returns has a
property. -/
structure Yields (text : String) (o : ScanOptions) (p : Scan → Prop) : Prop where
  returns : (LineIndex.ofText text).FitsFor o → ∃ scan, ofText text o = .ok scan ∧ p scan
  stops : ¬ (LineIndex.ofText text).FitsFor o → ofText text o = .error .column

theorem Yields.of_ideal {text : String} {o : ScanOptions} {p : Scan → Prop}
    (h : p (ideal text o)) : Yields text o p where
  returns hfits := ⟨_, ofText_of_fitsFor hfits, h⟩
  stops hfits := by rw [ofText_eq, if_neg hfits]

end Scan

end ContractScan
