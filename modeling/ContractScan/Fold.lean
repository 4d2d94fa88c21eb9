/-
  Folds: runs of lines that an editor can hide behind their first line.
-/

namespace ContractScan

/-- What makes a run of lines a fold. -/
inductive FoldKind where
  | indentation
  | regionMarker
deriving DecidableEq

namespace FoldKind

/-- The name of a kind in structured output. -/
def name : FoldKind → String
  | indentation => "Indentation"
  | regionMarker => "RegionMarker"

/-- The place of a kind among the kinds. -/
def rank : FoldKind → Nat
  | indentation => 0
  | regionMarker => 1

end FoldKind

/-- The lines from `startLine` to `endLine`, both counted from zero and both in the fold. -/
structure Fold where
  startLine : Nat
  endLine : Nat
  kind : FoldKind
deriving DecidableEq

namespace Fold

/-- Whether a fold may stand in front of another: by first line, then last line, then kind. -/
def inOrder (a b : Fold) : Bool :=
  a.startLine < b.startLine ||
    (a.startLine == b.startLine &&
      (a.endLine < b.endLine || (a.endLine == b.endLine && decide (a.kind.rank ≤ b.kind.rank))))

/-- Folds in order. -/
def sort (fs : List Fold) : List Fold := fs.mergeSort inOrder

theorem sort_perm (fs : List Fold) : (sort fs).Perm fs := List.mergeSort_perm fs inOrder

end Fold

end ContractScan
