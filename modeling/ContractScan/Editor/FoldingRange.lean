import ContractScan.Editor.Wire

/-
  The folds of a text as an editor shows them: the folds of the outline and the block comments
  over several lines. Of ranges with the same lines the first stands for all, and a comment
  comes first. Lines go out as numbers of 32 bits.
-/

namespace ContractScan.Editor

/-- What a folding range holds. -/
inductive RangeKind where
  | comment
  | imports
  | region
deriving DecidableEq

namespace RangeKind

/-- Every kind. -/
def all : List RangeKind := [comment, imports, region]

/-- The name of a kind among editors. -/
def name : RangeKind → String
  | comment => "comment"
  | imports => "imports"
  | region => "region"

/-- The kind of a name. -/
def ofName? (s : String) : Option RangeKind := all.find? fun k => k.name = s

/-- The kind of a fold of the outline; a fold by indentation has none. -/
def ofFoldKind? : FoldKind → Option RangeKind
  | .indentation => none
  | .regionMarker => some region

end RangeKind

/-- Lines that fold together, and what they hold. -/
structure FoldingRange where
  startLine : Nat
  endLine : Nat
  kind : Option RangeKind
deriving DecidableEq

namespace FoldingRange

/-- The range of a fold of the outline. -/
def ofFold (f : Fold) : FoldingRange :=
  ⟨word f.startLine, word f.endLine, RangeKind.ofFoldKind? f.kind⟩

/-- The range of a block comment over several lines. -/
def ofComment? (ix : LineIndex) (t : Token) : Option FoldingRange :=
  let first := ix.lineOf t.start
  let last := ix.lineOf (t.stop - 1)
  if first < last then some ⟨word first, word last, some .comment⟩ else none

/-- Whether two ranges have the same lines. -/
def sameLines (a b : FoldingRange) : Bool :=
  a.startLine == b.startLine && a.endLine == b.endLine

/-- Whether a range may stand in front of another: by first line, then by last line. -/
def inOrder (a b : FoldingRange) : Bool :=
  a.startLine < b.startLine || (a.startLine == b.startLine && decide (a.endLine ≤ b.endLine))

/-- Ranges without those that follow one with the same lines. -/
def keepFirst : List FoldingRange → List FoldingRange
  | [] => []
  | r :: rs =>
    match keepFirst rs with
    | [] => [r]
    | s :: rest => if r.sameLines s then r :: rest else r :: s :: rest

end FoldingRange

/-- The block comments of a scan that fold. -/
def commentRanges (s : Scan) : List FoldingRange :=
  (s.tokens.filter Token.isBlockComment).filterMap (FoldingRange.ofComment? s.index)

/-- The folding ranges of a scan, by first and last line. -/
def FoldingRange.ofScan (s : Scan) : List FoldingRange :=
  keepFirst
    ((commentRanges s ++ s.outline.folds.map ofFold).mergeSort inOrder)

end ContractScan.Editor
