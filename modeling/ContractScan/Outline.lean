import ContractScan.Diagnostic.Brackets
import ContractScan.Fold.Indentation
import ContractScan.Fold.Region

/-
  The outline of a text: its brackets, its folds, and what is wrong with either.
-/

namespace ContractScan

/-- What an outline is to contain. -/
structure ScanOptions where
  tabSize : Nat
  indentationFolding : Bool
  regionFolding : Bool
deriving DecidableEq

/-- Tabs of four columns, and both kinds of folds. -/
def ScanOptions.standard : ScanOptions := ⟨4, true, true⟩

/-- Brackets, closers astray, folds, and the findings about them. -/
structure Outline where
  brackets : List BracketPair
  strayClosers : List Token
  folds : List Fold
  diagnostics : List Diagnostic
deriving DecidableEq

namespace Outline

/-- The folds that the options ask for, in order. -/
def foldsOf (ix : LineIndex) (o : ScanOptions) : Except Overflow (List Fold) := do
  let blocks ← if o.indentationFolding then indentationFolds ix o.tabSize else .ok []
  return Fold.sort (blocks ++ if o.regionFolding then regionFolds ix else [])

/-- The outline of a list of tokens over a text with these folds. -/
def withFolds (tokens : List Token) (ix : LineIndex) (o : ScanOptions) (folds : List Fold) :
    Outline :=
  let m := Matching.ofTokens tokens
  { brackets := m.pairs
    strayClosers := m.strays.map StrayCloser.closer
    folds := folds
    diagnostics := Diagnostic.sort
      (Diagnostic.brackets m ix ++ (if o.regionFolding then Diagnostic.regions ix else [])) }

/-- The outline of a list of tokens over a text. -/
def ofTokens (tokens : List Token) (ix : LineIndex) (o : ScanOptions) :
    Except Overflow Outline := do
  return withFolds tokens ix o (← foldsOf ix o)

/-- The pairs with both their brackets. -/
def matchedPairs (s : Outline) : List BracketPair := s.brackets.filter BracketPair.isMatched

/-- The openers that nothing closes. -/
def unmatchedOpeners (s : Outline) : List BracketPair :=
  s.brackets.filter fun p => !p.isMatched

/-- The number of brackets without a partner. -/
def unmatchedCount (s : Outline) : Nat := s.unmatchedOpeners.length + s.strayClosers.length

/-- The folds of a kind. -/
def foldsOfKind (s : Outline) (kind : FoldKind) : List Fold := s.folds.filter fun f => f.kind = kind

end Outline

end ContractScan
