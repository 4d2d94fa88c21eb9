import ContractScan.Scan

/-
  Highlights: the parts of a text that an editor colours, and the class that chooses the colour.
  White space and brackets have no colour, and errors are reported instead.
-/

namespace ContractScan.Editor

/-- The class of a highlight. -/
inductive HighlightKind where
  | keyword
  | identifier
  | number
  | string
  | comment
  | operator
deriving DecidableEq

namespace HighlightKind

/-- Every class, in the order of the legend. -/
def legend : List HighlightKind := [keyword, identifier, number, string, comment, operator]

/-- The name of a class among editors. -/
def name : HighlightKind → String
  | keyword => "keyword"
  | identifier => "variable"
  | number => "number"
  | string => "string"
  | comment => "comment"
  | operator => "operator"

/-- The class of a name. -/
def ofName? (s : String) : Option HighlightKind := legend.find? fun k => k.name = s

/-- The place of a class in the legend. -/
def index (k : HighlightKind) : Nat := legend.idxOf k

/-- The class of a kind of token, if it has a colour. -/
def ofTokenKind? : TokenKind → Option HighlightKind
  | .keyword => some keyword
  | .identifier => some identifier
  | .number | .numberFloat => some number
  | .string => some string
  | .comment => some comment
  | .operator => some operator
  | _ => none

theorem legend_getElem?_index (k : HighlightKind) : legend[k.index]? = some k := by
  cases k <;> decide

end HighlightKind

/-- A range of a text with its class. -/
structure Highlight where
  kind : HighlightKind
  range : Range

/-- The highlights of a scan, in the order of the text. -/
def Highlight.ofScan (s : Scan) : List Highlight :=
  s.tokens.filterMap fun t =>
    (HighlightKind.ofTokenKind? t.kind).map fun kind => ⟨kind, s.index.rangeOf t⟩

end ContractScan.Editor
