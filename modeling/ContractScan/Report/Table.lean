import ContractScan.Scan
import ContractScan.Text.Quoted

/-
  A table of tokens: one line per token with its place, its kind and its text. Places count from
  one and are padded to the widest of them; the text is quoted, so that no line breaks.
-/

namespace ContractScan.Report

/-- A text with blanks after it, up to a width. -/
def padTo (width : Nat) (s : String) : String :=
  s ++ String.ofList (List.replicate (width - s.length) ' ')

/-- The place of a token as people count: lines and columns from one. -/
def place (ix : LineIndex) (t : Token) : String :=
  let p := ix.position t.start
  s!"{p.line + 1}:{p.column + 1}"

/-- The width of the column of kinds. -/
def kindWidth : Nat := 13

/-- A line of the table. -/
def tableLine (width : Nat) (ix : LineIndex) (t : Token) : String :=
  padTo width (place ix t) ++ "  " ++ padTo kindWidth t.kind.name ++ "  " ++
    Text.Quoted.encode t.lexeme ++ "\n"

/-- The width of the widest place. -/
def placeWidth (ix : LineIndex) (ts : List Token) : Nat :=
  (ts.map fun t => (place ix t).length).foldl max 0

/-- The table of some tokens of a text. -/
def table (ix : LineIndex) (ts : List Token) : String :=
  String.join (ts.map (tableLine (placeWidth ix ts) ix))

theorem length_name_le_kindWidth (k : TokenKind) : k.name.length ≤ kindWidth := by
  cases k <;> decide

end ContractScan.Report
