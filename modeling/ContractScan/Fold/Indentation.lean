import ContractScan.Fold
import ContractScan.Lines

/-
  Folds by indentation. A line folds when the next line with content is indented deeper; its
  fold ends with the last line with content before the indentation comes back to its own column
  or less. Blank lines neither end a fold nor belong to its end. Columns have 64 bits, and there
  are no folds where a line leads to a column that does not fit.
-/

namespace ContractScan

open ContractScan.Text (isBlank isLineBreak)

/-- Why work stops without a result: a number that outgrew its bits. -/
inductive Overflow where
  | column
deriving DecidableEq

/-- What a program says where it stops. -/
def Overflow.message : Overflow → String
  | column => "attempt to add with overflow"

/-- What columns of 64 bits stay below. -/
def columnLimit : Nat := 0x10000000000000000

/-- The column so many places behind another, if it fits. -/
def columnAfter (column places : Nat) : Except Overflow Nat :=
  if column + places < columnLimit then .ok (column + places) else .error .column

/-- The places from a column to the next multiple of the tab size. -/
def placesToTabStop (tab column : Nat) : Nat := tab - column % tab

/-- The column of the first character with content, where a line starts at a column. -/
def columnFrom (tab : Nat) : Nat → List Char → Except Overflow (Option Nat)
  | _, [] => .ok none
  | column, c :: r =>
    if c = '\t' then do columnFrom tab (← columnAfter column (placesToTabStop tab column)) r
    else if isLineBreak c then .ok none
    else if isBlank c then do columnFrom tab (← columnAfter column 1) r
    else .ok (some column)

/-- The indentation of a line; nothing if the line is blank. A tab size of zero counts as one. -/
def indentationOf (tab : Nat) (line : List Char) : Except Overflow (Option Nat) :=
  columnFrom (max tab 1) 0 line

/-- A line with content and its indentation. -/
structure ContentLine where
  line : Nat
  column : Nat

/-- The lines with content, counted from a number on. -/
def contentLinesFrom (tab : Nat) : Nat → List (List Char) → Except Overflow (List ContentLine)
  | _, [] => .ok []
  | n, l :: ls => do
    let column ← indentationOf tab l
    let below ← contentLinesFrom tab (n + 1) ls
    return (column.map (ContentLine.mk n)).toList ++ below

/-- The lines with content that lie deeper, up to the first that does not. -/
def deeperLines (column : Nat) (ls : List ContentLine) : List ContentLine :=
  ls.takeWhile fun l => column < l.column

/-- The folds of a list of lines with content. -/
def foldsOfContent : List ContentLine → List Fold
  | [] => []
  | l :: ls =>
    match (deeperLines l.column ls).getLast? with
    | some last => ⟨l.line, last.line, .indentation⟩ :: foldsOfContent ls
    | none => foldsOfContent ls

/-- The folds by indentation, by first line. -/
def indentationFolds (ix : LineIndex) (tab : Nat) : Except Overflow (List Fold) := do
  return foldsOfContent (← contentLinesFrom tab 0 ix.lines)

end ContractScan
