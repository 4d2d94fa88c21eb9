import ContractScan.Position
import ContractScan.Text.Blank
import ContractScan.Text.Units

/-
  The lines of a text. A line feed, a carriage return, or the two in this order end a line, and
  the break belongs to the line that it ends. The last line has no break, so a text that ends
  in a break has an empty last line. Main statements: the lines put together are the text, and
  there is always one.
-/

namespace ContractScan

open ContractScan.Text (isLineBreak byteLength)

/-- Puts a character in front of the first line. -/
def consFirst (c : Char) : List (List Char) → List (List Char)
  | [] => [[c]]
  | l :: ls => (c :: l) :: ls

/-- The lines of a text, each with its break. -/
def splitLines : List Char → List (List Char)
  | [] => [[]]
  | '\r' :: '\n' :: r => ['\r', '\n'] :: splitLines r
  | c :: r => if isLineBreak c then [c] :: splitLines r else consFirst c (splitLines r)

theorem flatten_consFirst (c : Char) (ls : List (List Char)) :
    (consFirst c ls).flatten = c :: ls.flatten := by
  cases ls <;> simp [consFirst]

theorem flatten_splitLines (cs : List Char) : (splitLines cs).flatten = cs := by
  fun_induction splitLines cs with
  | case1 => rfl
  | case2 r ih => simp [ih]
  | case3 c r _ _ ih => simp [ih]
  | case4 c r _ _ ih => rw [flatten_consFirst, ih]

theorem consFirst_ne_nil (c : Char) (ls : List (List Char)) : consFirst c ls ≠ [] := by
  cases ls <;> simp [consFirst]

theorem splitLines_ne_nil (cs : List Char) : splitLines cs ≠ [] := by
  fun_induction splitLines cs with
  | case1 => simp
  | case2 => simp
  | case3 => simp
  | case4 => exact consFirst_ne_nil _ _

/-- A text cut into its lines, to look up where a character lies. -/
structure LineIndex where
  lines : List (List Char)

namespace LineIndex

/-- The index of a text. -/
def ofText (text : String) : LineIndex := ⟨splitLines text.toList⟩

/-- The text of an index. -/
def text (ix : LineIndex) : List Char := ix.lines.flatten

/-- The number of lines; a text without characters has one. -/
def lineCount (ix : LineIndex) : Nat := ix.lines.length

/-- What comes before a line. -/
def above (ix : LineIndex) (line : Nat) : List Char := (ix.lines.take line).flatten

/-- The characters before a line. -/
def charStart (ix : LineIndex) (line : Nat) : Nat := (ix.above line).length

/-- The bytes before a line. -/
def byteStart (ix : LineIndex) (line : Nat) : Nat := byteLength (ix.above line)

/-- The first character of a line, if there is such a line. -/
def charStart? (ix : LineIndex) (line : Nat) : Option Nat :=
  if line < ix.lineCount then some (ix.charStart line) else none

/-- The first byte of a line, if there is such a line. -/
def byteStart? (ix : LineIndex) (line : Nat) : Option Nat :=
  if line < ix.lineCount then some (ix.byteStart line) else none

/-- The bytes of a line with its break, if there is such a line. -/
def span? (ix : LineIndex) (line : Nat) : Option Span :=
  if line < ix.lineCount then some ⟨ix.byteStart line, ix.byteStart (line + 1)⟩ else none

/-- The characters of a line with its break; none past the last line. -/
def lineText (ix : LineIndex) (line : Nat) : List Char := ix.lines[line]?.getD []

/-- Where a character lies in a list of lines; the end of the last line if it is past it. -/
def locate : List (List Char) → Nat → Position
  | [], _ => ⟨0, 0⟩
  | [l], c => ⟨0, min c l.length⟩
  | l :: ls, c => if c < l.length then ⟨0, c⟩ else (locate ls (c - l.length)).down 1

/-- The position of a character; the end of the text for all characters past it. -/
def position (ix : LineIndex) (c : Nat) : Position := locate ix.lines c

/-- The line of a character; the last line for all characters past the end. -/
def lineOf (ix : LineIndex) (c : Nat) : Nat := (ix.position c).line

/-- The range of a token. -/
def rangeOf (ix : LineIndex) (t : Token) : Range :=
  ⟨t.span, ix.position t.start, ix.position t.stop⟩

end LineIndex

end ContractScan
