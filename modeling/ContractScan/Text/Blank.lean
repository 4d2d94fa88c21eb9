/-
  Blank characters: the White_Space property of Unicode. Line breaks are blank; the zero-width
  space, the word joiner and the byte order mark are not.
-/

namespace ContractScan.Text

/-- Whether a character is white space. -/
def isBlank (c : Char) : Bool :=
  let n := c.toNat
  (0x09 ≤ n && n ≤ 0x0D) || n == 0x20 || n == 0x85 || n == 0xA0 || n == 0x1680 ||
    (0x2000 ≤ n && n ≤ 0x200A) || n == 0x2028 || n == 0x2029 || n == 0x202F || n == 0x205F ||
    n == 0x3000

/-- Whether a character ends a line: a line feed or a carriage return. -/
def isLineBreak (c : Char) : Bool := c == '\n' || c == '\r'

theorem isLineBreak_iff {c : Char} : isLineBreak c ↔ c = '\n' ∨ c = '\r' := by
  simp only [isLineBreak, Bool.or_eq_true, beq_iff_eq]

theorem isBlank_of_isLineBreak {c : Char} (h : isLineBreak c) : isBlank c := by
  rcases isLineBreak_iff.mp h with h | h <;> subst h <;> decide

/-- The text without the blanks at its start. -/
def trimStart (cs : List Char) : List Char := cs.dropWhile isBlank

/-- The text without the blanks at its end. -/
def trimEnd (cs : List Char) : List Char := (cs.reverse.dropWhile isBlank).reverse

/-- The text without the blanks around it. -/
def trim (cs : List Char) : List Char := trimEnd (trimStart cs)

end ContractScan.Text
