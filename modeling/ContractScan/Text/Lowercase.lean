import ContractScan.Text.LowercaseTable

/-
  The lower case of a text by the simple case mapping of Unicode. The capital I with a dot is
  the one letter whose lower case has two characters.
-/

namespace ContractScan.Text

/-- How far the lower-case letter of a code point lies. -/
def caseShift : List CaseRun → Nat → Int
  | [], _ => 0
  | (lo, hi, step, shift) :: rest, n =>
    if n < lo then 0
    else if n ≤ hi ∧ (n - lo) % step = 0 then shift
    else caseShift rest n

/-- The lower case of one character. -/
def lowerChar (c : Char) : List Char :=
  if c.toNat < 0x80 then [c.toLower]
  else if c.toNat = 0x130 then ['i', '\u0307']
  else [Char.ofNat (c.toNat + caseShift lowercaseRuns c.toNat).toNat]

/-- The lower case of a text. -/
def lowercase (s : String) : String := String.ofList (s.toList.flatMap lowerChar)

end ContractScan.Text
