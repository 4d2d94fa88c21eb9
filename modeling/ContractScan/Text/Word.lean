import ContractScan.Text.WordTable

/-
  Word characters and word boundaries, as the `\b` of a Unicode pattern sees them.
-/

namespace ContractScan.Text

/-- Whether a character is part of a word: letters, marks, digits and connectors. -/
def isWordChar (c : Char) : Bool := c.isAlphanum || c == '_' || wordRanges.holds c.toNat

/-- Whether a word that the text follows has ended: nothing comes, or no word character. -/
def wordEndsBefore : List Char → Bool
  | [] => true
  | c :: _ => !isWordChar c

end ContractScan.Text
