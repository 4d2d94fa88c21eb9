/-
  Reading from the start of a text: the characters that were taken, and what follows them.
-/

namespace ContractScan.Text

/-- The characters that a reader took, and what follows them. -/
abbrev Taken := Option (List Char × List Char)

/-- Puts a character in front of what was taken. -/
def consChar (c : Char) (r : Taken) : Taken := r.map fun (cs, rest) => (c :: cs, rest)

/-- What follows a word at the start of a text. -/
def afterWord? (word : String) (cs : List Char) : Option (List Char) :=
  if word.toList.isPrefixOf cs then some (cs.drop word.length) else none

end ContractScan.Text
