import ContractScan.Bracket

/-
  What an editor needs to know of the language without scanning: its name, its comments, and the
  pairs of characters that it closes and surrounds with.
-/

namespace ContractScan

/-- A text and the text that closes it. -/
structure CharacterPair where
  opener : String
  closer : String
deriving DecidableEq

/-- What an editor needs to know of a language. -/
structure Language where
  id : String
  extensions : List String
  lineComment : String
  blockComment : CharacterPair
  brackets : List CharacterPair
  autoClosing : List CharacterPair
  surrounding : List CharacterPair
  regionStart : String
  regionEnd : String

namespace Language

/-- The brackets as pairs. -/
def bracketPairs : List CharacterPair := BracketShape.all.map fun b => ⟨b.opener, b.closer⟩

/-- The brackets and the quotes as pairs. -/
def quotingPairs : List CharacterPair := bracketPairs ++ [⟨"\"", "\""⟩, ⟨"'", "'"⟩]

/-- The contract language. -/
def contract : Language where
  id := "grishex"
  extensions := ["grx"]
  lineComment := "//"
  blockComment := ⟨"/*", "*/"⟩
  brackets := bracketPairs
  autoClosing := quotingPairs
  surrounding := quotingPairs
  regionStart := "^//\\s*#?region\\b"
  regionEnd := "^//\\s*#?endregion\\b"

/-- What an editor puts after a text that was just typed, if it closes it by itself. -/
def autoClose? (l : Language) (opener : String) : Option String :=
  (l.autoClosing.find? fun p => p.opener = opener).map CharacterPair.closer

/-- The bracket that closes a bracket. -/
def closerOf? (opener : String) : Option String :=
  (BracketShape.ofOpener? opener).map BracketShape.closer

end Language

end ContractScan
