import ContractScan.Token

/-
  The words and operators that the language reserves, and the kind that a finished piece of
  text gets from them.
-/

namespace ContractScan.Vocabulary

/-- The version of the two tables below. -/
def version : Nat := 1

/-- Reserved words; upper and lower case differ. -/
def keywords : List String :=
  ["contract", "state", "function", "view", "constructor", "returns", "internal", "event",
    "struct", "enum", "let", "require", "assert", "revert", "emit", "self", "true", "false",
    "if", "else", "for", "while", "foreach", "in", "try", "catch"]

/-- Operators. -/
def operators : List String :=
  ["=", ">", "<", "!", "~", "?", ":", "==", "<=", ">=", "!=", "&&", "||", "++", "--", "+", "-",
    "*", "/", "&", "|", "^", "%", "<<", ">>", ">>>", "+=", "-=", "*=", "/=", "&=", "|=", "^=",
    "%=", "<<=", ">>=", ">>>="]

/-- Whether a text is a reserved word. -/
def isKeyword (s : String) : Bool := keywords.contains s

/-- Whether a text is an operator. -/
def isOperator (s : String) : Bool := operators.contains s

/-- The characters that operators are made of. -/
def operatorChars : List Char :=
  ['=', '>', '<', '!', '~', '?', ':', '&', '|', '+', '-', '*', '/', '^', '%']

/-- Whether a character may stand in an operator. -/
def isOperatorChar (c : Char) : Bool := operatorChars.contains c

theorem operators_made_of_operatorChars :
    operators.all (fun s => s.toList.all isOperatorChar) := by decide

/-- The final kind of a text of the given kind: a reserved word is a keyword, and a run of
operator characters that is no operator is unrecognized. -/
def classify (s : String) : TokenKind → TokenKind
  | .identifier => if isKeyword s then .keyword else .identifier
  | .operator => if isOperator s then .operator else .unrecognized
  | kind => kind

end ContractScan.Vocabulary
