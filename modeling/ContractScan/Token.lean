/-
  Tokens: the classified pieces of a source text. A token knows its text and where it lies, both
  in characters and in bytes; the character where it ends follows from the two.
-/

namespace ContractScan

/-- The bytes from `start` up to `stop`. -/
structure Span where
  start : Nat
  stop : Nat
deriving DecidableEq

/-- What a token is. -/
inductive TokenKind where
  | keyword
  | identifier
  | number
  | numberFloat
  | string
  /-- A string literal that meets the end of its line before its closing quote. -/
  | invalidString
  | comment
  | bracket
  | operator
  /-- A run of operator characters that is no operator. -/
  | unrecognized
  /-- A character that starts no token. -/
  | invalid
  | whitespace
deriving DecidableEq

namespace TokenKind

/-- Every kind, in the order of the vocabulary. -/
def all : List TokenKind :=
  [keyword, identifier, number, numberFloat, string, invalidString, comment, bracket, operator,
    unrecognized, invalid, whitespace]

theorem mem_all (k : TokenKind) : k ∈ all := by cases k <;> decide

/-- The name of a kind in every report. -/
def name : TokenKind → String
  | keyword => "Keyword"
  | identifier => "Identifier"
  | number => "Number"
  | numberFloat => "NumberFloat"
  | string => "String"
  | invalidString => "InvalidString"
  | comment => "Comment"
  | bracket => "Bracket"
  | operator => "Operator"
  | unrecognized => "Unrecognized"
  | invalid => "Invalid"
  | whitespace => "Whitespace"

/-- The kind of a name. -/
def ofName? (s : String) : Option TokenKind := all.find? fun k => k.name = s

theorem ofName?_name (k : TokenKind) : ofName? k.name = some k := by cases k <;> decide

/-- The scope that a colour theme gives to a kind; an unrecognized run is plain text. -/
def scope : TokenKind → String
  | keyword => "keyword"
  | identifier => "identifier"
  | number => "number"
  | numberFloat => "number.float"
  | string => "string"
  | invalidString => "string.invalid"
  | comment => "comment"
  | bracket => "delimiter.bracket"
  | operator => "operator"
  | unrecognized => ""
  | invalid => "invalid"
  | whitespace => "white"

/-- Whether tokens of a kind are lexical errors. -/
def isError : TokenKind → Bool
  | invalidString | unrecognized | invalid => true
  | _ => false

end TokenKind

/-- A piece of source text with its kind, its first character and its bytes. -/
structure Token where
  kind : TokenKind
  lexeme : String
  start : Nat
  span : Span
deriving DecidableEq

namespace Token

/-- The character after the last one. -/
def stop (t : Token) : Nat := t.start + t.lexeme.length

/-- Whether a token separates others without a meaning of its own. -/
def isSignificant (t : Token) : Bool := t.kind ≠ .whitespace

/-- Whether a token is a comment that ends with its line. -/
def isLineComment (t : Token) : Bool :=
  t.kind = .comment && ['/', '/'].isPrefixOf t.lexeme.toList

/-- Whether a token is a comment between `/*` and `*/`. -/
def isBlockComment (t : Token) : Bool := t.kind = .comment && !t.isLineComment

theorem isBlockComment_iff {t : Token} :
    t.isBlockComment ↔ t.kind = .comment ∧ ¬ ['/', '/'] <+: t.lexeme.toList := by
  rw [isBlockComment, isLineComment, Bool.and_eq_true, decide_eq_true_eq, Bool.not_eq_true',
    Bool.and_eq_false_iff, decide_eq_false_iff_not, ← Bool.not_eq_true,
    List.isPrefixOf_iff_prefix]
  exact and_congr_right fun h => or_iff_right (not_not_intro h)

end Token

/-- The lexemes of a list of tokens one after another. -/
def detokenize (tokens : List Token) : String := String.join (tokens.map Token.lexeme)

end ContractScan
