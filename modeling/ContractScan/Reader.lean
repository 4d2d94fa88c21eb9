import ContractScan.Tokenize

/-
  Reading tokens one at a time. A reader remembers where it is and in which mode: at the top
  level it looks for the start of a token, and a quote or the mark of a block comment takes it
  into a mode of its own until that token ends.
-/

namespace ContractScan

open ContractScan.Text (byteLength)

/-- What a reader is inside of. -/
inductive Mode where
  | root
  | blockComment
  | doubleQuote
  | singleQuote
deriving DecidableEq

namespace Mode

/-- The name of a mode in messages. -/
def name : Mode → String
  | root => "root"
  | blockComment => "block-comment"
  | doubleQuote => "double-quote-string"
  | singleQuote => "single-quote-string"

/-- The mode that the start of a text opens, with the mark that opens it. -/
def opened? : List Char → Option (Mode × List Char)
  | '"' :: _ => some (doubleQuote, ['"'])
  | '\'' :: _ => some (singleQuote, ['\''])
  | '/' :: '*' :: _ => some (blockComment, ['/', '*'])
  | _ => none

/-- The rest of a token in a mode, and its kind. At the top level that is a whole token. -/
def rest : Mode → List Char → Lexeme
  | root, [] => ⟨.whitespace, []⟩
  | root, c :: r => Lexeme.first c r
  | blockComment, cs => ⟨.comment, Lexeme.blockBody cs⟩
  | doubleQuote, cs => literalRest '"' cs
  | singleQuote, cs => literalRest '\'' cs
where
  literalRest (quote : Char) (cs : List Char) : Lexeme :=
    let body := Lexeme.literalBody quote cs
    ⟨if body.closed then .string else .invalidString, body.chars⟩

end Mode

/-- A place in a text: the mode, the mark that led into it, what is still to be read, and the
characters and bytes in front of the mark. -/
structure Reader where
  mode : Mode
  mark : List Char
  ahead : List Char
  start : Nat
  byte : Nat

namespace Reader

/-- A reader at the start of a text. -/
def ofText (text : String) : Reader := ⟨.root, [], text.toList, 0, 0⟩

/-- The byte of the next character to be read. -/
def offset (s : Reader) : Nat := s.byte + byteLength s.mark

/-- Goes into the mode that the text ahead opens. -/
def enter (s : Reader) : Reader :=
  match s.mode, Mode.opened? s.ahead with
  | .root, some (mode, mark) =>
    { s with mode := mode, mark := mark, ahead := s.ahead.drop mark.length }
  | _, _ => s

/-- Reads the token to its end and goes back to the top level. -/
def finish (s : Reader) : Token × Reader :=
  let body := s.mode.rest s.ahead
  let piece : Lexeme := ⟨body.kind, s.mark ++ body.chars⟩
  (piece.toToken s.start s.byte,
    ⟨.root, [], s.ahead.drop body.chars.length, s.start + piece.chars.length,
      s.byte + byteLength piece.chars⟩)

/-- The next token and the reader after it; nothing at the end of the text. -/
def next (s : Reader) : Option (Token × Reader) :=
  let inside := s.enter
  if inside.mark = [] ∧ inside.ahead = [] then none else some inside.finish

end Reader

/-- What can be seen of a reader that was asked for a token: the token, or nothing at the end of
the text, and then the mode and the offset. -/
structure Reading where
  token : Option Token
  mode : Mode
  offset : Nat

namespace Reader

/-- Asks for the next token; at the end of the text the reader stays. -/
def ask (s : Reader) : Reading × Reader :=
  match s.next with
  | some (t, s') => (⟨some t, s'.mode, s'.offset⟩, s')
  | none => (⟨none, s.mode, s.offset⟩, s)

/-- What can be seen when a reader is asked `n` times. -/
def readings : Nat → Reader → List Reading
  | 0, _ => []
  | n + 1, s => s.ask.1 :: readings n s.ask.2

end Reader

/-- A reader that goes from one mode to another. -/
structure ModeChange where
  before : Mode
  after : Mode
  offset : Nat

/-- The mode changes that reading a token takes: none, or one into its mode and one back. -/
def Token.modeChanges (t : Token) : List ModeChange :=
  match Mode.opened? t.lexeme.toList with
  | none => []
  | some (mode, mark) =>
    [⟨.root, mode, t.span.start + byteLength mark⟩, ⟨mode, .root, t.span.stop⟩]

end ContractScan
