import ContractScan.Text.Digits
import ContractScan.Text.Taken

/-
  The four kinds of TOML strings: basic and literal, on one line or over several. Each reader
  takes the text after the opening mark and gives back the characters of the string and what
  follows its closing mark.
-/

namespace ContractScan.Toml

open ContractScan.Text (Taken consChar fourHex?)

/-- Whether a character may stand in a string or a comment: a tab, or no control character. -/
def isPlain (c : Char) : Bool := c == '\t' || (0x20 ≤ c.toNat && c.toNat ≠ 0x7F)

/-- Whether a character is a blank inside a line. -/
def isSpace (c : Char) : Bool := c == ' ' || c == '\t'

/-- The character of a code point, if it is one. -/
def scalar? (n : Nat) : Option Char := if h : n.isValidChar then some (Char.ofNatAux n h) else none

/-- The character of an escape with four digits. -/
def shortScalar? (a b c d : Char) : Option Char := (fourHex? a b c d).bind scalar?

/-- The character of an escape with eight digits. -/
def longScalar? (a b c d e f g h : Char) : Option Char := do
  let high ← fourHex? a b c d
  let low ← fourHex? e f g h
  scalar? (high * 0x10000 + low)

/-- The character that a short escape stands for. -/
def escape? (c : Char) : Option Char :=
  match c with
  | 'b' => some '\x08'
  | 't' => some '\t'
  | 'n' => some '\n'
  | 'f' => some '\x0c'
  | 'r' => some '\r'
  | '"' => some '"'
  | '\\' => some '\\'
  | _ => none

/-- A basic string on one line. -/
def basic : List Char → Taken
  | [] => none
  | '"' :: rest => some ([], rest)
  | '\\' :: 'u' :: a :: b :: c :: d :: rest =>
    (shortScalar? a b c d).bind fun x => consChar x (basic rest)
  | '\\' :: 'U' :: a :: b :: c :: d :: e :: f :: g :: h :: rest =>
    (longScalar? a b c d e f g h).bind fun x => consChar x (basic rest)
  | '\\' :: c :: rest => (escape? c).bind fun x => consChar x (basic rest)
  | c :: rest => if isPlain c && c != '\\' then consChar c (basic rest) else none

/-- A literal string on one line. -/
def literal : List Char → Taken
  | [] => none
  | '\'' :: rest => some ([], rest)
  | c :: rest => if isPlain c then consChar c (literal rest) else none

/-- A text without one line break at its start. -/
def dropNewline : List Char → List Char
  | '\n' :: r => r
  | '\r' :: '\n' :: r => r
  | cs => cs

/-- Where the reader of a basic string over several lines is: in its text, after a backslash
that must end its line, or in the blanks after such a line. -/
inductive LineJoin where
  | text
  | awaitBreak
  | skip
deriving DecidableEq

/-- A basic string over several lines. A backslash at the end of a line takes away all blanks
and line breaks up to the next character. -/
def basicLines : LineJoin → List Char → Taken
  | _, [] => none
  | .awaitBreak, '\n' :: r => basicLines .skip r
  | .awaitBreak, '\r' :: '\n' :: r => basicLines .skip r
  | .awaitBreak, c :: r => if isSpace c then basicLines .awaitBreak r else none
  | .skip, '\n' :: r => basicLines .skip r
  | .skip, '\r' :: '\n' :: r => basicLines .skip r
  | .skip, ' ' :: r => basicLines .skip r
  | .skip, '\t' :: r => basicLines .skip r
  | _, '"' :: '"' :: '"' :: '"' :: '"' :: r => some (['"', '"'], r)
  | _, '"' :: '"' :: '"' :: '"' :: r => some (['"'], r)
  | _, '"' :: '"' :: '"' :: r => some ([], r)
  | _, '\r' :: '\n' :: r => consChar '\n' (basicLines .text r)
  | _, '\\' :: '\n' :: r => basicLines .skip r
  | _, '\\' :: '\r' :: '\n' :: r => basicLines .skip r
  | _, '\\' :: ' ' :: r => basicLines .awaitBreak r
  | _, '\\' :: '\t' :: r => basicLines .awaitBreak r
  | _, '\\' :: 'u' :: a :: b :: c :: d :: r =>
    (shortScalar? a b c d).bind fun x => consChar x (basicLines .text r)
  | _, '\\' :: 'U' :: a :: b :: c :: d :: e :: f :: g :: h :: r =>
    (longScalar? a b c d e f g h).bind fun x => consChar x (basicLines .text r)
  | _, '\\' :: c :: r => (escape? c).bind fun x => consChar x (basicLines .text r)
  | _, c :: r =>
    if c == '\n' || (isPlain c && c != '\\') then consChar c (basicLines .text r) else none

/-- A literal string over several lines. -/
def literalLines : List Char → Taken
  | [] => none
  | '\'' :: '\'' :: '\'' :: '\'' :: '\'' :: r => some (['\'', '\''], r)
  | '\'' :: '\'' :: '\'' :: '\'' :: r => some (['\''], r)
  | '\'' :: '\'' :: '\'' :: r => some ([], r)
  | '\r' :: '\n' :: r => consChar '\n' (literalLines r)
  | c :: r => if c == '\n' || isPlain c then consChar c (literalLines r) else none

/-- The string at the start of a text, of any kind. -/
def anyString : List Char → Taken
  | '"' :: '"' :: '"' :: r => basicLines .text (dropNewline r)
  | '\'' :: '\'' :: '\'' :: r => literalLines (dropNewline r)
  | '"' :: r => basic r
  | '\'' :: r => literal r
  | _ => none

end ContractScan.Toml
