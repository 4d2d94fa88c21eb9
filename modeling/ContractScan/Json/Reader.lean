import ContractScan.Json
import ContractScan.Text.Digits
import ContractScan.Text.Taken

/-
  Reading JSON. The reader accepts the standard grammar and nothing else: no comments, no
  trailing commas, no leading zeros, no lone halves of surrogate pairs. Values nest at most 127
  levels deep.
-/

namespace ContractScan.Json

open ContractScan.Text (Taken consChar afterWord? fourHex? decimalValue)

/-- The blanks of JSON. -/
def isSpace (c : Char) : Bool := c == ' ' || c == '\t' || c == '\n' || c == '\r'

/-- A text without the blanks at its start. -/
def skipSpace (cs : List Char) : List Char := cs.dropWhile isSpace

/-- Whether a unit of UTF-16 is the first half of a pair. -/
def isHighHalf (n : Nat) : Bool := 0xD800 ≤ n && n < 0xDC00

/-- Whether a unit of UTF-16 is the second half of a pair. -/
def isLowHalf (n : Nat) : Bool := 0xDC00 ≤ n && n < 0xE000

/-- The character that a short escape stands for. -/
def shortEscape? (c : Char) : Option Char :=
  match c with
  | '"' => some '"'
  | '\\' => some '\\'
  | '/' => some '/'
  | 'b' => some '\x08'
  | 'f' => some '\x0c'
  | 'n' => some '\n'
  | 'r' => some '\r'
  | 't' => some '\t'
  | _ => none

/-- The characters of a string after its opening quote, and what follows its closing quote. -/
def stringBody : List Char → Taken
  | [] => none
  | '"' :: rest => some ([], rest)
  | '\\' :: 'u' :: a :: b :: c :: d :: '\\' :: 'u' :: e :: f :: g :: h :: rest =>
    match fourHex? a b c d with
    | none => none
    | some high =>
      if isHighHalf high then
        match fourHex? e f g h with
        | none => none
        | some low =>
          if isLowHalf low then
            let n := 0x10000 + (high - 0xD800) * 0x400 + (low - 0xDC00)
            consChar (Char.ofNat n) (stringBody rest)
          else none
      else if isLowHalf high then none
      else consChar (Char.ofNat high) (stringBody ('\\' :: 'u' :: e :: f :: g :: h :: rest))
  | '\\' :: 'u' :: a :: b :: c :: d :: rest =>
    match fourHex? a b c d with
    | none => none
    | some n =>
      if isHighHalf n || isLowHalf n then none else consChar (Char.ofNat n) (stringBody rest)
  | '\\' :: c :: rest =>
    match shortEscape? c with
    | none => none
    | some x => consChar x (stringBody rest)
  | c :: rest => if c.toNat < 0x20 || c == '\\' then none else consChar c (stringBody rest)

/-- The digits at the start of a text, and what follows them. -/
def splitDigits (cs : List Char) : List Char × List Char :=
  (cs.takeWhile Char.isDigit, cs.dropWhile Char.isDigit)

/-- The fraction at the start of a text: its digits, and what follows. -/
def fractionPart : List Char → Taken
  | '.' :: r =>
    match splitDigits r with
    | ([], _) => none
    | (ds, rest) => some (ds, rest)
  | cs => some ([], cs)

/-- The sign at the start of a text, whether it is a minus, and what follows. -/
def signPart : List Char → Bool × List Char
  | '-' :: r => (true, r)
  | '+' :: r => (false, r)
  | cs => (false, cs)

/-- The exponent at the start of a text, if there is one, and what follows. -/
def exponentPart : List Char → Option (Option Int × List Char)
  | [] => some (none, [])
  | e :: r =>
    if e == 'e' || e == 'E' then
      let (negative, r) := signPart r
      match splitDigits r with
      | ([], _) => none
      | (ds, rest) =>
        let n : Int := decimalValue ds
        some (some (if negative then -n else n), rest)
    else some (none, e :: r)

/-- The number at the start of a text, and what follows. -/
def numberPart (cs : List Char) : Option (JsonNumber × List Char) := do
  let (negative, cs) := match cs with
    | '-' :: r => (true, r)
    | cs => (false, cs)
  let (ds, rest) := splitDigits cs
  if ds = [] ∨ (1 < ds.length ∧ ds.head? = some '0') then none
  let (fs, rest) ← fractionPart rest
  let (ex, rest) ← exponentPart rest
  let value := decimalValue (ds ++ fs)
  if fs = [] ∧ ex = none ∧ ¬(negative ∧ value = 0) then
    return (.whole (if negative then -(value : Int) else value), rest)
  else
    return (.decimal negative value (ex.getD 0 - fs.length), rest)

mutual

/-- The value at the start of a text, and what follows. The fuel bounds the number of steps and
the depth the nesting that is still allowed. -/
def readValue (fuel depth : Nat) (cs : List Char) : Option (Json × List Char) :=
  match fuel with
  | 0 => none
  | fuel + 1 =>
    match skipSpace cs with
    | '"' :: r => (stringBody r).map fun (s, rest) => (string (String.ofList s), rest)
    | '[' :: r =>
      if depth = 0 then none
      else match skipSpace r with
        | ']' :: rest => some (array [], rest)
        | r => (readItems fuel (depth - 1) r).map fun (items, rest) => (array items, rest)
    | '\x7b' :: r =>
      if depth = 0 then none
      else match skipSpace r with
        | '\x7d' :: rest => some (object [], rest)
        | r => (readFields fuel (depth - 1) r).map fun (fields, rest) => (object fields, rest)
    | cs =>
      match afterWord? "null" cs, afterWord? "true" cs, afterWord? "false" cs with
      | some rest, _, _ => some (null, rest)
      | _, some rest, _ => some (bool true, rest)
      | _, _, some rest => some (bool false, rest)
      | _, _, _ => (numberPart cs).map fun (n, rest) => (number n, rest)

/-- The items of an array after its opening bracket, and what follows its closing bracket. -/
def readItems (fuel depth : Nat) (cs : List Char) : Option (List Json × List Char) :=
  match fuel with
  | 0 => none
  | fuel + 1 =>
    match readValue fuel depth cs with
    | none => none
    | some (v, rest) =>
      match skipSpace rest with
      | ',' :: r => (readItems fuel depth r).map fun (vs, rest) => (v :: vs, rest)
      | ']' :: rest => some ([v], rest)
      | _ => none

/-- The fields of an object after its opening brace, and what follows its closing brace. -/
def readFields (fuel depth : Nat) (cs : List Char) :
    Option (List (String × Json) × List Char) :=
  match fuel with
  | 0 => none
  | fuel + 1 =>
    match skipSpace cs with
    | '"' :: r =>
      match stringBody r with
      | none => none
      | some (k, rest) =>
        match skipSpace rest with
        | ':' :: r =>
          match readValue fuel depth r with
          | none => none
          | some (v, rest) =>
            match skipSpace rest with
            | ',' :: r =>
              (readFields fuel depth r).map fun (fs, rest) => ((String.ofList k, v) :: fs, rest)
            | '\x7d' :: rest => some ([(String.ofList k, v)], rest)
            | _ => none
        | _ => none
    | _ => none

end

/-- How deep values may nest. -/
def depthLimit : Nat := 127

/-- The value that a text writes, if it writes one and nothing else. -/
def parse? (text : String) : Option Json :=
  let cs := text.toList
  match readValue (2 * cs.length + 2) depthLimit cs with
  | some (v, rest) => if skipSpace rest = [] then some v else none
  | none => none

end ContractScan.Json
