import ContractScan.Toml.Document
import ContractScan.Toml.Scalar

/-
  Reading TOML documents, version 1.0. The fuel of the inner readers bounds their steps; the
  length of the text is enough of it, as every step takes a character.
-/

namespace ContractScan.Toml

open ContractScan.Text (Taken)

/-- A text without the blanks at its start. -/
def skipSpace (cs : List Char) : List Char := cs.dropWhile isSpace

/-- A text after a comment, up to the end of the line; nothing if the comment holds a control
character. -/
def skipComment : List Char → Option (List Char)
  | '#' :: r =>
    let rest := r.dropWhile isPlain
    match rest with
    | [] => some []
    | '\n' :: _ => some rest
    | '\r' :: '\n' :: _ => some rest
    | _ => none
  | cs => some cs

/-- A text without blanks, line breaks and comments at its start. -/
def skipLines (fuel : Nat) (cs : List Char) : Option (List Char) :=
  match fuel with
  | 0 => none
  | fuel + 1 =>
    match skipSpace cs with
    | '\n' :: r => skipLines fuel r
    | '\r' :: '\n' :: r => skipLines fuel r
    | '#' :: r => (skipComment ('#' :: r)).bind (skipLines fuel)
    | cs => some cs

/-- A text after the end of its line, which blanks and a comment may come before. -/
def endLine (cs : List Char) : Option (List Char) :=
  match skipComment (skipSpace cs) with
  | some [] => some []
  | some ('\n' :: r) => some r
  | some ('\r' :: '\n' :: r) => some r
  | _ => none

/-! ## Keys -/

/-- Whether a character may stand in a key without quotes. -/
def isBareKey (c : Char) : Bool := c.isAlphanum || c == '_' || c == '-'

/-- One name of a key, and what follows. -/
def keyName : List Char → Taken
  | '"' :: r => basic r
  | '\'' :: r => literal r
  | cs =>
    match cs.takeWhile isBareKey with
    | [] => none
    | name => some (name, cs.dropWhile isBareKey)

/-- The names of a dotted key, and what follows. -/
def keyPath (fuel : Nat) (cs : List Char) : Option (List String × List Char) :=
  match fuel with
  | 0 => none
  | fuel + 1 =>
    match keyName (skipSpace cs) with
    | none => none
    | some (name, rest) =>
      match skipSpace rest with
      | '.' :: r => (keyPath fuel r).map fun (names, rest) => (String.ofList name :: names, rest)
      | rest => some ([String.ofList name], rest)

/-- A path and its last name. -/
def splitLast (names : List String) : List String × String :=
  (names.dropLast, names.getLast?.getD "")

/-! ## Values -/

mutual

/-- A value, and what follows. -/
def value (fuel : Nat) (cs : List Char) : Option (Value × List Char) :=
  match fuel with
  | 0 => none
  | fuel + 1 =>
    match cs with
    | '"' :: _ => (anyString cs).map fun (s, rest) => (.text (String.ofList s), rest)
    | '\'' :: _ => (anyString cs).map fun (s, rest) => (.text (String.ofList s), rest)
    | '[' :: r => (items fuel r).map fun (vs, rest) => (.array vs, rest)
    | '\x7b' :: r =>
      match skipSpace r with
      | '\x7d' :: rest => some (.table [], rest)
      | r => (pairs fuel [] r).map fun (parts, rest) => (.table (Parts.toTable parts), rest)
    | cs => scalar cs

/-- The items of an array after its opening bracket, and what follows its closing bracket. -/
def items (fuel : Nat) (cs : List Char) : Option (List Value × List Char) :=
  match fuel with
  | 0 => none
  | fuel + 1 =>
    match skipLines (cs.length + 1) cs with
    | none => none
    | some (']' :: rest) => some ([], rest)
    | some cs =>
      match value fuel cs with
      | none => none
      | some (v, rest) =>
        match skipLines (rest.length + 1) rest with
        | some (']' :: rest) => some ([v], rest)
        | some (',' :: r) => (items fuel r).map fun (vs, rest) => (v :: vs, rest)
        | _ => none

/-- The keys of a table on one line, added to those before them, and what follows its closing
brace. -/
def pairs (fuel : Nat) (parts : Parts) (cs : List Char) : Option (Parts × List Char) :=
  match fuel with
  | 0 => none
  | fuel + 1 =>
    match keyPath (cs.length + 1) cs with
    | some (names, '=' :: r) =>
      match value fuel (skipSpace r) with
      | none => none
      | some (v, rest) =>
        let (path, key) := splitLast names
        match Parts.defineDotted key v path parts with
        | none => none
        | some parts =>
          match skipSpace rest with
          | '\x7d' :: rest => some (parts, rest)
          | ',' :: r => pairs fuel parts r
          | _ => none
    | _ => none

end

/-! ## Documents -/

/-- Adds the header of a table of an array, after its two opening brackets. -/
def itemHeader (d : Document) (cs : List Char) : Option (Document × List Char) := do
  let (names, rest) ← keyPath (cs.length + 1) cs
  let (path, key) := splitLast names
  match rest with
  | ']' :: ']' :: r => return (← d.addItem path key, ← endLine r)
  | _ => none

/-- Adds the header of a table, after its opening bracket. -/
def tableHeader (d : Document) (cs : List Char) : Option (Document × List Char) := do
  let (names, rest) ← keyPath (cs.length + 1) cs
  let (path, key) := splitLast names
  match rest with
  | ']' :: r => return (← d.addTable path key, ← endLine r)
  | _ => none

/-- Adds a key and its value. -/
def keyLine (d : Document) (cs : List Char) : Option (Document × List Char) := do
  let (names, rest) ← keyPath (cs.length + 1) cs
  let (path, key) := splitLast names
  match rest with
  | '=' :: r =>
    let (v, rest) ← value (r.length + 1) (skipSpace r)
    return (← d.addKey path key v, ← endLine rest)
  | _ => none

/-- Adds the lines of a text to a document. -/
def readLines (fuel : Nat) (d : Document) (cs : List Char) : Option Document :=
  match fuel with
  | 0 => none
  | fuel + 1 =>
    match skipLines (cs.length + 1) cs with
    | none => none
    | some [] => some d
    | some ('[' :: '[' :: r) =>
      match itemHeader d r with
      | some (d, rest) => readLines fuel d rest
      | none => none
    | some ('[' :: r) =>
      match tableHeader d r with
      | some (d, rest) => readLines fuel d rest
      | none => none
    | some cs =>
      match keyLine d cs with
      | some (d, rest) => readLines fuel d rest
      | none => none

/-- A text without the mark that may stand at the start of a file. -/
def dropByteOrderMark : List Char → List Char
  | '\ufeff' :: r => r
  | cs => cs

/-- The table that a text writes; nothing if the text is no TOML document. -/
def parse? (text : String) : Option Table :=
  let cs := dropByteOrderMark text.toList
  (readLines (cs.length + 1) .empty cs).map Document.toTable

end ContractScan.Toml
