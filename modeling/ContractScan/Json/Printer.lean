import ContractScan.Json
import ContractScan.Text.Quoted

/-
  JSON as text: on one line, or laid out with two blanks per level. Characters above ASCII
  stand for themselves; control characters are escaped.
-/

namespace ContractScan.Json

open ContractScan.Text.Quoted (hexDigit)

/-- How one character is written in a string. -/
def escapeChar (c : Char) : List Char :=
  if c = '"' then ['\\', '"']
  else if c = '\\' then ['\\', '\\']
  else if c = '\n' then ['\\', 'n']
  else if c = '\r' then ['\\', 'r']
  else if c = '\t' then ['\\', 't']
  else if c = '\x08' then ['\\', 'b']
  else if c = '\x0c' then ['\\', 'f']
  else if c.toNat < 0x20 then
    ['\\', 'u', '0', '0', hexDigit (c.toNat / 16), hexDigit (c.toNat % 16)]
  else [c]

/-- A text as a JSON string. -/
def quote (s : String) : String := String.ofList ('"' :: s.toList.flatMap escapeChar ++ ['"'])

/-- The text of a number. -/
def JsonNumber.toText : JsonNumber → String
  | .whole n => toString n
  | .decimal negative digits exponent =>
    (if negative then "-" else "") ++ toString digits ++ "e" ++ toString exponent

/-- Items with a separator between them. -/
def separated (separator : String) (items : List String) : String := separator.intercalate items

mutual

/-- A value on one line. -/
def compact : Json → String
  | null => "null"
  | bool b => if b then "true" else "false"
  | number n => JsonNumber.toText n
  | string s => quote s
  | array items => "[" ++ separated "," (compactAll items) ++ "]"
  | object fields => "\x7b" ++ separated "," (compactFields fields) ++ "\x7d"

/-- Values on one line each. -/
def compactAll : List Json → List String
  | [] => []
  | v :: vs => compact v :: compactAll vs

/-- Fields on one line each. -/
def compactFields : List (String × Json) → List String
  | [] => []
  | (k, v) :: fs => (quote k ++ ":" ++ compact v) :: compactFields fs

end

/-- The start of a new line at a level. -/
def newLine (level : Nat) : String := "\n" ++ String.ofList (List.replicate (2 * level) ' ')

/-- Items between brackets, each on a line of its own; empty brackets stay closed. -/
def block (opener closer : String) (level : Nat) : List String → String
  | [] => opener ++ closer
  | items =>
    opener ++ newLine (level + 1) ++ separated ("," ++ newLine (level + 1)) items ++
      newLine level ++ closer

mutual

/-- A value laid out over lines, where its own line stands at a level. -/
def layOut (level : Nat) : Json → String
  | null => "null"
  | bool b => if b then "true" else "false"
  | number n => JsonNumber.toText n
  | string s => quote s
  | array items => block "[" "]" level (layOutAll (level + 1) items)
  | object fields => block "\x7b" "\x7d" level (layOutFields (level + 1) fields)

/-- Values laid out at a level. -/
def layOutAll (level : Nat) : List Json → List String
  | [] => []
  | v :: vs => layOut level v :: layOutAll level vs

/-- Fields laid out at a level. -/
def layOutFields (level : Nat) : List (String × Json) → List String
  | [] => []
  | (k, v) :: fs => (quote k ++ ": " ++ layOut level v) :: layOutFields level fs

end

/-- A value laid out over lines. -/
def pretty (v : Json) : String := layOut 0 v

end ContractScan.Json
