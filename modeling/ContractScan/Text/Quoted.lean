import ContractScan.Text.HiddenTable

/-
  Quoted text: between double quotes, on one line, with every character that does not show by
  itself written as an escape.
-/

namespace ContractScan.Text.Quoted

/-- The digit of a number below sixteen, in lower case. -/
def hexDigit (n : Nat) : Char :=
  if n < 10 then Char.ofNat (48 + n) else Char.ofNat (87 + n)

/-- A number in base sixteen, in lower case and without padding. -/
def hex (n : Nat) : List Char :=
  if n < 16 then [hexDigit n] else hex (n / 16) ++ [hexDigit (n % 16)]

/-- Whether a character is written by its code point. -/
def isHidden (c : Char) : Bool :=
  c.toNat < 0x20 || c.toNat == 0x7F || hiddenRanges.holds c.toNat

/-- How one character is written between the quotes. -/
def escape (c : Char) : List Char :=
  if c = '"' then ['\\', '"']
  else if c = '\\' then ['\\', '\\']
  else if c = '\x00' then ['\\', '0']
  else if c = '\t' then ['\\', 't']
  else if c = '\n' then ['\\', 'n']
  else if c = '\r' then ['\\', 'r']
  else if isHidden c then '\\' :: 'u' :: '\x7b' :: hex c.toNat ++ ['\x7d']
  else [c]

/-- The characters of a text in their written form. -/
def escapeAll (cs : List Char) : List Char := cs.flatMap escape

/-- A text between quotes. -/
def encode (s : String) : String := String.ofList ('"' :: escapeAll s.toList ++ ['"'])

end ContractScan.Text.Quoted
