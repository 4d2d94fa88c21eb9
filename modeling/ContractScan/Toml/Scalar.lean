import ContractScan.Toml.Quoted
import ContractScan.Toml.Value

/-
  TOML values without parts: numbers, truth values, dates and times. Each reader takes a text
  and gives back the value at its start and what follows.
-/

namespace ContractScan.Toml

open ContractScan.Text (Taken decimalValue hexValue? afterWord?)

/-- Digits with single underscores between them, after the first digit. -/
def moreDigits (isDigit : Char → Bool) : List Char → List Char × List Char
  | '_' :: d :: r =>
    if isDigit d then
      let (ds, rest) := moreDigits isDigit r
      (d :: ds, rest)
    else ([], '_' :: d :: r)
  | d :: r =>
    if isDigit d then
      let (ds, rest) := moreDigits isDigit r
      (d :: ds, rest)
    else ([], d :: r)
  | [] => ([], [])

/-- One digit or more, with single underscores between them. -/
def digitRun (isDigit : Char → Bool) : List Char → Taken
  | d :: r =>
    if isDigit d then
      let (ds, rest) := moreDigits isDigit r
      some (d :: ds, rest)
    else none
  | [] => none

/-- The sign at the start of a text, whether it is a minus, and what follows. -/
def sign : List Char → Bool × List Char
  | '-' :: r => (true, r)
  | '+' :: r => (false, r)
  | cs => (false, cs)

/-- The digits of a decimal number: a zero alone, or no zero at the start. -/
def decimalDigits : List Char → Taken
  | '0' :: r => some (['0'], r)
  | cs => digitRun Char.isDigit cs

/-- A number with a sign. -/
def signed (negative : Bool) (n : Nat) : Int := if negative then -(n : Int) else n

/-- A whole number, if it fits into 64 bits. -/
def integer64? (i : Int) : Option Value :=
  if -0x8000000000000000 ≤ i ∧ i < 0x8000000000000000 then some (.integer i) else none

/-- The number that digits of a base write. -/
def baseValue (base : Nat) (ds : List Char) : Nat :=
  ds.foldl (fun n d => n * base + (hexValue? d).getD 0) 0

/-- A whole number in a base, after the letters that announce it. -/
def integerIn (base : Nat) (cs : List Char) : Option (Value × List Char) := do
  let (ds, rest) ← digitRun (fun c => (hexValue? c).any fun v => v < base) cs
  return (← integer64? (baseValue base ds), rest)

/-- A whole number. -/
def integer : List Char → Option (Value × List Char)
  | '0' :: 'x' :: r => integerIn 16 r
  | '0' :: 'o' :: r => integerIn 8 r
  | '0' :: 'b' :: r => integerIn 2 r
  | cs => do
    let (negative, r) := sign cs
    let (ds, rest) ← decimalDigits r
    return (← integer64? (signed negative (decimalValue ds)), rest)

/-- The exponent of a number: a letter, a sign and digits. -/
def exponent : List Char → Option (Int × List Char)
  | e :: r =>
    if e == 'e' || e == 'E' then do
      let (negative, r) := sign r
      let (ds, rest) ← digitRun Char.isDigit r
      return (signed negative (decimalValue ds), rest)
    else none
  | [] => none

/-- The fraction of a number: a point and digits. -/
def fraction : List Char → Taken
  | '.' :: r => digitRun Char.isDigit r
  | _ => none

/-- A number with a fraction, an exponent, or both. Too large a positive number is refused. -/
def decimal (cs : List Char) : Option (Value × List Char) := do
  let (negative, r) := sign cs
  let (ds, rest) ← decimalDigits r
  let (fs, ex, rest) ← match fraction rest with
    | some (fs, rest) =>
      match exponent rest with
      | some (ex, rest) => some (fs, ex, rest)
      | none => some (fs, 0, rest)
    | none => (exponent rest).map fun (ex, rest) => ([], ex, rest)
  let f := Binary64.ofDecimal negative (decimalValue (ds ++ fs)) (ex - fs.length)
  if f = .infinite false then none else return (.float f, rest)

/-- Infinity, and what is no number. -/
def special (cs : List Char) : Option (Value × List Char) :=
  let (negative, r) := sign cs
  match afterWord? "inf" r, afterWord? "nan" r with
  | some rest, _ => some (.float (.infinite negative), rest)
  | _, some rest => some (.float .nan, rest)
  | none, none => none

/-- A truth value. -/
def boolean (cs : List Char) : Option (Value × List Char) :=
  match afterWord? "true" cs, afterWord? "false" cs with
  | some rest, _ => some (.boolean true, rest)
  | _, some rest => some (.boolean false, rest)
  | none, none => none

/-! ## Dates and times -/

/-- A given number of digits, as a number. -/
def fixedDigits (count : Nat) (cs : List Char) : Option (Nat × List Char) :=
  let ds := cs.take count
  if ds.length = count ∧ ds.all Char.isDigit then some (decimalValue ds, cs.drop count) else none

/-- What follows a character at the start of a text. -/
def after (c : Char) : List Char → Option (List Char)
  | d :: r => if c = d then some r else none
  | [] => none

/-- The days of a month. -/
def daysIn (year month : Nat) : Nat :=
  if month = 2 then
    if year % 4 = 0 ∧ (year % 100 ≠ 0 ∨ year % 400 = 0) then 29 else 28
  else if month = 4 ∨ month = 6 ∨ month = 9 ∨ month = 11 then 30
  else 31

/-- A number with zeros in front. -/
def padded (width n : Nat) : String :=
  let s := toString n
  String.ofList (List.replicate (width - s.length) '0') ++ s

/-- A date, as its text. -/
def date (cs : List Char) : Option (String × List Char) := do
  let (year, r) ← fixedDigits 4 cs
  let (month, r) ← fixedDigits 2 (← after '-' r)
  let (day, r) ← fixedDigits 2 (← after '-' r)
  if 1 ≤ month ∧ month ≤ 12 ∧ 1 ≤ day ∧ day ≤ daysIn year month then
    return (padded 4 year ++ "-" ++ padded 2 month ++ "-" ++ padded 2 day, r)
  else none

/-- The text of a fraction of a second: nine places at most, and no zeros at the end. -/
def secondFraction (ds : List Char) : String :=
  let kept := ((ds.take 9).reverse.dropWhile fun d => d == '0').reverse
  if kept = [] then "" else "." ++ String.ofList kept

/-- A time of day, as its text. -/
def time (cs : List Char) : Option (String × List Char) := do
  let (hour, r) ← fixedDigits 2 cs
  let (minute, r) ← fixedDigits 2 (← after ':' r)
  let (second, r) ← fixedDigits 2 (← after ':' r)
  if 23 < hour ∨ 59 < minute ∨ 60 < second then none
  let whole := padded 2 hour ++ ":" ++ padded 2 minute ++ ":" ++ padded 2 second
  match after '.' r with
  | none => return (whole, r)
  | some f =>
    let ds := f.takeWhile Char.isDigit
    if ds = [] then none else return (whole ++ secondFraction ds, f.drop ds.length)

/-- The distance from universal time, as its text; nothing where there is none. -/
def offset : List Char → Option (String × List Char)
  | 'Z' :: r => some ("Z", r)
  | 'z' :: r => some ("Z", r)
  | c :: r =>
    if c = '+' ∨ c = '-' then do
      let (hour, r) ← fixedDigits 2 r
      let (minute, r) ← fixedDigits 2 (← after ':' r)
      if 23 < hour ∨ 59 < minute then none
      let mark := if c = '-' ∧ (hour ≠ 0 ∨ minute ≠ 0) then "-" else "+"
      return (mark ++ padded 2 hour ++ ":" ++ padded 2 minute, r)
    else some ("", c :: r)
  | [] => some ("", [])

/-- Whether a character may stand between a date and a time. -/
def isTimeMark (c : Char) : Bool := c == 'T' || c == 't' || c == ' '

/-- The time after a date: its mark, the time and its distance from universal time. -/
def timeAfterDate : List Char → Option (String × List Char)
  | m :: r =>
    if isTimeMark m then do
      let (t, r) ← time r
      let (o, r) ← offset r
      return ("T" ++ t ++ o, r)
    else none
  | [] => none

/-- A date, a time, or both. -/
def dateTime (cs : List Char) : Option (Value × List Char) :=
  match date cs with
  | some (d, r) =>
    match timeAfterDate r with
    | some (t, rest) => some (.text (d ++ t), rest)
    | none => some (.text d, r)
  | none => (time cs).map fun (t, rest) => (.text t, rest)

/-- A value without parts that is no string. -/
def scalar (cs : List Char) : Option (Value × List Char) :=
  boolean cs <|> special cs <|> dateTime cs <|> decimal cs <|> integer cs

end ContractScan.Toml
