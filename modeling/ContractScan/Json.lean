/-
  JSON values. Objects keep the order of their fields; numbers are decimal, with the whole
  numbers apart.
-/

namespace ContractScan

/-- A number: a whole one, or digits times a power of ten. -/
inductive JsonNumber where
  | whole (value : Int)
  | decimal (negative : Bool) (digits : Nat) (exponent : Int)
deriving DecidableEq

/-- A JSON value. -/
inductive Json where
  | null
  | bool (value : Bool)
  | number (value : JsonNumber)
  | string (value : String)
  | array (items : List Json)
  | object (fields : List (String × Json))

namespace Json

/-- A natural number. -/
def nat (n : Nat) : Json := number (.whole n)

/-- A whole number. -/
def int (n : Int) : Json := number (.whole n)

/-- A value that may be missing. -/
def ofOption {α : Type} (f : α → Json) : Option α → Json
  | some a => f a
  | none => null

/-- The items of a list. -/
def ofList {α : Type} (f : α → Json) (items : List α) : Json := array (items.map f)

/-- The field of a name in a list of fields; the last one if the name stands there again. -/
def lookup (name : String) (fields : List (String × Json)) : Option Json :=
  (fields.reverse.find? fun p => p.1 = name).map Prod.snd

/-- The field of a name, if the value is an object that has it. -/
def field? (name : String) : Json → Option Json
  | object fields => lookup name fields
  | _ => none

/-- The text of a string value. -/
def string? : Json → Option String
  | string s => some s
  | _ => none

/-- The value of a truth value. -/
def bool? : Json → Option Bool
  | bool b => some b
  | _ => none

/-- The value of a whole number. -/
def int? : Json → Option Int
  | number (.whole n) => some n
  | _ => none

/-- The value of a whole number that is not negative. -/
def nat? : Json → Option Nat
  | number (.whole n) => if 0 ≤ n then some n.toNat else none
  | _ => none

/-- The items of an array. -/
def array? : Json → Option (List Json)
  | array items => some items
  | _ => none

/-- The fields of an object. -/
def object? : Json → Option (List (String × Json))
  | object fields => some fields
  | _ => none

end Json

end ContractScan
