import ContractScan.Text.Digits
import ContractScan.Text.Lowercase

/-
  Key paths: names joined by points, and indices in square brackets. Upper and lower case are
  the same.
-/

namespace ContractScan.Settings

/-- A step of a key path below its first name. -/
inductive KeyStep where
  | key (name : String)
  | index (i : Int)
deriving DecidableEq

/-- A key path: its first name and the steps below it. -/
structure KeyPath where
  first : String
  steps : List KeyStep
deriving DecidableEq

namespace KeyPath

/-- Whether a character may stand in a name. -/
def isNameChar (c : Char) : Bool := c.isAlphanum || c == ' ' || c == '_' || c == '-'

/-- Whether a character may stand around an index. -/
def isPadding (c : Char) : Bool := c == ' ' || c == '\t'

/-- The name that characters write. -/
def nameOf (cs : List Char) : String := Text.lowercase (String.ofList cs)

/-- The index that the characters between brackets write. -/
def indexOf? (cs : List Char) : Option Int :=
  let body := ((cs.dropWhile isPadding).reverse.dropWhile isPadding).reverse
  if body.head? = some '+' then none
  else
    match Text.signed? body with
    | some i => if -0x8000000000000000 ≤ i ∧ i < 0x8000000000000000 then some i else none
    | none => none

/-- The steps that a text writes. The fuel bounds their number. -/
def steps? (fuel : Nat) (cs : List Char) : Option (List KeyStep) :=
  match fuel, cs with
  | _, [] => some []
  | 0, _ => none
  | fuel + 1, '.' :: r =>
    match r.takeWhile isNameChar with
    | [] => none
    | name => (steps? fuel (r.dropWhile isNameChar)).map fun s => .key (nameOf name) :: s
  | fuel + 1, '[' :: r =>
    match indexOf? (r.takeWhile fun c => c != ']'), r.dropWhile fun c => c != ']' with
    | some i, ']' :: rest => (steps? fuel rest).map fun s => .index i :: s
    | _, _ => none
  | _ + 1, _ => none

/-- The key path that a text writes. -/
def parse? (text : String) : Option KeyPath :=
  let cs := text.toList
  match cs.takeWhile isNameChar with
  | [] => none
  | name => (steps? cs.length (cs.dropWhile isNameChar)).map fun s => ⟨nameOf name, s⟩

end KeyPath

end ContractScan.Settings
