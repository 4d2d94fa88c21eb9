import ContractScan.Decimal.Binary64

/-
  The shortest decimal of a floating-point number: the fewest digits that read back as the same
  number, and of those the nearest. The text is positional, without an exponent, and always has
  a point.
-/

namespace ContractScan.Binary64

/-- The largest power of ten, as an exponent, that a positive quotient reaches. -/
def magnitude (num den : Nat) : Int :=
  if den ≤ num then ((Nat.toDigits 10 (num / den)).length : Int) - 1
  else
    let lead := (Nat.toDigits 10 (den / num)).length
    if den ≤ num * Nat.pow 10 (lead - 1) then -((lead : Int) - 1) else -(lead : Int)

/-- A quotient divided by a power of ten. -/
def overPower (num den : Nat) (e : Int) : Nat × Nat :=
  if 0 ≤ e then (num, den * Nat.pow 10 e.toNat) else (num * Nat.pow 10 (-e).toNat, den)

/-- The neighbours of a quotient on the grid of the decimals with a given last place, the
nearer one first. -/
def neighbours (num den : Nat) (place : Int) : List Nat :=
  let (n, d) := overPower num den place
  let low := n / d
  if 2 * (n % d) < d then [low, low + 1] else [low + 1, low]

/-- The first decimal that reads back, tried with one digit more at each step. -/
def shortestFrom (m : Nat) (e : Int) (num den : Nat) : Nat → Nat → Nat × Int
  | 0, count =>
    let place := magnitude num den - count + 1
    ((neighbours num den place).headD 0, place)
  | more + 1, count =>
    let place := magnitude num den - count + 1
    match (neighbours num den place).find? fun d => ofDecimal false d place = finite false m e with
    | some d => (d, place)
    | none => shortestFrom m e num den more (count + 1)

/-- Digits without a zero at their end, where there are others. -/
def dropZero (digits : Nat) (place : Int) : Nat × Int :=
  if digits ≠ 0 ∧ digits % 10 = 0 then (digits / 10, place + 1) else (digits, place)

/-- The digits and the last place of the shortest decimal of a finite number. A grid of one
digit can answer with ten, which is one on the next grid. -/
def shortest (m : Nat) (e : Int) : Nat × Int :=
  if m = 0 then (0, 0)
  else
    let (num, den) := quotient m e
    let (digits, place) := shortestFrom m e num den 16 1
    dropZero digits place

/-- Digits times a power of ten in positional notation, with a point. -/
def positional (digits : Nat) (place : Int) : String :=
  let ds := Nat.toDigits 10 digits
  if 0 ≤ place then String.ofList (ds ++ List.replicate place.toNat '0' ++ ['.', '0'])
  else
    let after := (-place).toNat
    let padded := List.replicate (after + 1 - ds.length) '0' ++ ds
    let whole := padded.length - after
    String.ofList (padded.take whole ++ '.' :: padded.drop whole)

/-- A number as text. -/
def toText : Binary64 → String
  | nan => "NaN"
  | infinite negative => if negative then "-inf" else "inf"
  | finite negative m e =>
    let (digits, place) := shortest m e
    (if negative then "-" else "") ++ positional digits place

end ContractScan.Binary64
