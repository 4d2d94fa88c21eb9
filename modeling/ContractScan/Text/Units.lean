/-
  Lengths of a text in other units than characters: bytes of UTF-8 and units of UTF-16.
-/

namespace ContractScan.Text

/-- Bytes that a text takes in UTF-8. -/
def byteLength : List Char → Nat
  | [] => 0
  | c :: cs => c.utf8Size + byteLength cs

theorem byteLength_append (a b : List Char) :
    byteLength (a ++ b) = byteLength a + byteLength b := by
  induction a with
  | nil => simp [byteLength]
  | cons c cs ih => simp [byteLength, ih, Nat.add_assoc]

/-- Units that a character takes in UTF-16: two outside the basic plane. -/
def unitsOf (c : Char) : Nat := if c.toNat < 0x10000 then 1 else 2

theorem unitsOf_pos (c : Char) : 0 < unitsOf c := by
  unfold unitsOf; split <;> omega

/-- Units that a text takes in UTF-16. -/
def unitLength : List Char → Nat
  | [] => 0
  | c :: cs => unitsOf c + unitLength cs

theorem unitLength_append (a b : List Char) :
    unitLength (a ++ b) = unitLength a + unitLength b := by
  induction a with
  | nil => simp [unitLength]
  | cons c cs ih => simp [unitLength, ih, Nat.add_assoc]

/-- The characters of a text that lie in the bytes from `start` to `stop`. -/
def byteSlice : List Char → Nat → Nat → List Char
  | [], _, _ => []
  | c :: cs, start, stop =>
    if 0 < start then byteSlice cs (start - c.utf8Size) (stop - c.utf8Size)
    else if 0 < stop then c :: byteSlice cs 0 (stop - c.utf8Size)
    else []

end ContractScan.Text
