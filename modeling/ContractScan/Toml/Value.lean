import ContractScan.Decimal.Binary64

/-
  The values of a TOML document. A date or a time is kept as its text.
-/

namespace ContractScan.Toml

/-- A TOML value. -/
inductive Value where
  | text (s : String)
  | integer (i : Int)
  | float (f : Binary64)
  | boolean (b : Bool)
  | array (items : List Value)
  | table (entries : List (String × Value))

/-- The entries of a table, in the order of their definition. -/
abbrev Table := List (String × Value)

end ContractScan.Toml
