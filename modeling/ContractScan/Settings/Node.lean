import ContractScan.Toml.Value

/-
  The tree that layers of settings merge into. Every node remembers the file that it came from;
  a table that several layers built comes from none.
-/

namespace ContractScan.Settings

/-- A value without parts. -/
inductive Scalar where
  | nothing
  | boolean (b : Bool)
  | integer (i : Int)
  | float (f : Binary64)
  | text (s : String)
deriving DecidableEq

/-- A value with its parts and the file that it came from. -/
inductive Node where
  | scalar (origin : Option String) (value : Scalar)
  | list (origin : Option String) (items : List Node)
  | table (origin : Option String) (entries : List (String × Node))

namespace Node

/-- A table without entries, of no file. -/
def emptyTable : Node := table none []

/-- A value that is not there. -/
def missing : Node := scalar none .nothing

/-- The file that a node came from. -/
def origin : Node → Option String
  | scalar o _ => o
  | list o _ => o
  | table o _ => o

mutual

/-- A value of a file. -/
def ofToml (origin : Option String) : Toml.Value → Node
  | .text s => scalar origin (.text s)
  | .integer i => scalar origin (.integer i)
  | .float f => scalar origin (.float f)
  | .boolean b => scalar origin (.boolean b)
  | .array items => list origin (ofTomlItems origin items)
  | .table entries => table origin (ofTomlEntries origin entries)

/-- The values of an array of a file. -/
def ofTomlItems (origin : Option String) : List Toml.Value → List Node
  | [] => []
  | v :: vs => ofToml origin v :: ofTomlItems origin vs

/-- The entries of a table of a file. -/
def ofTomlEntries (origin : Option String) : List (String × Toml.Value) → List (String × Node)
  | [] => []
  | (k, v) :: rest => (k, ofToml origin v) :: ofTomlEntries origin rest

end

end Node

end ContractScan.Settings
