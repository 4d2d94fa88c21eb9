import ContractScan.Toml.Value

/-
  A TOML document while it grows. The rules on what may be defined where: a key has one value, a
  table has one header, and a table that dotted keys made is open to dotted keys alone.
-/

namespace ContractScan.Toml

/-- How a table came to be: by its own header, by a longer header, or by a dotted key. -/
inductive Origin where
  | header
  | longerHeader
  | dottedKey
deriving DecidableEq

/-- A part of a document: a value, a table, or the tables of an array, the last of which is still
open. -/
inductive Part where
  | value (v : Value)
  | table (origin : Origin) (entries : List (String × Part))
  | tables (items : List (List (String × Part)))

/-- The parts of a table by name. -/
abbrev Parts := List (String × Part)

namespace Parts

/-- The parts with a new value for a name that is among them. -/
def replace (key : String) (p : Part) : Parts → Parts
  | [] => []
  | (k, q) :: rest => if k = key then (k, p) :: rest else (k, q) :: replace key p rest

/-- Changes the table that a path of headers leads to; tables that are missing are made. -/
def underHeader (f : Parts → Option Parts) : List String → Parts → Option Parts
  | [], parts => f parts
  | k :: ks, parts =>
    match parts.lookup k with
    | none => (underHeader f ks []).map fun inner => parts ++ [(k, .table .longerHeader inner)]
    | some (.value _) => none
    | some (.table origin inner) =>
      (underHeader f ks inner).map fun inner => replace k (.table origin inner) parts
    | some (.tables items) =>
      match items.getLast? with
      | none => none
      | some last =>
        (underHeader f ks last).map fun last => replace k (.tables (items.dropLast ++ [last])) parts

/-- Gives a key of a table its value; a key has one value. -/
def define (key : String) (v : Value) (parts : Parts) : Option Parts :=
  match parts.lookup key with
  | none => some (parts ++ [(key, .value v)])
  | some _ => none

/-- Gives the last of a path of dotted keys its value. -/
def defineDotted (key : String) (v : Value) : List String → Parts → Option Parts
  | [], parts => define key v parts
  | k :: ks, parts =>
    match parts.lookup k with
    | none => (defineDotted key v ks []).map fun inner => parts ++ [(k, .table .dottedKey inner)]
    | some (.value _) => none
    | some (.table origin inner) =>
      if origin = .header ∨ (ks = [] ∧ origin ≠ .dottedKey) then none
      else (defineDotted key v ks inner).map fun inner => replace k (.table origin inner) parts
    | some (.tables items) =>
      match ks, items.getLast? with
      | [], _ => none
      | _, none => none
      | ks, some last =>
        (defineDotted key v ks last).map fun last =>
          replace k (.tables (items.dropLast ++ [last])) parts

/-- Opens a table by its header. -/
def openTable (key : String) (parts : Parts) : Option Parts :=
  match parts.lookup key with
  | none => some (parts ++ [(key, .table .header [])])
  | some (.table .longerHeader inner) => some (replace key (.table .header inner) parts)
  | some _ => none

/-- Opens one more table of an array by its header. -/
def openItem (key : String) (parts : Parts) : Option Parts :=
  match parts.lookup key with
  | none => some (parts ++ [(key, .tables [[]])])
  | some (.tables items) => some (replace key (.tables (items ++ [[]])) parts)
  | some _ => none

end Parts

mutual

/-- The value of a part. -/
def Part.toValue : Part → Value
  | .value v => v
  | .table _ entries => .table (Parts.toTable entries)
  | .tables items => .array (Parts.toTables items)

/-- The table of parts. -/
def Parts.toTable : List (String × Part) → Table
  | [] => []
  | (k, p) :: rest => (k, p.toValue) :: Parts.toTable rest

/-- The tables of an array. -/
def Parts.toTables : List (List (String × Part)) → List Value
  | [] => []
  | ps :: rest => .table (Parts.toTable ps) :: Parts.toTables rest

end

/-- A document and the header that its next key stands under. -/
structure Document where
  parts : Parts
  header : List String

namespace Document

/-- A document without entries. -/
def empty : Document := ⟨[], []⟩

/-- Adds a key, given as its dotted path and last name, with its value. -/
def addKey (d : Document) (path : List String) (key : String) (v : Value) : Option Document :=
  (Parts.underHeader (Parts.defineDotted key v path) d.header d.parts).map fun parts =>
    { d with parts := parts }

/-- Goes on under the header of a table. -/
def addTable (d : Document) (path : List String) (key : String) : Option Document :=
  (Parts.underHeader (Parts.openTable key) path d.parts).map fun parts =>
    ⟨parts, path ++ [key]⟩

/-- Goes on under the header of one more table of an array. -/
def addItem (d : Document) (path : List String) (key : String) : Option Document :=
  (Parts.underHeader (Parts.openItem key) path d.parts).map fun parts =>
    ⟨parts, path ++ [key]⟩

/-- The finished table. -/
def toTable (d : Document) : Table := Parts.toTable d.parts

end Document

end ContractScan.Toml
