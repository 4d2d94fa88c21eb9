import ContractScan.Settings.KeyPath
import ContractScan.Settings.Node

/-
  Merging values into a tree of settings. A table merges into a table key by key; every other
  value takes the place of what was there. A table without entries changes nothing.
-/

namespace ContractScan.Settings.Node

/-- The entries of a table; none of any other node. -/
def entries : Node → List (String × Node)
  | table _ es => es
  | _ => []

/-- The file of a table; none of any other node. -/
def tableOrigin : Node → Option String
  | table o _ => o
  | _ => none

/-- The items of a list; none of any other node. -/
def items : Node → List Node
  | list _ ns => ns
  | _ => []

/-- The file of a list; none of any other node. -/
def listOrigin : Node → Option String
  | list o _ => o
  | _ => none

/-- Entries with a value for a key. -/
def put (key : String) (n : Node) : List (String × Node) → List (String × Node)
  | [] => [(key, n)]
  | (k, m) :: rest => if k = key then (k, n) :: rest else (k, m) :: put key n rest

theorem lookup_entry (k k' : String) (m : Node) (rest : List (String × Node)) :
    ((k', m) :: rest).lookup k = if k = k' then some m else rest.lookup k := by
  rw [List.lookup_cons]
  split
  · rename_i h; rw [if_pos (beq_iff_eq.1 h)]
  · rename_i h; rw [if_neg (beq_eq_false_iff_ne.1 h)]

theorem lookup_put (key : String) (n : Node) (es : List (String × Node)) (k : String) :
    (put key n es).lookup k = if k = key then some n else es.lookup k := by
  induction es with
  | nil => exact lookup_entry k key n []
  | cons e rest ih =>
    obtain ⟨k', m⟩ := e
    by_cases h : k' = key
    · by_cases hk : k = key <;> simp [put, lookup_entry, h, hk]
    · by_cases hk : k = k'
      · simp [put, hk, h]
      · simp [put, lookup_entry, h, hk, ih]

/-- A table with a value for a key; a node of another kind makes way for a table of no file. -/
def withEntry (root : Node) (key : String) (n : Node) : Node :=
  table root.tableOrigin (put key n root.entries)

mutual

/-- Sets a key of a table, where the key may be written in any case. -/
def set (root : Node) (key : String) : Node → Node
  | table _ fields =>
    let name := Text.lowercase key
    root.withEntry name (setAll ((root.entries.lookup name).getD emptyTable) fields)
  | n => root.withEntry (Text.lowercase key) n

/-- Sets several keys of a table. -/
def setAll (root : Node) : List (String × Node) → Node
  | [] => root
  | (k, n) :: rest => setAll (set root k n) rest

end

/-- A list with at least so many items. -/
def extend (count : Nat) (ns : List Node) : List Node :=
  ns ++ List.replicate (count - ns.length) missing

/-- The place of an index in a list of a length; negative ones count from its end. -/
def place (i : Int) (length : Nat) : Nat :=
  if 0 ≤ i then i.toNat else length - (-i).toNat

/-- Changes an item of a list; a node of another kind makes way for a list of no file. -/
def changeItem (root : Node) (i : Int) (f : Node → Node) : Node :=
  let p := place i root.items.length
  list root.listOrigin ((extend (p + 1) root.items).modify p f)

/-- Changes an entry of a table; a node of another kind makes way for a table of no file. -/
def changeEntry (root : Node) (key : String) (f : Node → Node) : Node :=
  root.withEntry key (f ((root.entries.lookup key).getD missing))

/-- Changes the node that some steps lead to. -/
def change (f : Node → Node) : List KeyStep → Node → Node
  | [], n => f n
  | .key k :: steps, n => n.changeEntry k (change f steps)
  | .index i :: steps, n => n.changeItem i (change f steps)

/-- Sets the value of a key path. -/
def setPath (root : Node) (p : KeyPath) (n : Node) : Node :=
  match p.steps.getLast? with
  | none => root.set p.first n
  | some last =>
    root.changeEntry p.first
      (change (fun parent => match last with
        | .key k => parent.set k n
        | .index i => parent.changeItem i fun _ => n) p.steps.dropLast)

/-- Sets a key of a file, which is a key path if it reads as one. -/
def setFileKey (root : Node) (key : String) (n : Node) : Node :=
  match KeyPath.parse? key with
  | some p => root.setPath p n
  | none => root.set key n

/-- Merges the table of a file. -/
def mergeFile (root : Node) (origin : String) (t : Toml.Table) : Node :=
  t.foldl (fun root (k, v) => root.setFileKey k (ofToml (some origin) v)) root

end ContractScan.Settings.Node
