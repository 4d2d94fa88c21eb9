import ContractScan.Settings.Decode
import ContractScan.Settings.Merge
import ContractScan.Toml.Reader

/-
  Settings from layers. Files lie over the settings that hold where nothing is set, each over
  those before it; single values lie over all files. A file that may be missing is passed over
  if it cannot be read, but not if it is no TOML document.
-/

namespace ContractScan.Settings

/-- A source of settings. -/
inductive Layer where
  | file (path : String) (required : Bool)
  | value (key : String) (v : Scalar)

namespace Layer

/-- The paths where a file is looked for: as given, and with the ending of a TOML file. -/
def candidates (path : String) : List String :=
  match (pathSteps path).getLast? with
  | none => [path]
  | some last => if last = ".." then [path] else [path, plainPath path ++ ".toml"]

/-- The first of the paths that leads to a file. -/
def find? (files : FileView) (path : String) : Option String :=
  (candidates path).find? files.isFile

/-- The text of a file and the path under which messages know it. -/
def readFile (files : FileView) (path : String) : Except Error (String × String) :=
  match find? files path with
  | none => .error (.noFile path)
  | some found =>
    match files.readText found with
    | .ok text => .ok (plainPath found, text)
    | .error e => .error (.unreadable e)

/-- Merges a file into a tree. -/
def mergeFile (files : FileView) (path : String) (required : Bool) (root : Node) :
    Except Error Node :=
  match readFile files path with
  | .error e => if required then .error e else .ok root
  | .ok (origin, text) =>
    match Toml.parse? text with
    | some t => .ok (root.mergeFile origin t)
    | none => .error .malformed

/-- The key path and value of a layer that sets one value; nothing for a file. -/
def override? : Layer → Except Error (Option (KeyPath × Scalar))
  | file _ _ => .ok none
  | value key v =>
    match KeyPath.parse? key with
    | some p => .ok (some (p, v))
    | none => .error .keyPath

/-- Values by key path, with one more; the last value of a key path holds. -/
def record (p : KeyPath) (v : Scalar) : List (KeyPath × Scalar) → List (KeyPath × Scalar)
  | [] => [(p, v)]
  | (q, w) :: rest => if q = p then (q, v) :: rest else (q, w) :: record p v rest

/-- The values that layers set, by key path. All key paths are read before any file. -/
def overrides (layers : List Layer) : Except Error (List (KeyPath × Scalar)) := do
  let found ← layers.mapM override?
  return (found.filterMap id).foldl (fun vs (p, v) => record p v vs) []

/-- Merges the files among the layers into a tree, in their order. -/
def mergeFiles (files : FileView) : List Layer → Node → Except Error Node
  | [], root => .ok root
  | file path required :: rest, root => do
    mergeFiles files rest (← mergeFile files path required root)
  | value _ _ :: rest, root => mergeFiles files rest root

end Layer

/-- The tree of the settings that hold where nothing is set. -/
def standardNode : Node :=
  .table none [
    ("folding", .table none [
      ("tab_size", .scalar none (.integer 4)),
      ("indentation", .scalar none (.boolean true)),
      ("region_markers", .scalar none (.boolean true))]),
    ("diagnostics", .table none [
      ("lexical", .scalar none (.boolean true)),
      ("structural", .scalar none (.boolean true))]),
    ("output", .table none [("format", .scalar none (.text "table"))])]

/-- The settings that layers make. -/
def load (files : FileView) (layers : List Layer) : Except Error Settings := do
  let values ← Layer.overrides layers
  let root ← Layer.mergeFiles files layers standardNode
  ofNode (values.foldl (fun root (p, v) => root.setPath p (.scalar none v)) root)

end ContractScan.Settings
