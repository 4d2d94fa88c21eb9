/-
  Files as a program sees them: a path is either read or refused for a reason. A folder in
  memory stands for the files below a directory.
-/

namespace ContractScan

/-- Why a path could not be read. -/
inductive FileError where
  | missing
  | isFolder
  | notFolder
  | notText
  /-- Any other reason, in the words of the system. -/
  | refused (reason : String)
deriving DecidableEq

/-- A reason in words. -/
def FileError.message : FileError → String
  | missing => "No such file or directory (os error 2)"
  | isFolder => "Is a directory (os error 21)"
  | notFolder => "Not a directory (os error 20)"
  | notText => "stream did not contain valid UTF-8"
  | refused reason => reason

/-- What a program may read, by path. -/
abbrev FileView := String → Except FileError ByteArray

namespace FileView

/-- The text of a file. -/
def readText (v : FileView) (path : String) : Except FileError String := do
  match String.fromUTF8? (← v path) with
  | some text => return text
  | none => throw .notText

/-- Whether a path leads to a file, even one that may not be read. -/
def isFile (v : FileView) (path : String) : Bool :=
  match v path with
  | .ok _ => true
  | .error (.refused _) => true
  | .error _ => false

end FileView

/-! ## Paths -/

/-- The steps of a path, without those that stay where they are. -/
def pathSteps (path : String) : List String :=
  (path.splitOn "/").filter fun s => s ≠ "" ∧ s ≠ "."

/-- A path with only the steps that lead somewhere. -/
def plainPath (path : String) : String :=
  (if path.startsWith "/" then "/" else "") ++ "/".intercalate (pathSteps path)

/-- Whether a path can only be a folder: it ends in a slash, or in a step that stays. -/
def endsInFolder (path : String) : Bool :=
  match (path.splitOn "/").getLast? with
  | some s => s = "" || s = "."
  | none => false

/-! ## Folders in memory -/

/-- What a name stands for. -/
inductive FolderEntry where
  | file (content : ByteArray)
  | folder

/-- Files and folders by the steps that lead to them. -/
structure Folder where
  entries : List (List String × FolderEntry)

namespace Folder

/-- A folder with files of the given names; a name that ends in a slash is a folder. -/
def ofNames (files : List (String × ByteArray)) : Folder :=
  ⟨files.map fun (name, content) =>
    (pathSteps name, if name.endsWith "/" then .folder else .file content)⟩

/-- What stands at the end of some steps. A folder is there as soon as something is in it. -/
def entry? (f : Folder) (steps : List String) : Option FolderEntry :=
  match f.entries.lookup steps with
  | some e => some e
  | none => if f.entries.any fun (s, _) => steps.isPrefixOf s then some .folder else none

/-- Follows steps from a place in the folder, given by the steps that led there, the last one
first. Nothing is known of what lies above the folder. -/
def walk (f : Folder) : List String → List String → Except FileError (List String)
  | place, [] => .ok place
  | [], s :: steps =>
    if s ≠ ".." then walk f [s] steps
    else if steps.all fun s => s = ".." then .ok [] else .error .missing
  | p :: place, s :: steps =>
    match f.entry? (p :: place).reverse with
    | some .folder => if s = ".." then walk f place steps else walk f (s :: p :: place) steps
    | some (.file _) => .error .notFolder
    | none => .error .missing

/-- What may be read of a folder. -/
def view (f : Folder) : FileView := fun path =>
  if path = "" then .error .missing
  else
    match walk f [] (pathSteps path) with
    | .error e => .error e
    | .ok [] => .error .isFolder
    | .ok place =>
      match f.entry? place.reverse with
      | none => .error .missing
      | some .folder => .error .isFolder
      | some (.file content) => if endsInFolder path then .error .notFolder else .ok content

end Folder

end ContractScan
