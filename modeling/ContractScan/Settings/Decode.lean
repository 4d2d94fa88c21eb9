import ContractScan.Settings
import ContractScan.Settings.Error
import ContractScan.Text.Digits
import ContractScan.Text.Lowercase

/-
  From a tree to settings. Values are read kindly: a number may be written as a text, a truth
  value or a fraction, a truth value as a number or a word, a format in any case, and a section
  as a list of its values.
-/

namespace ContractScan.Settings

open ContractScan.Text (lowercase)

/-- The largest number that a setting can hold. -/
def largest : Nat := 0xffffffffffffffff

/-- The words for true. -/
def yesWords : List String := ["true", "on", "yes"]

/-- The words for false. -/
def noWords : List String := ["false", "off", "no"]

/-- The number that a text writes: a word for true or false, or decimal digits. -/
def naturalOfText? (s : String) : Option Nat :=
  let word := lowercase s
  if yesWords.contains word then some 1
  else if noWords.contains word then some 0
  else
    match Text.unsigned? s.toList with
    | some n => if n ≤ largest then some n else none
    | none => none

/-- The truth value that a word in lower case writes. -/
def truthOfWord? (word : String) : Option Bool :=
  if ("1" :: yesWords).contains word then some true
  else if ("0" :: noWords).contains word then some false
  else none

/-- A node as a number that is not negative. -/
def natural (key : String) (n : Node) : Except Error Nat :=
  match n with
  | .list o _ => .error (.wrongType .list .integer key o)
  | .table o _ => .error (.wrongType .table .integer key o)
  | .scalar o .nothing => .error (.wrongType .nothing .integer key o)
  | .scalar _ (.boolean b) => .ok (if b then 1 else 0)
  | .scalar _ (.float f) => .ok (f.toNatClamped largest)
  | .scalar o (.integer i) =>
    if 0 ≤ i then .ok i.toNat else .error (.wrongType (.integer i) .unsigned key o)
  | .scalar o (.text s) =>
    match naturalOfText? s with
    | some n => .ok n
    | none => .error (.wrongType (.text s) .integer key o)

/-- A node as a truth value. -/
def truth (key : String) (n : Node) : Except Error Bool :=
  match n with
  | .list o _ => .error (.wrongType .list .boolean key o)
  | .table o _ => .error (.wrongType .table .boolean key o)
  | .scalar o .nothing => .error (.wrongType .nothing .boolean key o)
  | .scalar _ (.boolean b) => .ok b
  | .scalar _ (.float f) => .ok (!f.isZero)
  | .scalar _ (.integer i) => .ok (i ≠ 0)
  | .scalar o (.text s) =>
    match truthOfWord? (lowercase s) with
    | some b => .ok b
    | none => .error (.wrongType (.text (lowercase s)) .boolean key o)

/-- The format of a name in any case. -/
def formatOfName (name : String) : Except Error TokenFormat :=
  match TokenFormat.ofName? (lowercase name) with
  | some f => .ok f
  | none => .error (.noSuchFormat name)

/-- A node as a format: its name, or a table with that name as its one key. -/
def formatOfNode (_ : String) (n : Node) : Except Error TokenFormat :=
  match n with
  | .scalar _ (.text s) => formatOfName s
  | .table _ [(name, _)] => formatOfName name
  | _ => .error .notFormat

/-- How a section finds the values of its keys: by name, or by place. -/
inductive Source where
  | named (entries : List (String × Node))
  | listed (items : List Node)

/-- The source that a node is for a section. -/
def sourceOf (s : Section) (n : Option Node) : Except Error Source :=
  match n with
  | none => .error (.missingKey s.key)
  | some (.table _ entries) => .ok (.named entries)
  | some (.list _ items) => .ok (.listed items)
  | some (.scalar _ v) => .error (.notSection v s)

/-- The key of a value of a section in messages. -/
def valueKey (s : Section) (source : Source) (place : Nat) (name : String) : String :=
  match source with
  | .named _ => s.key ++ "." ++ name
  | .listed _ => s.key ++ "[" ++ toString place ++ "]"

/-- The value of a key, if the section has it. A list must have a value for each key. -/
def valueOf (s : Section) (source : Source) (place : Nat) (name : String) :
    Except Error (Option Node) :=
  match source with
  | .named entries => .ok (entries.lookup name)
  | .listed items =>
    match items[place]? with
    | some n => .ok (some n)
    | none => .error (.tooShort place s)

/-- Reads the value of a key, if the section has it. -/
def readKey {α : Type} (read : String → Node → Except Error α) (s : Section) (source : Source)
    (place : Nat) (name : String) : Except Error (Option α) := do
  match ← valueOf s source place name with
  | none => return none
  | some n => return some (← read (valueKey s source place name) n)

/-- A value that must be there. -/
def require {α : Type} (name : String) : Option α → Except Error α
  | some a => .ok a
  | none => .error (.missingKey name)

/-- The section on folding. -/
def foldingOf (n : Option Node) : Except Error FoldingSettings := do
  let source ← sourceOf .folding n
  let tabSize ← readKey natural .folding source 0 "tab_size"
  let indentation ← readKey truth .folding source 1 "indentation"
  let regionMarkers ← readKey truth .folding source 2 "region_markers"
  return ⟨← require "tab_size" tabSize, ← require "indentation" indentation,
    ← require "region_markers" regionMarkers⟩

/-- The section on diagnostics. -/
def diagnosticsOf (n : Option Node) : Except Error DiagnosticSettings := do
  let source ← sourceOf .diagnostics n
  let lexical ← readKey truth .diagnostics source 0 "lexical"
  let structural ← readKey truth .diagnostics source 1 "structural"
  return ⟨← require "lexical" lexical, ← require "structural" structural⟩

/-- The section on output. -/
def outputOf (n : Option Node) : Except Error TokenFormat := do
  let source ← sourceOf .output n
  let format ← readKey formatOfNode .output source 0 "format"
  require "format" format

/-- The settings that a tree holds. -/
def ofNode (n : Node) : Except Error Settings := do
  let entries := match n with
    | .table _ es => es
    | _ => []
  let folding ← foldingOf (entries.lookup "folding")
  let diagnostics ← diagnosticsOf (entries.lookup "diagnostics")
  let format ← outputOf (entries.lookup "output")
  return ⟨folding, diagnostics, format⟩

end ContractScan.Settings
