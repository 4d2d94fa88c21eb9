import ContractScan.Files
import ContractScan.Settings.Node
import ContractScan.Decimal.Shortest
import ContractScan.Text.Quoted

/-
  What can be wrong with settings, and how it is said.
-/

namespace ContractScan.Settings

open ContractScan.Text (Quoted.encode)

/-- What a value was expected to be. -/
inductive Expected where
  | integer
  | unsigned
  | boolean
deriving DecidableEq

/-- An expectation in words. -/
def Expected.words : Expected → String
  | integer => "an integer"
  | unsigned => "an unsigned 64 bit or less integer"
  | boolean => "a boolean"

/-- What a value was found to be. -/
inductive Found where
  | nothing
  | integer (i : Int)
  | text (s : String)
  | list
  | table
deriving DecidableEq

/-- A finding in words. -/
def Found.words : Found → String
  | nothing => "unit value"
  | integer i => "64-bit integer `" ++ toString i ++ "`"
  | text s => "string " ++ Quoted.encode s
  | list => "sequence"
  | table => "map"

/-- A section of the settings. -/
inductive Section where
  | folding
  | diagnostics
  | output
deriving DecidableEq

/-- The key of a section. -/
def Section.key : Section → String
  | folding => "folding"
  | diagnostics => "diagnostics"
  | output => "output"

/-- The name of a section in messages. -/
def Section.title : Section → String
  | folding => "struct FoldingConfig"
  | diagnostics => "struct DiagnosticsConfig"
  | output => "struct OutputConfig"

/-- The number of keys of a section. -/
def Section.size : Section → Nat
  | folding => 3
  | diagnostics => 2
  | output => 1

/-- What is wrong with settings. -/
inductive Error where
  /-- A key path that does not read as one. -/
  | keyPath
  /-- A file that is no TOML document. -/
  | malformed
  | noFile (path : String)
  | unreadable (cause : FileError)
  /-- A value of the wrong kind for a key. -/
  | wrongType (found : Found) (expected : Expected) (key : String) (origin : Option String)
  /-- A value without parts in place of a section. -/
  | notSection (found : Scalar) (expected : Section)
  /-- A list with too few items in place of a section. -/
  | tooShort (length : Nat) (expected : Section)
  | missingKey (key : String)
  | noSuchFormat (name : String)
  | notFormat
deriving DecidableEq

/-- A value without parts in words, where a section was expected. -/
def Scalar.words : Scalar → String
  | nothing => "unit value"
  | boolean b => "boolean `" ++ toString b ++ "`"
  | integer i => "integer `" ++ toString i ++ "`"
  | float f => "floating point `" ++ f.toText ++ "`"
  | text s => "string " ++ Quoted.encode s

/-- An error in words. -/
def Error.message : Error → String
  | keyPath => "invalid key path"
  | malformed => "TOML parse error"
  | noFile path => "configuration file \"" ++ path ++ "\" not found"
  | unreadable cause => cause.message
  | wrongType found expected key origin =>
    "invalid type: " ++ found.words ++ ", expected " ++ expected.words ++ " for key `" ++ key ++
      "`" ++ (origin.map fun o => " in " ++ o).getD ""
  | notSection found expected =>
    "invalid type: " ++ found.words ++ ", expected " ++ expected.title
  | tooShort length expected =>
    "invalid length " ++ toString length ++ ", expected " ++ expected.title ++ " with " ++
      toString expected.size ++ (if expected.size = 1 then " element" else " elements")
  | missingKey key => "missing field `" ++ key ++ "`"
  | noSuchFormat name => "enum TokenFormat does not have variant constructor " ++ name
  | notFormat =>
    "value of enum TokenFormat should be represented by either string or table with exactly " ++
      "one key"

end ContractScan.Settings
