import ContractScan.Outline

/-
  The settings of the program: how lines fold, which diagnostics are reported, and how a list of
  tokens is written.
-/

namespace ContractScan

/-- How a list of tokens is written. -/
inductive TokenFormat where
  /-- One line per token, in columns. -/
  | table
  /-- The lexemes alone. -/
  | simple
  | json
deriving DecidableEq

namespace TokenFormat

/-- Every format. -/
def all : List TokenFormat := [table, simple, json]

/-- The name of a format. -/
def name : TokenFormat → String
  | table => "table"
  | simple => "simple"
  | json => "json"

/-- The format of a name. -/
def ofName? (s : String) : Option TokenFormat := all.find? fun f => f.name = s

theorem ofName?_name (f : TokenFormat) : ofName? f.name = some f := by cases f <;> decide

/-- The message about a name that is no format. -/
def unknownMessage (s : String) : String :=
  "unknown format '" ++ s ++ "' (expected one of: " ++ ", ".intercalate (all.map name) ++ ")"

end TokenFormat

/-- How lines fold. -/
structure FoldingSettings where
  tabSize : Nat
  indentation : Bool
  regionMarkers : Bool
deriving DecidableEq

/-- The options of a scan with these settings. -/
def FoldingSettings.scanOptions (f : FoldingSettings) : ScanOptions :=
  ⟨f.tabSize, f.indentation, f.regionMarkers⟩

/-- Which diagnostics are reported. -/
structure DiagnosticSettings where
  lexical : Bool
  structural : Bool
deriving DecidableEq

/-- Whether diagnostics of a kind are reported. -/
def DiagnosticSettings.allows (d : DiagnosticSettings) (k : DiagnosticKind) : Bool :=
  if k.isStructural then d.structural else d.lexical

/-- All settings. -/
structure Settings where
  folding : FoldingSettings
  diagnostics : DiagnosticSettings
  format : TokenFormat
deriving DecidableEq

/-- The settings where nothing is set. -/
def Settings.standard : Settings := ⟨⟨4, true, true⟩, ⟨true, true⟩, .table⟩

theorem Settings.scanOptions_standard :
    Settings.standard.folding.scanOptions = ScanOptions.standard := rfl

end ContractScan
