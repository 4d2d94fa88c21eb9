import ContractScan.Files
import ContractScan.Json.Encode
import ContractScan.Json.Printer
import ContractScan.Report.Check
import ContractScan.Report.Table
import ContractScan.Settings.Error

/-
  The commands: each scans one text and gives back what is to be printed. What is wrong with the
  text never makes a command fail.
-/

namespace ContractScan

/-- A text and the name that messages give it. -/
structure SourceText where
  label : String
  text : String

/-- Why a command could not be carried out. -/
inductive CommandError where
  | unreadable (path : String) (cause : FileError)
  | settings (cause : Settings.Error)
  | unknownFormat (name : String)
deriving DecidableEq

namespace CommandError

/-- An error in words. -/
def message : CommandError → String
  | unreadable path cause => "cannot read " ++ path ++ ": " ++ cause.message
  | settings cause => "invalid configuration: " ++ cause.message
  | unknownFormat name => TokenFormat.unknownMessage name

/-- The words of the error behind an error, if there is one. -/
def source? : CommandError → Option String
  | unreadable _ cause => some cause.message
  | settings cause => some cause.message
  | unknownFormat _ => none

end CommandError

/-- Why a program ended before its work was done. -/
inductive Failure where
  | error (cause : CommandError)
  | overflow (cause : Overflow)
deriving DecidableEq

namespace Failure

/-- The status that a program ends with. -/
def status : Failure → Nat
  | error _ => 2
  | overflow _ => 101

/-- What a program says at its end. -/
def message : Failure → String
  | error cause => "Error: " ++ cause.message
  | overflow cause => cause.message

end Failure

namespace SourceText

/-- The path that stands for the standard input. -/
def standardInput : String := "-"

/-- The name of the standard input in messages. -/
def standardLabel : String := "<stdin>"

/-- Reads a path; one path stands for the standard input. -/
def read (files : FileView) (input : ByteArray) (path : String) :
    Except CommandError SourceText :=
  let (label, text) := if path = standardInput then
      (standardLabel, FileView.readText (fun _ => .ok input) path)
    else (path, files.readText path)
  match text with
  | .ok text => .ok ⟨label, text⟩
  | .error cause => .error (.unreadable label cause)

/-- The scan of a text under settings. -/
def scan (s : SourceText) (settings : Settings) : Except Overflow Scan :=
  Scan.ofText s.text settings.folding.scanOptions

end SourceText

namespace Command

/-- A JSON value as a document of its own. -/
def document (v : Json) : String := v.pretty ++ "\n"

/-- The tokens of a scan, with white space or without. -/
def selected (s : Scan) (whitespace : Bool) : List Token :=
  if whitespace then s.tokens else s.significantTokens

/-- Tokens in a format. -/
def render (ix : LineIndex) (ts : List Token) : TokenFormat → String
  | .table => Report.table ix ts
  | .simple => detokenize ts
  | .json => document (Json.ofList Token.toJson ts)

/-- Lists the tokens of a scan. -/
def tokens (s : Scan) (format : TokenFormat) (whitespace : Bool) : String :=
  render s.index (selected s whitespace) format

/-- An outline with its findings, or without them. -/
def withFindings (reported : Bool) (s : Outline) : Outline :=
  if reported then s else { s with diagnostics := [] }

/-- Prints the outline of a scan. -/
def outline (s : Scan) (settings : Settings) : String :=
  document (withFindings settings.diagnostics.structural s.outline).toJson

/-- Reports what is wrong with a text. -/
def check (label : String) (s : Scan) (settings : Settings) : Report.Check :=
  Report.check label (s.reported settings.diagnostics)

/-- Prints what an editor needs to know of the language. -/
def language : String := document Language.contract.toJson

end Command

end ContractScan
