import ContractScan.Lines

/-
  Diagnostics: what is wrong with a text, where, and how much it matters.
-/

namespace ContractScan

/-- How much a diagnostic matters. -/
inductive Severity where
  | error
  | warning
  | information
  | hint
deriving DecidableEq

namespace Severity

/-- Every severity, the gravest first. -/
def all : List Severity := [error, warning, information, hint]

/-- The full name of a severity. -/
def name : Severity → String
  | error => "error"
  | warning => "warning"
  | information => "information"
  | hint => "hint"

/-- The short word for a severity in messages. -/
def word : Severity → String
  | information => "info"
  | s => s.name

end Severity

/-- What a diagnostic is about. -/
inductive DiagnosticKind where
  | unmatchedCloser
  | unmatchedOpener
  | unterminatedRegion
  | unmatchedEndRegion
  | unterminatedString
  | invalidCharacter
  | unrecognizedOperator
deriving DecidableEq

namespace DiagnosticKind

/-- Every kind, those of the structure first. -/
def all : List DiagnosticKind :=
  [unmatchedCloser, unmatchedOpener, unterminatedRegion, unmatchedEndRegion, unterminatedString,
    invalidCharacter, unrecognizedOperator]

/-- The code by which editors and messages know a kind. -/
def code : DiagnosticKind → String
  | unmatchedCloser => "unmatched-closer"
  | unmatchedOpener => "unmatched-opener"
  | unterminatedRegion => "unterminated-region"
  | unmatchedEndRegion => "unmatched-endregion"
  | unterminatedString => "unterminated-string"
  | invalidCharacter => "invalid-character"
  | unrecognizedOperator => "unrecognized-operator"

/-- The name of a kind in structured output, where all its words are set apart. -/
def name : DiagnosticKind → String
  | unmatchedEndRegion => "unmatched-end-region"
  | k => k.code

/-- The severity of a kind: region markers warn, all else is an error. -/
def severity : DiagnosticKind → Severity
  | unterminatedRegion | unmatchedEndRegion => .warning
  | _ => .error

/-- Whether a kind speaks of the structure of a text, and not of one token. -/
def isStructural : DiagnosticKind → Bool
  | unmatchedCloser | unmatchedOpener | unterminatedRegion | unmatchedEndRegion => true
  | _ => false

end DiagnosticKind

/-- A finding in a text. -/
structure Diagnostic where
  range : Range
  severity : Severity
  kind : DiagnosticKind
  message : String
deriving DecidableEq

namespace Diagnostic

/-- The program that every diagnostic names as its source. -/
def source : String := "grishex"

/-- A finding with the severity of its kind. -/
def ofKind (kind : DiagnosticKind) (range : Range) (message : String) : Diagnostic :=
  ⟨range, kind.severity, kind, message⟩

/-- Whether a finding is an error. -/
def isError (d : Diagnostic) : Bool := d.severity = .error

/-- A finding as one line of text. -/
def toText (d : Diagnostic) : String :=
  s!"{d.severity.word}[{d.kind.code}]: {d.message} at {d.range.start.toText}"

/-- Whether a finding may stand in front of another: by start, then by end, then by code. -/
def inOrder (a b : Diagnostic) : Bool :=
  a.range.start.before b.range.start ||
    (a.range.start == b.range.start &&
      (a.range.stop.before b.range.stop ||
        (a.range.stop == b.range.stop && decide (a.kind.code ≤ b.kind.code))))

/-- Findings in order; those that tie keep their order. -/
def sort (ds : List Diagnostic) : List Diagnostic := ds.mergeSort inOrder

theorem sort_perm (ds : List Diagnostic) : (sort ds).Perm ds := List.mergeSort_perm ds inOrder

end Diagnostic

end ContractScan
