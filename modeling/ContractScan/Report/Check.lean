import ContractScan.Scan
import ContractScan.Settings

/-
  The report of a check: one line per finding, and a last line if none of them is an error.
-/

namespace ContractScan

/-- The findings of a scan that settings allow, in order. -/
def Scan.reported (s : Scan) (d : DiagnosticSettings) : List Diagnostic :=
  s.diagnostics.filter fun x => d.allows x.kind

namespace Report

/-- A finding as a line, as compilers print it: lines and columns count from one. -/
def checkLine (label : String) (d : Diagnostic) : String :=
  s!"{label}:{d.range.start.line + 1}:{d.range.start.column + 1}: {d.severity.word}" ++
    s!"[{d.kind.code}]: {d.message}\n"

/-- What a check prints, and whether it found an error. -/
structure Check where
  output : String
  hasErrors : Bool

/-- The report on findings. -/
def check (label : String) (ds : List Diagnostic) : Check :=
  let hasErrors := ds.any Diagnostic.isError
  ⟨String.join (ds.map (checkLine label)) ++ (if hasErrors then "" else "ok\n"), hasErrors⟩

end Report

end ContractScan
