import ContractScan.Editor.Session
import ContractScan.Json

/-
  The JSON forms of what goes to an editor.
-/

namespace ContractScan.Editor

open Json (nat int string bool object ofList ofOption)

/-- The name by which the service makes itself known. -/
def serviceName : String := "grishex-lsp"

/-- The version of the service. -/
def serviceVersion : String := "0.1.0"

def WirePosition.toJson (p : WirePosition) : Json :=
  object [("line", nat p.line), ("character", nat p.character)]

def WireRange.toJson (r : WireRange) : Json :=
  object [("start", r.start.toJson), ("end", r.stop.toJson)]

/-- The number of a severity among editors. -/
def severityNumber : Severity → Nat
  | .error => 1
  | .warning => 2
  | .information => 3
  | .hint => 4

def WireDiagnostic.toJson (d : WireDiagnostic) : Json :=
  object [("range", d.range.toJson), ("severity", nat (severityNumber d.severity)),
    ("code", string d.code), ("source", string Diagnostic.source), ("message", string d.message)]

def FoldingRange.toJson (r : FoldingRange) : Json :=
  object ([("startLine", nat r.startLine), ("endLine", nat r.endLine)] ++
    match r.kind with
    | some k => [("kind", string k.name)]
    | none => [])

/-- The answer to a question for highlights. -/
def highlightsJson (ds : Option (List Delta)) : Json :=
  ofOption (fun ds => object [("data", ofList nat (ds.flatMap Delta.numbers))]) ds

/-- The answer to a question for folding ranges. -/
def rangesJson (rs : Option (List FoldingRange)) : Json :=
  ofOption (ofList FoldingRange.toJson) rs

/-- What the service can do, and its name. -/
def capabilities : Json :=
  object [
    ("capabilities", object [
      ("textDocumentSync", nat 1),
      ("foldingRangeProvider", bool true),
      ("semanticTokensProvider", object [
        ("full", bool true),
        ("legend", object [
          ("tokenTypes", ofList (fun k => string (HighlightKind.name k)) HighlightKind.legend),
          ("tokenModifiers", Json.array [])])])]),
    ("serverInfo", object [("name", string serviceName), ("version", string serviceVersion)])]

end ContractScan.Editor
