import ContractScan.Editor.Session
import ContractScan.Json

/-
  The parameters of the methods that the service knows. Parameters of the wrong shape are none.
-/

namespace ContractScan.Rpc

/-- Whether a character may stand in the scheme of an address after its first. -/
def isSchemeChar (c : Char) : Bool := c.isAlphanum || c == '+' || c == '-' || c == '.'

/-- Whether a text is the address of a document: it starts with a scheme and a colon. -/
def isAddress (s : String) : Bool :=
  match s.toList with
  | c :: r => c.isAlpha && (r.dropWhile isSchemeChar).head? = some ':'
  | [] => false

/-- The address in a field. -/
def address? (j : Json) (name : String) : Option String := do
  let s ← (← j.field? name).string?
  if isAddress s then some s else none

/-- A number of 32 bits with a sign. -/
def signedWord? (j : Json) : Option Int := do
  let n ← j.int?
  if -0x80000000 ≤ n ∧ n < 0x80000000 then some n else none

/-- A number of 32 bits without a sign. -/
def unsignedWord? (j : Json) : Option Nat := do
  let n ← j.nat?
  if n < 0x100000000 then some n else none

/-- Whether a value is a place in a document. -/
def isPosition (j : Json) : Bool :=
  ((j.field? "line").bind unsignedWord?).isSome &&
    ((j.field? "character").bind unsignedWord?).isSome

/-- Whether a value is a range of a document. -/
def isRange (j : Json) : Bool :=
  (j.field? "start").any isPosition && (j.field? "end").any isPosition

/-- The address of the document that parameters speak of. -/
def document? (params : Json) : Option String := do address? (← params.field? "textDocument") "uri"

/-- Whether parameters speak of a place in a document. -/
def isPlace (params : Json) : Bool :=
  (document? params).isSome && (params.field? "position").any isPosition

/-- A document that is opened. -/
def opened? (params : Json) : Option Editor.Event := do
  let d ← params.field? "textDocument"
  let uri ← address? d "uri"
  let _ ← (← d.field? "languageId").string?
  let version ← signedWord? (← d.field? "version")
  let text ← (← d.field? "text").string?
  return .opened uri version text

/-- Whether a field is missing, null, or as it should be. -/
def isOptional (ok : Json → Bool) (j : Json) (name : String) : Bool :=
  match j.field? name with
  | none => true
  | some .null => true
  | some v => ok v

/-- The text of a change. -/
def changeText? (j : Json) : Option String := do
  let text ← (← j.field? "text").string?
  let rangeLength := isOptional (fun v => (unsignedWord? v).isSome) j "rangeLength"
  if isOptional isRange j "range" && rangeLength then some text else none

/-- A document that is changed. -/
def changed? (params : Json) : Option Editor.Event := do
  let d ← params.field? "textDocument"
  let uri ← address? d "uri"
  let version ← signedWord? (← d.field? "version")
  let texts ← (← (← params.field? "contentChanges").array?).mapM changeText?
  return .changed uri version texts

/-- A document that is closed. -/
def closed? (params : Json) : Option Editor.Event := do return .closed (← document? params)

/-- Whether parameters say what an editor can do. -/
def isGreeting (params : Json) : Bool :=
  (params.field? "capabilities").any fun c => c.object?.isSome

end ContractScan.Rpc
