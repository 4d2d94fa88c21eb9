import ContractScan.Editor.Encode
import ContractScan.Json

/-
  Messages of JSON-RPC 2.0. A request has an identifier and gets an answer; a notification has
  none and gets none.
-/

namespace ContractScan.Rpc

open Json (nat int string object null)

/-- The identifier of a request. -/
inductive Id where
  | number (n : Int)
  | text (s : String)
  | null
deriving DecidableEq

/-- The identifier that a JSON value is. -/
def Id.ofJson? : Json → Option Id
  | .number (.whole n) => if -0x8000000000000000 ≤ n ∧ n < 0x8000000000000000 then some (.number n) else none
  | .string s => some (.text s)
  | .null => some .null
  | _ => none

def Id.toJson : Id → Json
  | number n => int n
  | text s => string s
  | null => Json.null

/-- A request, or a notification where the identifier is missing. -/
structure Message where
  method : String
  id : Option Id
  params : Option Json

/-- A value that is missing or null. -/
def present (v : Option Json) : Option Json :=
  match v with
  | some .null => none
  | v => v

/-- The message that a JSON value is. -/
def Message.ofJson? (j : Json) : Option Message :=
  if (j.field? "jsonrpc").bind Json.string? ≠ some "2.0" then none
  else
    match (j.field? "method").bind Json.string?, j.field? "id" with
    | none, _ => none
    | some method, none => some ⟨method, none, present (j.field? "params")⟩
    | some method, some id =>
      (Id.ofJson? id).map fun id => ⟨method, some id, present (j.field? "params")⟩

/-- Whether a JSON value is the answer to a request. -/
def isAnswer (j : Json) : Bool :=
  (j.field? "jsonrpc").bind Json.string? = some "2.0" && (j.field? "method").isNone &&
    (j.field? "id").isSome && ((j.field? "result").isSome || (j.field? "error").isSome)

/-- Why a request fails. -/
inductive Fault where
  | parse
  | invalidRequest
  /-- No such method; the name is given where nothing at all is known of it. -/
  | methodNotFound (name : Option String)
  | invalidParams
  | notReady
deriving DecidableEq

/-- The number of a fault. -/
def Fault.code : Fault → Int
  | parse => -32700
  | invalidRequest => -32600
  | methodNotFound _ => -32601
  | invalidParams => -32602
  | notReady => -32002

/-- A fault in words. -/
def Fault.message : Fault → String
  | parse => "Parse error"
  | invalidRequest => "Invalid request"
  | methodNotFound _ => "Method not found"
  | invalidParams => "Invalid params"
  | notReady => "Server not initialized"

def Fault.toJson (f : Fault) : Json :=
  object ([("code", int f.code), ("message", string f.message)] ++
    match f with
    | methodNotFound (some name) => [("data", string name)]
    | _ => [])

/-- What comes back for a message. -/
inductive Reply where
  /-- Nothing comes back. -/
  | silence
  | result (id : Id) (value : Json)
  | fault (id : Id) (f : Fault)
  /-- The service has ended and takes no messages. -/
  | gone

/-- The message that carries a reply. -/
def Reply.toJson? : Reply → Option Json
  | silence => none
  | gone => none
  | result id value =>
    some (object [("jsonrpc", string "2.0"), ("result", value), ("id", id.toJson)])
  | fault id f => some (object [("jsonrpc", string "2.0"), ("error", f.toJson), ("id", id.toJson)])

/-- A fault for a request; nothing for a notification. -/
def Reply.faultFor (id : Option Id) (f : Fault) : Reply :=
  match id with
  | some id => fault id f
  | none => silence

/-- The notification that publishes diagnostics. -/
def publication (p : Editor.Published) : Json :=
  object [("jsonrpc", string "2.0"), ("method", string "textDocument/publishDiagnostics"),
    ("params", object ([("uri", string p.uri),
      ("diagnostics", Json.ofList Editor.WireDiagnostic.toJson p.diagnostics)] ++
      match p.version with
      | some v => [("version", int v)]
      | none => []))]

end ContractScan.Rpc
