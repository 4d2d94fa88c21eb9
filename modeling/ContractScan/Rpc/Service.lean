import ContractScan.Rpc.Message
import ContractScan.Rpc.Method

/-
  The life of the service: it waits for a greeting, works until it is told to stop, and ends.
  Only while it works does it look at documents, and only a document can stop it midway.
-/

namespace ContractScan.Rpc

/-- Where the service stands in its life. -/
inductive Phase where
  | waiting
  | working
  | stopped
  | ended
deriving DecidableEq

/-- The service: its phase and its documents. -/
structure Service where
  phase : Phase
  session : Editor.Session

namespace Service

/-- A service that waits for a greeting. -/
def start (settings : Settings) : Service := ⟨.waiting, .start settings⟩

/-- What a message does to the service, what comes back for it, and what is published. -/
structure Step where
  service : Service
  reply : Reply
  published : List Editor.Published

/-- A step that changes nothing and publishes nothing. -/
def answer (s : Service) (reply : Reply) : Step := ⟨s, reply, []⟩

/-- The fault of a request to a service that does not work. -/
def idleFault (s : Service) : Fault :=
  if s.phase = .waiting then .notReady else .invalidRequest

/-- A greeting. The service works from the first one on that is a request and complete. -/
def greet (s : Service) (m : Message) : Step :=
  match s.phase, m.id with
  | .waiting, none => s.answer .silence
  | .waiting, some id =>
    if m.params.any isGreeting then
      { s with phase := .working }.answer (.result id Editor.capabilities)
    else s.answer (.fault id .invalidParams)
  | _, id => s.answer (.faultFor id .invalidRequest)

/-- The request to stop. It stops the service in whatever shape it comes. -/
def shutdown (s : Service) (m : Message) : Step :=
  if s.phase = .working then
    let stopped := { s with phase := .stopped }
    match m.id, m.params with
    | none, _ => stopped.answer .silence
    | some id, none => stopped.answer (.result id Json.null)
    | some id, some _ => stopped.answer (.fault id .invalidParams)
  else s.answer (.faultFor m.id s.idleFault)

/-- A question about a document. -/
def ask (s : Service) (m : Message) (question : Editor.Session → String → Json) : Step :=
  match m.id with
  | none => s.answer .silence
  | some id =>
    match m.params.bind document? with
    | some uri => s.answer (.result id (question s.session uri))
    | none => s.answer (.fault id .invalidParams)

/-- A notification about a document. -/
def tell (s : Service) (m : Message) (read : Json → Option Editor.Event) :
    Except Overflow Step :=
  match m.id, m.params.bind read with
  | some id, _ => .ok (s.answer (.fault id .invalidRequest))
  | none, none => .ok (s.answer .silence)
  | none, some e => do
    let (session, published) ← s.session.apply e
    return ⟨{ s with session := session }, .silence, published⟩

/-- A request that is known but not served. -/
def refuse (s : Service) (m : Message) (demand : Demand) : Step :=
  if m.params.any demand.accepts then s.answer (.faultFor m.id (.methodNotFound none))
  else s.answer (.faultFor m.id .invalidParams)

/-- A method that nothing is known of. Names that start like `$/` may be passed over. -/
def unknown (s : Service) (m : Message) : Step :=
  if m.method.startsWith "$/" then s.answer .silence
  else s.answer (.faultFor m.id (.methodNotFound (some m.method)))

/-- A message about documents. -/
def work (s : Service) (m : Message) : Method → Except Overflow Step
  | .document read => s.tell m read
  | .highlights =>
    .ok (s.ask m fun session uri => Editor.highlightsJson (session.highlightDeltas uri))
  | .ranges => .ok (s.ask m fun session uri => Editor.rangesJson (session.ranges uri))
  | .unserved demand => .ok (s.refuse m demand)
  | _ => .ok (s.answer (.faultFor m.id .invalidRequest))

/-- Takes in a message. -/
def handle (s : Service) (m : Message) : Except Overflow Step :=
  if s.phase = .ended then .ok (s.answer .gone)
  else
    match Method.ofName m.method with
    | .greet => .ok (s.greet m)
    | .shutdown => .ok (s.shutdown m)
    | .exit => .ok ({ s with phase := .ended }.answer .silence)
    | .unknown => .ok (s.unknown m)
    | method =>
      if s.phase = .working then s.work m method
      else .ok (s.answer (.faultFor m.id s.idleFault))

/-- Takes in a JSON value, if it is a message. An answer to a request is passed over. -/
def handleJson (s : Service) (j : Json) : Except Overflow (Option Step) :=
  match Message.ofJson? j with
  | some m => do return some (← s.handle m)
  | none => .ok (if isAnswer j then some (s.answer .silence) else none)

/-- The messages that a step sends, the reply first. -/
def Step.messages (t : Step) : List Json := t.reply.toJson?.toList ++ t.published.map publication

end Service

end ContractScan.Rpc
