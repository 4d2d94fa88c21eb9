import ContractScan.Json.Printer
import ContractScan.Json.Reader
import ContractScan.Rpc.Service
import ContractScan.Text.Digits

/-
  Messages on a stream of bytes. Each has header lines, one of which gives its length in bytes,
  an empty line, and a body of that length.
-/

namespace ContractScan.Rpc

/-! ## Header lines -/

/-- The bytes before the first line feed and those after it. -/
def splitLine : List UInt8 → Option (List UInt8 × List UInt8)
  | [] => none
  | b :: r =>
    if b = 10 then some ([], r)
    else (splitLine r).map fun (line, rest) => (b :: line, rest)

theorem length_splitLine {bs line rest : List UInt8} (h : splitLine bs = some (line, rest)) :
    rest.length < bs.length := by
  induction bs generalizing line with
  | nil => simp [splitLine] at h
  | cons b r ih =>
    unfold splitLine at h
    split at h
    · simp only [Option.some.injEq, Prod.mk.injEq] at h
      simp [← h.2]
    · simp only [Option.map_eq_some_iff, Prod.mk.injEq] at h
      obtain ⟨⟨l, r'⟩, h1, _, rfl⟩ := h
      have := ih h1
      exact Nat.lt_succ_of_lt this

/-- Whether a line is empty but for a carriage return. -/
def isEmptyLine (line : List UInt8) : Bool := line = [] || line = [13]

/-- The lines up to the first empty one, and the bytes after that. -/
def headerLines (bs : List UInt8) : Option (List (List UInt8) × List UInt8) :=
  match h : splitLine bs with
  | none => none
  | some (line, rest) =>
    if isEmptyLine line then some ([], rest)
    else
      have : rest.length < bs.length := length_splitLine h
      (headerLines rest).map fun (lines, rest) => (line :: lines, rest)
termination_by bs.length

/-- What a header line gives. -/
inductive Header where
  | length (n : Nat)
  | charset (name : String)
  | other

/-- The character set that a content type names. -/
def charset? (contentType : String) : Option String :=
  ((contentType.splitOn ";").drop 1).findSome? fun part =>
    match part.trimAscii.toString.splitOn "charset=" with
    | ["", name] => some name
    | _ => none

/-- What a line gives, if it reads as a name and a value. -/
def Header.ofLine? (line : List UInt8) : Option Header := do
  let text ← String.fromUTF8? ⟨line.toArray⟩
  match text.splitOn ":" with
  | name :: value :: more =>
    let value := (":".intercalate (value :: more)).trimAscii.toString
    match name with
    | "Content-Length" => (Text.unsigned? value.toList).map .length
    | "Content-Type" => (charset? value).map .charset
    | _ => some .other
  | _ => none

/-- Whether a header leaves the body readable: no character set but one is understood. -/
def Header.isReadable : Header → Bool
  | .charset name => name = "utf-8" || name = "utf8"
  | _ => true

/-- The most lines a header may have. -/
def maxHeaderLines : Nat := 2

/-- The length that header lines give; the last one holds. -/
def bodyLength? (lines : List (List UInt8)) : Option Nat := do
  let headers ← lines.mapM Header.ofLine?
  if maxHeaderLines < headers.length || !headers.all Header.isReadable then none
  else (headers.filterMap fun | .length n => some n | _ => none).getLast?

/-! ## Frames -/

/-- The start of a stream: its end, a body with the bytes after it, or no message. -/
inductive Frame where
  | atEnd
  | body (bytes rest : List UInt8)
  | broken

/-- The frame at the start of a stream. A stream may end where a body should start. -/
def Frame.first (bs : List UInt8) : Frame :=
  if bs = [] then .atEnd
  else
    match headerLines bs with
    | none => .broken
    | some (lines, rest) =>
      match bodyLength? lines with
      | none => .broken
      | some n =>
        if n ≤ rest.length then .body (rest.take n) (rest.drop n)
        else if rest = [] then .atEnd
        else .broken

/-- The JSON value of a body. -/
def bodyJson? (bytes : List UInt8) : Option Json :=
  (String.fromUTF8? ⟨bytes.toArray⟩).bind Json.parse?

/-- A message with its header. -/
def frame (message : Json) : ByteArray :=
  let body := message.compact.toUTF8
  ("Content-Length: " ++ toString body.size ++ "\r\n\r\n").toUTF8 ++ body

/-! ## The conversation -/

/-- The fault of what is no message, sent without the identifier of a request. -/
def strayFault (f : Fault) : List Json := (Reply.fault .null f).toJson?.toList

/-- What a service makes of a body: the messages that it sends, and whether it goes on. -/
inductive Turn where
  | next (s : Service) (messages : List Json)
  | last (messages : List Json)
  /-- The service stops before it has sent anything. -/
  | stopped (cause : Overflow)

/-- The turn of a service after a body. An empty body is passed over, and what is no message
ends the work. -/
def Turn.ofBody (s : Service) (bytes : List UInt8) : Turn :=
  if bytes = [] then next s []
  else
    match bodyJson? bytes with
    | none => last (strayFault .parse)
    | some j =>
      match s.handleJson j with
      | .error e => stopped e
      | .ok none => last (strayFault .invalidRequest)
      | .ok (some t) => next t.service t.messages

/-- The messages that a service sends, and what stopped it, if anything did. -/
structure Conversation where
  messages : List Json
  overflow : Option Overflow

/-- What a service makes of a stream of bytes. The fuel bounds the number of frames. -/
def Service.converse (fuel : Nat) (s : Service) (bs : List UInt8) : Conversation :=
  match fuel with
  | 0 => ⟨[], none⟩
  | fuel + 1 =>
    match Frame.first bs with
    | .atEnd => ⟨[], none⟩
    | .broken => ⟨strayFault .parse, none⟩
    | .body bytes rest =>
      match Turn.ofBody s bytes with
      | .last messages => ⟨messages, none⟩
      | .stopped e => ⟨[], some e⟩
      | .next s messages =>
        let more := s.converse fuel rest
        ⟨messages ++ more.messages, more.overflow⟩

end ContractScan.Rpc
