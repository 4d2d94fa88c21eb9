import ContractScan.Rpc.Serve
import ContractScan.Terminal

/-
  The program. Under its own name it runs a command line and ends; under the name of the service
  it answers messages until its input ends.
-/

namespace ContractScan.Main

/-! ## Looking around -/

/-- The number under which a system reports a step through something that is no folder. -/
def notFolderCode : UInt32 := 20

/-- The reason for which the system refused a path. Some numbers come with a sign. -/
def fileError : IO.Error → FileError
  | .noFileOrDirectory _ _ _ => .missing
  | .inappropriateType _ code _ =>
    if code = notFolderCode ∨ code = -notFolderCode then .notFolder else .isFolder
  | e => .refused (toString e)

/-- The bytes of a file, or why there are none. -/
def readFile (path : String) : IO (Except FileError ByteArray) := do
  match ← (IO.FS.readBinFile path).toBaseIO with
  | .ok bytes => return .ok bytes
  | .error e => return .error (fileError e)

/-- The files at some paths. -/
def look (paths : List String) : IO FileView := do
  let found ← paths.mapM fun path => do return (path, ← readFile path)
  return fun path => (found.lookup path).getD (.error .missing)

/-- All bytes that a stream still has, after those read so far. -/
partial def readAll (stream : IO.FS.Stream) (bytes : ByteArray) : IO ByteArray := do
  let more ← stream.read 65536
  if more.isEmpty then return bytes else readAll stream (bytes ++ more)

/-- The variables that choose what is logged. -/
def variableNames : List String := ["GRISHEX_LOG", "RUST_LOG", "GRISHEX_LOG_FORMAT"]

/-- What the program finds around it, where it may look at some paths. -/
def surroundings (paths : List String) (input : ByteArray) : IO Surroundings := do
  let values ← variableNames.mapM fun name => do return (name, ← IO.getEnv name)
  return ⟨← look paths, input, fun name => (values.lookup name).join⟩

/-! ## Speaking -/

/-- Writes what a run logged and why it failed. -/
def complain (w : Surroundings) (log : List Log.Event) (failure : Option Failure) : IO Unit := do
  for e in log do
    match w.logFormat with
    | .text => IO.eprintln e.toText
    | .json => IO.eprintln e.toJson.compact
  if let some f := failure then IO.eprintln f.message

/-- Writes a message as a frame. -/
def send (stream : IO.FS.Stream) (message : Json) : IO Unit := do
  stream.write (Rpc.frame message)
  stream.flush

/-! ## The terminal -/

/-- Runs a command line. -/
def terminal (args : List String) : IO UInt32 := do
  let paths := Terminal.paths args
  let stdin ← IO.getStdin
  let input ← if paths.contains SourceText.standardInput then readAll stdin ⟨#[]⟩ else pure ⟨#[]⟩
  let w ← surroundings paths input
  match Terminal.run? w args with
  | none =>
    IO.eprint Terminal.usage
    return 2
  | some outcome =>
    IO.print outcome.output
    complain w outcome.log outcome.failure
    return outcome.status.toUInt32

/-! ## The service -/

/-- The bytes of a line up to its line feed, after those read so far. -/
partial def readLine (stream : IO.FS.Stream) (line : ByteArray) : IO (Option ByteArray) := do
  let more ← stream.read 1
  match more.toList with
  | [] => return none
  | b :: _ => if b = 10 then return some line else readLine stream (line.push b)

/-- The lines up to the first empty one, after those read so far. -/
partial def readHeader (stream : IO.FS.Stream) (lines : List (List UInt8)) :
    IO (Option (List (List UInt8))) := do
  match ← readLine stream ⟨#[]⟩ with
  | none => return none
  | some line =>
    if Rpc.isEmptyLine line.toList then return some lines.reverse
    else readHeader stream (line.toList :: lines)

/-- Some more bytes, after those read so far. -/
partial def readBytes (stream : IO.FS.Stream) (n : Nat) (bytes : ByteArray) : IO ByteArray := do
  if n ≤ bytes.size then return bytes
  let more ← stream.read (n - bytes.size).toUSize
  if more.isEmpty then return bytes else readBytes stream n (bytes ++ more)

/-- Answers messages until the input ends, and tells what stopped it, if anything did. -/
partial def converse (input output : IO.FS.Stream) (s : Rpc.Service) : IO (Option Failure) := do
  match ← readHeader input [] with
  | none => return none
  | some lines =>
    match Rpc.bodyLength? lines with
    | none =>
      (Rpc.strayFault .parse).forM (send output)
      return none
    | some n =>
      let body ← readBytes input n ⟨#[]⟩
      match Rpc.Turn.ofBody s body.toList with
      | .last messages =>
        messages.forM (send output)
        return none
      | .stopped e => return some (.overflow e)
      | .next s messages =>
        messages.forM (send output)
        converse input output s

/-- Runs the service. -/
def service : IO UInt32 := do
  let w ← surroundings (Settings.Layer.candidates Surroundings.projectFile) ⟨#[]⟩
  match Rpc.projectSettings w with
  | .error e =>
    let failure := Failure.error (.settings e)
    complain w (w.logged [Rpc.settingsEvent e]) (some failure)
    return failure.status.toUInt32
  | .ok settings =>
    let failure ← converse (← IO.getStdin) (← IO.getStdout) (Rpc.Service.start settings)
    complain w [] failure
    return ((failure.map Failure.status).getD 0).toUInt32

end ContractScan.Main

/-- Runs the service under its name, and the command line under any other. -/
def main (args : List String) : IO UInt32 := do
  let path ← IO.appPath
  if path.fileName = some ContractScan.Editor.serviceName then ContractScan.Main.service
  else ContractScan.Main.terminal args
