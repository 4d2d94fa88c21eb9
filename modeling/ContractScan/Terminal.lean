import ContractScan.CommandLine
import ContractScan.Log.Scanning
import ContractScan.Settings.Layer
import ContractScan.Surroundings

/-
  A run of the program in a terminal. The settings are read first, then the text, then the name
  of the format; the first that fails ends the run. A scan that does not come to its end stops
  the program where it is, and by then only the tokens have been logged.
-/

namespace ContractScan

/-- What a run leaves behind. -/
structure Outcome where
  status : Nat
  output : String
  failure : Option Failure
  log : List Log.Event

namespace Outcome

/-- The end of a run that failed, after it had logged something. -/
def failed (f : Failure) (log : List Log.Event) : Outcome := ⟨f.status, "", some f, log⟩

/-- The end of a run that printed something and logged nothing. -/
def printed (output : String) : Outcome := ⟨0, output, none, []⟩

end Outcome

namespace Terminal

/-- The name and version of the program. -/
def versionLine : String := "grishex 0.1.0\n"

/-- How the program is called. -/
def usage : String :=
  "Usage: grishex [OPTIONS] <COMMAND>\n\n" ++
  "Commands:\n" ++
  "  tokens <path>     Print the token stream\n" ++
  "  structure <path>  Print bracket pairs, fold ranges and structural diagnostics as JSON\n" ++
  "  check <path>      Report diagnostics; exits with 1 when any error is found\n" ++
  "  language          Print the language configuration as JSON\n\n" ++
  "Options:\n" ++
  "  -c, --config <FILE>    Settings over those of ./grishex.toml\n" ++
  "      --tab-size <N>     Columns from one tab stop to the next\n" ++
  "  -f, --format <FORMAT>  Format of tokens: table, simple or json\n" ++
  "      --no-whitespace    Leave white space out of tokens\n" ++
  "  -h, --help             Print help\n" ++
  "  -V, --version          Print version\n"

/-- The layers of settings that options ask for, over those of the project. -/
def layers (o : Options) : List Settings.Layer :=
  .file Surroundings.projectFile false ::
    ((o.config.map fun path => Settings.Layer.file path true).toList ++
      (o.tabSize.map fun n => Settings.Layer.value "folding.tab_size" (.integer n)).toList)

/-- The settings of a run. -/
def settings (w : Surroundings) (o : Options) : Except CommandError Settings :=
  match Settings.load w.files (layers o) with
  | .ok s => .ok s
  | .error e => .error (.settings e)

/-- The format of tokens: the one that is asked for, or that of the settings. -/
def format (o : Options) (s : Settings) : Except CommandError TokenFormat :=
  match o.format with
  | none => .ok s.format
  | some name =>
    match TokenFormat.ofName? name with
    | some f => .ok f
    | none => .error (.unknownFormat name)

/-- What a view of a scan prints, and with which status the run ends. -/
def present (v : View) (format : TokenFormat) (o : Options) (s : Settings) (label : String)
    (scan : Scan) : String × Nat :=
  match v with
  | .tokens => (Command.tokens scan format (!o.noWhitespace), 0)
  | .outline => (Command.outline scan s, 0)
  | .check =>
    let report := Command.check label scan s
    (report.output, if report.hasErrors then 1 else 0)

/-- A view of the text at a path. -/
def showView (w : Surroundings) (o : Options) (v : View) (path : String) :
    Except CommandError Outcome := do
  let s ← settings w o
  let source ← SourceText.read w.files w.input path
  -- No view but that of the tokens has the option, so for the others nothing fails here.
  let format ← format o s
  match source.scan s with
  | .error e => return .failed (.overflow e) (w.logged (Log.ofTokens (tokenize source.text)))
  | .ok scan =>
    let (output, status) := present v format o s source.label scan
    return ⟨status, output, none, w.logged (Log.ofScan source scan)⟩

/-- A run. The description of the language needs no settings. -/
def runLine (w : Surroundings) (line : CommandLine) : Outcome :=
  match line.task with
  | .describe => .printed Command.language
  | .view v path =>
    match showView w line.options v path with
    | .ok outcome => outcome
    | .error e => .failed (.error e) []

/-- The paths that a run with arguments may look at. -/
def paths (args : List String) : List String :=
  match CommandLine.parse args with
  | .ok ⟨.view _ path, o⟩ =>
    path :: (Surroundings.projectFile :: o.config.toList).flatMap Settings.Layer.candidates
  | _ => []

/-- A run with arguments; nothing where they are no command line. -/
def run? (w : Surroundings) (args : List String) : Option Outcome :=
  match CommandLine.parse args with
  | .ok line => some (runLine w line)
  | .error .version => some (.printed versionLine)
  | .error .help => some (.printed usage)
  | .error .usage => none

end Terminal

end ContractScan
