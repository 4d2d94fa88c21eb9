import ContractScan.Text.Digits

/-
  The command line. A verb says what to do and may be followed by a path. Options stand in
  front of the verb or after it, as `--name value`, `--name=value`, `-n value`, `-n=value` or
  `-nvalue`; those that every verb has may stand on both sides, and then the later one holds.
  After `--` there are only words.
-/

namespace ContractScan

/-- What is shown of the scan of a text. -/
inductive View where
  | tokens
  | outline
  | check
deriving DecidableEq

/-- What a run is asked for: a view of a text, or the description of the language. -/
inductive Verb where
  | view (v : View)
  | language
deriving DecidableEq

namespace Verb

/-- Every verb. -/
def all : List Verb := [view .tokens, view .outline, view .check, language]

/-- The word for a verb. -/
def word : Verb → String
  | view .tokens => "tokens"
  | view .outline => "structure"
  | view .check => "check"
  | language => "language"

/-- The verb of a word. -/
def ofWord? (s : String) : Option Verb := all.find? fun v => v.word = s

theorem ofWord?_word (v : Verb) : ofWord? v.word = some v := by
  rcases v with (_ | _ | _) | _ <;> decide

end Verb

/-! ## Options -/

/-- An option as it is given. -/
inductive Choice where
  | config (path : String)
  | tabSize (n : Nat)
  | format (name : String)
  | noWhitespace
  | version
  | help
deriving DecidableEq

/-- What follows the name of an option. -/
inductive OptionForm where
  /-- Nothing. -/
  | alone (c : Choice)
  /-- A value, which may be refused. -/
  | valued (read : String → Option Choice)

namespace OptionForm

/-- The tab size that a value gives: a number of 32 bits without a sign or with one. -/
def tabSize? (value : String) : Option Nat := do
  let n ← Text.signed? value.toList
  if 0 ≤ n ∧ n < 0x100000000 then some n.toNat else none

/-- The file with settings. -/
def config : OptionForm := valued fun v => some (.config v)

/-- The format of tokens. -/
def format : OptionForm := valued fun v => some (.format v)

/-- The option of a long name. -/
def ofName? : String → Option OptionForm
  | "config" => some config
  | "tab-size" => some (valued fun v => (tabSize? v).map .tabSize)
  | "format" => some format
  | "no-whitespace" => some (alone .noWhitespace)
  | "version" => some (alone .version)
  | "help" => some (alone .help)
  | _ => none

/-- The option of a letter. -/
def ofLetter? : Char → Option OptionForm
  | 'c' => some config
  | 'f' => some format
  | 'V' => some (alone .version)
  | 'h' => some (alone .help)
  | _ => none

end OptionForm

/-! ## Arguments -/

/-- One argument. -/
inductive Argument where
  | word (s : String)
  /-- The mark after which there are only words. -/
  | dashes
  | option (c : Choice)
  /-- An option whose value is the next argument. -/
  | opened (read : String → Option Choice)
  | bad

namespace Argument

/-- An option that was read, or nothing known. -/
def ofChoice : Option Choice → Argument
  | some c => option c
  | none => bad

/-- An option by its long name, with the value after the first equals sign. -/
def ofLong (name : String) (value : Option String) : Argument :=
  match OptionForm.ofName? name, value with
  | some (.alone c), none => option c
  | some (.valued read), some v => ofChoice (read v)
  | some (.valued read), none => opened read
  | _, _ => bad

/-- An option by its letter, with the value that follows at once. -/
def ofShort (letter : Char) (value : List Char) : Argument :=
  match OptionForm.ofLetter? letter, value with
  | some (.alone c), _ => option c
  | some (.valued read), [] => opened read
  | some (.valued read), '=' :: v => ofChoice (read (String.ofList v))
  | some (.valued read), v => ofChoice (read (String.ofList v))
  | none, _ => bad

/-- The argument that a text is. -/
def ofText (s : String) : Argument :=
  match s.toList with
  | ['-'] => word s
  | ['-', '-'] => dashes
  | '-' :: '-' :: r =>
    let name := String.ofList (r.takeWhile (· ≠ '='))
    match r.dropWhile (· ≠ '=') with
    | [] => ofLong name none
    | _ :: v => ofLong name (some (String.ofList v))
  | '-' :: letter :: v => ofShort letter v
  | _ => word s

end Argument

/-- A part of a command line that is understood by itself. -/
inductive Item where
  | word (s : String)
  | option (c : Choice)
  | dashes
  | bad

namespace Item

/-- The option that a separate value completes. What looks like an option is no value. -/
def ofValue (read : String → Option Choice) (s : String) : Item :=
  match Argument.ofText s with
  | .word v =>
    match read v with
    | some c => option c
    | none => bad
  | _ => bad

/-- The items of a command line, up to the first that is bad. -/
def ofArguments : List String → List Item
  | [] => []
  | a :: rest =>
    match Argument.ofText a, rest with
    | .word s, rest => .word s :: ofArguments rest
    | .option c, rest => .option c :: ofArguments rest
    | .dashes, rest => .dashes :: rest.map .word
    | .opened read, v :: rest => .ofValue read v :: ofArguments rest
    | .opened _, [] => [.bad]
    | .bad, _ => [.bad]

end Item

/-! ## Command lines -/

/-- The options of a run. -/
structure Options where
  config : Option String
  tabSize : Option Nat
  format : Option String
  noWhitespace : Bool
deriving DecidableEq

namespace Options

/-- No options. -/
def none : Options := ⟨.none, .none, .none, false⟩

/-- Options on both sides of the verb; those after it hold. -/
def orElse (after before : Options) : Options :=
  ⟨after.config.or before.config, after.tabSize.or before.tabSize,
    after.format.or before.format, after.noWhitespace || before.noWhitespace⟩

end Options

/-- Why there is nothing to run. -/
inductive Halt where
  | usage
  | version
  | help
deriving DecidableEq

/-- What a run does. -/
inductive Task where
  /-- Prints a view of the text at a path. -/
  | view (v : View) (path : String)
  | describe
deriving DecidableEq

/-- What a run does, and under which options. -/
structure CommandLine where
  task : Task
  options : Options
deriving DecidableEq

/-- Whether an option may stand in front of the verb, or after it. -/
def Choice.belongs : Choice → Option Verb → Bool
  | config _, _ => true
  | tabSize _, _ => true
  | help, _ => true
  | version, verb => verb.isNone
  | format _, verb => verb = some (.view .tokens)
  | noWhitespace, verb => verb = some (.view .tokens)

namespace CommandLine

/-- A value for an option that was not given yet. -/
def once {α : Type} (old : Option α) (v : α) : Except Halt (Option α) :=
  if old.isSome then throw .usage else return some v

/-- Options with one more. -/
def choose (o : Options) : Choice → Except Halt Options
  | .config p => do return { o with config := ← once o.config p }
  | .tabSize n => do return { o with tabSize := ← once o.tabSize n }
  | .format f => do return { o with format := ← once o.format f }
  | .noWhitespace => if o.noWhitespace then throw .usage else return { o with noWhitespace := true }
  | .version => throw .version
  | .help => throw .help

/-- Options with one more that may stand on this side of the verb. -/
def chooseAt (verb : Option Verb) (o : Options) (c : Choice) : Except Halt Options :=
  if c.belongs verb then choose o c else throw .usage

/-- The task of a verb with the path that follows it, if that is all. -/
def taskOf (verb : Verb) (path : Option String) : Except Halt Task :=
  match verb, path with
  | .view v, some path => return .view v path
  | .language, none => return .describe
  | _, _ => throw .usage

/-- A path behind a verb: the first one, for a verb that has one. -/
def pathFor (verb : Verb) (path : Option String) (s : String) : Except Halt (Option String) :=
  if verb = .language then throw .usage else once path s

/-- Reads what follows a verb, from a path and options given so far. -/
def afterVerb (verb : Verb) (path : Option String) (o : Options) :
    List Item → Except Halt CommandLine
  | [] => do return ⟨← taskOf verb path, o⟩
  | .word s :: rest => do afterVerb verb (← pathFor verb path s) o rest
  | .option c :: rest => do afterVerb verb path (← chooseAt (some verb) o c) rest
  | .dashes :: rest => afterVerb verb path o rest
  | .bad :: _ => throw .usage

/-- Reads what asks for help about a verb. -/
def askedHelp : List Item → Halt
  | [] => .help
  | [.word s] => if s = "help" ∨ (Verb.ofWord? s).isSome then .help else .usage
  | _ => .usage

/-- Reads a command line, from options given so far. -/
def beforeVerb (o : Options) : List Item → Except Halt CommandLine
  | .option c :: rest => do beforeVerb (← chooseAt none o c) rest
  | .word s :: rest =>
    if s = "help" then throw (askedHelp rest)
    else
      match Verb.ofWord? s with
      | some verb => do
        let line ← afterVerb verb none Options.none rest
        return { line with options := line.options.orElse o }
      | none => throw .usage
  | _ => throw .usage

/-- Reads a command line. -/
def parse (args : List String) : Except Halt CommandLine := beforeVerb Options.none (Item.ofArguments args)

end CommandLine

end ContractScan
