import ContractScan.Text.Lowercase

/-
  Log events, and filters that choose among them. A filter is a list of rules; the rule with the
  longest target that starts the target of an event decides.
-/

namespace ContractScan.Log

/-- How much an event matters. -/
inductive Level where
  | error
  | warn
  | info
  | debug
  | trace
deriving DecidableEq

namespace Level

/-- The name of a level. -/
def name : Level → String
  | error => "ERROR"
  | warn => "WARN"
  | info => "INFO"
  | debug => "DEBUG"
  | trace => "TRACE"

/-- How much a level lets through: the more, the higher. -/
def rank : Level → Nat
  | error => 1
  | warn => 2
  | info => 3
  | debug => 4
  | trace => 5

end Level

/-- A value of a log event. -/
inductive FieldValue where
  | number (n : Nat)
  | text (s : String)

/-- What a program has to say about its work. -/
structure Event where
  level : Level
  target : String
  message : String
  fields : List (String × FieldValue)

/-! ## Filters -/

/-- A rule: events whose target starts with a text pass up to a rank. -/
structure Rule where
  target : String
  rank : Nat

/-- Rules of a filter. -/
abbrev Filter := List Rule

/-- The rank that a word lets through, in any case; `off` lets nothing through. -/
def rankOf? (word : String) : Option Nat :=
  match Text.lowercase word with
  | "off" => some 0
  | "error" => some 1
  | "warn" => some 2
  | "info" => some 3
  | "debug" => some 4
  | "trace" => some 5
  | "0" => some 0
  | "1" => some 1
  | "2" => some 2
  | "3" => some 3
  | "4" => some 4
  | "5" => some 5
  | _ => none

/-- Whether a character may stand in a target. -/
def isTargetChar (c : Char) : Bool := c.isAlphanum || c == '_' || c == ':' || c == '-'

/-- Whether a text is a target. -/
def isTarget (s : String) : Bool := s ≠ "" && s.toList.all isTargetChar

/-- The rule that a text writes: a rank for all events, a target for all ranks, or both. -/
def ruleOf? (s : String) : Option Rule :=
  match rankOf? s with
  | some rank => some ⟨"", rank⟩
  | none =>
    match s.splitOn "=" with
    | [target] => if isTarget target then some ⟨target, 5⟩ else none
    | [target, word] =>
      if !isTarget target then none
      else if word = "" then some ⟨target, 5⟩
      else (rankOf? word).map fun rank => ⟨target, rank⟩
    | _ => none

/-- The filter that a text writes; what is no rule is left out, and without any rule there is
the one for all events. -/
def Filter.parse (s : String) (otherwise : Nat) : Filter :=
  match (s.splitOn ",").filterMap ruleOf? with
  | [] => [⟨"", otherwise⟩]
  | rules => rules

/-- Whether the target of a rule starts a target. -/
def Rule.covers (r : Rule) (target : String) : Bool := target.startsWith r.target

/-- The rule of the two that decides: the longer target, or the later rule. -/
def Rule.better (r s : Rule) : Rule := if s.target.length < r.target.length then r else s

/-- The rank that a filter lets through for a target. -/
def Filter.rankFor (f : Filter) (target : String) : Nat :=
  match (f.filter fun r => r.covers target) with
  | [] => 0
  | r :: rules => (rules.foldl Rule.better r).rank

/-- Whether a filter lets an event through. -/
def Filter.passes (f : Filter) (e : Event) : Bool := e.level.rank ≤ f.rankFor e.target

/-! ## Formats -/

/-- How events are written. -/
inductive Format where
  | text
  | json
deriving DecidableEq

namespace Format

/-- The name of a format. -/
def name : Format → String
  | text => "text"
  | json => "json"

/-- The format of a name in any case; any name but that of JSON is text. -/
def ofName (s : String) : Format := if Text.lowercase s = "json" then json else text

end Format

end ContractScan.Log
