import ContractScan.Files
import ContractScan.Log.Written

/-
  What a program finds around it: files, its input, and variables, some of which choose what is
  logged and how.
-/

namespace ContractScan

/-- What a program may look at. -/
structure Surroundings where
  files : FileView
  input : ByteArray
  environment : String → Option String

namespace Surroundings

/-- The file with the settings of a project. -/
def projectFile : String := "grishex.toml"

/-- The filter that the variables choose. Without one nothing is logged; one that holds no rule
lets nothing through, or only errors. -/
def filter? (w : Surroundings) : Option Log.Filter :=
  match w.environment "GRISHEX_LOG", w.environment "RUST_LOG" with
  | some rules, _ => some (.parse rules 0)
  | none, some rules => some (.parse rules 1)
  | none, none => none

/-- The format that the variables choose. -/
def logFormat (w : Surroundings) : Log.Format :=
  Log.Format.ofName ((w.environment "GRISHEX_LOG_FORMAT").getD "")

/-- The events that are logged. -/
def logged (w : Surroundings) (es : List Log.Event) : List Log.Event :=
  match w.filter? with
  | some f => es.filter f.passes
  | none => []

end Surroundings

end ContractScan
