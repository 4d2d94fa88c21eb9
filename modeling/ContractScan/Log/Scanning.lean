import ContractScan.Command
import ContractScan.Log
import ContractScan.Reader

/-
  What is logged about a scan: every change of mode while the text is read, the sizes of what
  was found, and the name of the text.
-/

namespace ContractScan.Log

/-- A change of mode. -/
def Event.ofModeChange (c : ModeChange) : Event :=
  ⟨.trace, "grishex_lexer::lexing::scanner", "lexer state transition",
    [("from", .text c.before.name), ("to", .text c.after.name), ("offset", .number c.offset)]⟩

/-- The sizes of what a scan found. -/
def Event.ofSizes (bytes : Nat) (s : Scan) : Event :=
  ⟨.debug, "grishex_lexer::pipeline", "scanned document",
    [("bytes", .number bytes), ("tokens", .number s.tokens.length),
      ("bracket_pairs", .number s.outline.brackets.length),
      ("folds", .number s.outline.folds.length),
      ("diagnostics", .number s.outline.diagnostics.length)]⟩

/-- The end of the scan of a text with a name. -/
def Event.ofSource (label : String) (s : Scan) : Event :=
  ⟨.debug, "grishex::commands", "scanned input",
    [("input", .text label), ("tokens", .number s.tokens.length)]⟩

/-- What is logged while tokens are read. -/
def ofTokens (ts : List Token) : List Event :=
  (ts.flatMap Token.modeChanges).map Event.ofModeChange

/-- All that is logged about the scan of a text, in order. -/
def ofScan (source : SourceText) (s : Scan) : List Event :=
  ofTokens s.tokens ++
    [Event.ofSizes source.text.utf8ByteSize s, Event.ofSource source.label s]

end ContractScan.Log
