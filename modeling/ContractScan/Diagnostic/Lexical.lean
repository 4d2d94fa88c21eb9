import ContractScan.Diagnostic
import ContractScan.Text.Quoted

/-
  The diagnostics of single tokens: one for every token whose kind is an error.
-/

namespace ContractScan.Diagnostic

/-- What is wrong with a token, if its kind is an error. -/
def problem? (t : Token) : Option (DiagnosticKind × String) :=
  match t.kind with
  | .invalidString =>
    some (.unterminatedString, "string literal is not closed before the end of the line")
  | .invalid => some (.invalidCharacter, "unexpected character " ++ Text.Quoted.encode t.lexeme)
  | .unrecognized => some (.unrecognizedOperator, "`" ++ t.lexeme ++ "` is not an operator")
  | _ => none

theorem isSome_problem? (t : Token) : (problem? t).isSome = t.kind.isError := by
  unfold problem?
  cases t.kind <;> rfl

/-- The findings about single tokens, in their order. -/
def lexical (tokens : List Token) (ix : LineIndex) : List Diagnostic :=
  tokens.filterMap fun t => (problem? t).map fun (kind, message) =>
    ofKind kind (ix.rangeOf t) message

end ContractScan.Diagnostic
