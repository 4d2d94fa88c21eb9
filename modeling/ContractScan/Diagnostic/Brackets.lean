import ContractScan.Bracket
import ContractScan.Diagnostic

/-
  The diagnostics of a nesting: one for every closer astray and one for every opener that
  nothing closes, in the order of the brackets in the text.
-/

namespace ContractScan.Diagnostic

/-- The message about a stray closer: the bracket that it does not close, or that none is open. -/
def strayMessage (ix : LineIndex) (s : StrayCloser) : String :=
  match s.enclosing with
  | some o =>
    "`" ++ s.closer.lexeme ++ "` does not close `" ++ o.lexeme ++ "` opened at " ++
      (ix.position o.start).toText
  | none => "`" ++ s.closer.lexeme ++ "` has no matching opener"

/-- The finding about a stray closer. -/
def ofStray (ix : LineIndex) (s : StrayCloser) : Diagnostic :=
  ofKind .unmatchedCloser (ix.rangeOf s.closer) (strayMessage ix s)

/-- The finding about an opener that nothing closes. -/
def ofOpen (ix : LineIndex) (p : BracketPair) : Diagnostic :=
  ofKind .unmatchedOpener (ix.rangeOf p.opener) ("`" ++ p.opener.lexeme ++ "` is never closed")

/-- The findings about a nesting, by the first character of the bracket. -/
def brackets (m : Matching) (ix : LineIndex) : List Diagnostic :=
  let strays := m.strays.map fun s => (s.closer.start, ofStray ix s)
  let openers := m.unmatchedOpeners.map fun p => (p.opener.start, ofOpen ix p)
  ((strays ++ openers).mergeSort fun a b => decide (a.1 ≤ b.1)).map Prod.snd

end ContractScan.Diagnostic
