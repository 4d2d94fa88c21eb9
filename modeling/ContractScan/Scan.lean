import ContractScan.Diagnostic.Lexical
import ContractScan.Outline
import ContractScan.Tokenize

/-
  A scan: all that is known of a text after one reading.
-/

namespace ContractScan

/-- The tokens of a text, its outline, and its lines. -/
structure Scan where
  tokens : List Token
  outline : Outline
  index : LineIndex

namespace Scan

/-- The scan of a text. -/
def ofText (text : String) (o : ScanOptions) : Except Overflow Scan := do
  let index := LineIndex.ofText text
  let tokens := tokenize text
  return ⟨tokens, ← Outline.ofTokens tokens index o, index⟩

/-- The findings about single tokens. -/
def lexicalDiagnostics (s : Scan) : List Diagnostic := Diagnostic.lexical s.tokens s.index

/-- All findings, in order. -/
def diagnostics (s : Scan) : List Diagnostic :=
  Diagnostic.sort (s.lexicalDiagnostics ++ s.outline.diagnostics)

/-- The tokens other than white space. -/
def significantTokens (s : Scan) : List Token := s.tokens.filter Token.isSignificant

end Scan

end ContractScan
