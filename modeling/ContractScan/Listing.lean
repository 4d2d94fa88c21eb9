import ContractScan.Text.Quoted
import ContractScan.Token

/-
  Tokens as text for people: one line per token.
-/

namespace ContractScan.Token

/-- A token with its kind, its quoted text and its characters. -/
def toText (t : Token) : String :=
  s!"{t.kind.name}({Text.Quoted.encode t.lexeme})@{t.start}..{t.stop}"

/-- A token as a line of a listing. -/
def toLine (t : Token) : String :=
  s!"{t.kind.name} {Text.Quoted.encode t.lexeme} {t.start}..{t.stop}"

/-- A listing of tokens. -/
def dump (ts : List Token) : String := "\n".intercalate (ts.map toLine)

end ContractScan.Token
