import ContractScan.Text.Blank

/-
  String literals. A literal runs from its quote to the same quote on the same line. A backslash
  takes the next character with it, whatever that is; a carriage return and line feed after a
  backslash go together.
-/

namespace ContractScan.Lexeme

open ContractScan.Text (isLineBreak)

/-- What follows an opening mark, and whether the closing mark was met. -/
structure Body where
  chars : List Char
  closed : Bool

/-- A body with more characters in front of it. -/
def Body.after (cs : List Char) (b : Body) : Body := ⟨cs ++ b.chars, b.closed⟩

/-- The body of a string literal after its opening quote: up to and with the closing quote, or
up to the end of the line. -/
def literalBody (quote : Char) : List Char → Body
  | [] => ⟨[], false⟩
  | '\\' :: '\r' :: '\n' :: r => (literalBody quote r).after ['\\', '\r', '\n']
  | '\\' :: c :: r => (literalBody quote r).after ['\\', c]
  | c :: r =>
    if c = quote then ⟨[c], true⟩
    else if isLineBreak c then ⟨[], false⟩
    else (literalBody quote r).after [c]

theorem literalBody_isPrefix (quote : Char) (cs : List Char) :
    (literalBody quote cs).chars <+: cs := by
  fun_induction literalBody quote cs with
  | case1 => exact List.nil_prefix
  | case2 r ih => exact (List.prefix_append_right_inj _).2 ih
  | case3 c r _ ih => exact (List.prefix_append_right_inj _).2 ih
  | case4 => exact (List.prefix_cons_inj _).2 List.nil_prefix
  | case5 => exact List.nil_prefix
  | case6 c r _ _ _ _ ih => exact (List.prefix_cons_inj _).2 ih

end ContractScan.Lexeme
