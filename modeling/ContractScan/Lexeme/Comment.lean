import ContractScan.Text.Blank

/-
  Comments: from two slashes to the end of the line, or from a slash and a star to the first
  star and slash after them. A comment that nothing ends runs to the end of the text.
-/

namespace ContractScan.Lexeme

open ContractScan.Text (isLineBreak)

/-- Whether a text starts a comment to the end of the line. -/
def opensLineComment : List Char → Bool
  | '/' :: '/' :: _ => true
  | _ => false

/-- Whether a text starts a comment between marks. -/
def opensBlockComment : List Char → Bool
  | '/' :: '*' :: _ => true
  | _ => false

/-- Whether a text starts a comment. -/
def opensComment (cs : List Char) : Bool := opensLineComment cs || opensBlockComment cs

/-- The part of a text that lies on its first line. -/
def restOfLine (cs : List Char) : List Char := cs.takeWhile fun c => !isLineBreak c

theorem restOfLine_isPrefix (cs : List Char) : restOfLine cs <+: cs := List.takeWhile_prefix _

/-- The body of a block comment after its opening mark: up to and with the closing mark, or all
of the text. -/
def blockBody : List Char → List Char
  | [] => []
  | '*' :: '/' :: _ => ['*', '/']
  | c :: r => c :: blockBody r

theorem blockBody_isPrefix (cs : List Char) : blockBody cs <+: cs := by
  fun_induction blockBody cs with
  | case1 => exact List.nil_prefix
  | case2 r => exact (List.prefix_cons_inj _).2 ((List.prefix_cons_inj _).2 List.nil_prefix)
  | case3 c r _ ih => exact (List.prefix_cons_inj _).2 ih

end ContractScan.Lexeme
