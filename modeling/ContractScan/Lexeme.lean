import ContractScan.Lexeme.Number
import ContractScan.Lexeme.Literal
import ContractScan.Lexeme.Operator

/-
  The piece of text that the next token takes, and its kind. The first characters choose the
  class, and the class takes as much as it can; a character of no class stands alone. Main
  statements: the piece is a part of the text from its start, and it is never empty.
-/

namespace ContractScan

open ContractScan.Text (isBlank)
open ContractScan.Vocabulary (isOperatorChar classify)

/-- A piece of text with its kind. -/
structure Lexeme where
  kind : TokenKind
  chars : List Char

namespace Lexeme

/-- Whether a character may start a word. -/
def isWordStart (c : Char) : Bool := c.isAlpha || c == '_' || c == '$'

/-- Whether a character may stand in a word after its start. -/
def isWordPart (c : Char) : Bool := isWordStart c || c.isDigit

/-- Whether a character opens a string literal. -/
def isQuote (c : Char) : Bool := c == '"' || c == '\''

/-- Whether a character is a bracket. -/
def isBracket (c : Char) : Bool := ['{', '}', '(', ')', '[', ']'].contains c

/-- A piece whose kind the vocabulary settles. -/
def classified (kind : TokenKind) (chars : List Char) : Lexeme :=
  ⟨classify (String.ofList chars) kind, chars⟩

/-- A string literal after its opening quote. -/
def literal (quote : Char) (r : List Char) : Lexeme :=
  let body := literalBody quote r
  ⟨if body.closed then .string else .invalidString, quote :: body.chars⟩

/-- The first piece of the text that starts with `c` and goes on with `r`. -/
def first (c : Char) (r : List Char) : Lexeme :=
  if isBlank c then ⟨.whitespace, c :: r.takeWhile isBlank⟩
  else if isWordStart c then classified .identifier (c :: r.takeWhile isWordPart)
  else if startsNumber (c :: r) then
    let chars := number (c :: r)
    ⟨if isWholeNumber chars then .number else .numberFloat, chars⟩
  else if isQuote c then literal c r
  else if isBracket c then ⟨.bracket, [c]⟩
  else if opensLineComment (c :: r) then ⟨.comment, restOfLine (c :: r)⟩
  else if opensBlockComment (c :: r) then ⟨.comment, c :: r.take 1 ++ blockBody (r.drop 1)⟩
  else if isOperatorChar c then classified .operator (operatorRun (c :: r))
  else ⟨.invalid, [c]⟩

theorem first_isPrefix (c : Char) (r : List Char) : (first c r).chars <+: c :: r := by
  unfold first
  split
  · exact (List.prefix_cons_inj _).2 (List.takeWhile_prefix _)
  split
  · exact (List.prefix_cons_inj _).2 (List.takeWhile_prefix _)
  split
  · exact number_isPrefix _
  split
  · exact (List.prefix_cons_inj _).2 (literalBody_isPrefix _ _)
  split
  · exact (List.prefix_cons_inj _).2 List.nil_prefix
  split
  · exact restOfLine_isPrefix _
  split
  · refine (List.prefix_cons_inj _).2 ?_
    have h := (List.prefix_append_right_inj (r.take 1)).2 (blockBody_isPrefix (r.drop 1))
    rwa [List.take_append_drop] at h
  split
  · exact operatorRun_isPrefix _
  · exact (List.prefix_cons_inj _).2 List.nil_prefix

theorem first_ne_nil (c : Char) (r : List Char) : (first c r).chars ≠ [] := by
  unfold first
  split
  · exact List.cons_ne_nil _ _
  split
  · exact List.cons_ne_nil _ _
  split
  · rename_i h; exact number_ne_nil h
  split
  · exact List.cons_ne_nil _ _
  split
  · exact List.cons_ne_nil _ _
  split
  · rename_i h
    unfold opensLineComment at h
    split at h
    · rename_i heq
      injection heq with h1 h2
      subst h1 h2
      simp [restOfLine, Text.isLineBreak]
    · cases h
  split
  · exact List.cons_ne_nil _ _
  split
  · rename_i hl hb h
    exact operatorRun_ne_nil h (by simp [opensComment, hl, hb])
  · exact List.cons_ne_nil _ _

/-- What is left of the text is shorter. -/
theorem length_drop_first_lt (c : Char) (r : List Char) :
    ((c :: r).drop (first c r).chars.length).length < (c :: r).length := by
  have h := List.length_pos_iff.2 (first_ne_nil c r)
  rw [List.length_drop]
  simp only [List.length_cons]; omega

end Lexeme

end ContractScan
