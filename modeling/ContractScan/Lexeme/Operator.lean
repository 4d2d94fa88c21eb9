import ContractScan.Lexeme.Comment
import ContractScan.Vocabulary

/-
  Runs of operator characters. A run stops in front of a comment, so that a comment right after
  an operator keeps its marks.
-/

namespace ContractScan.Lexeme

open ContractScan.Vocabulary (isOperatorChar)

/-- The operator characters at the start of a text, up to a comment. -/
def operatorRun : List Char → List Char
  | [] => []
  | c :: r => if isOperatorChar c && !opensComment (c :: r) then c :: operatorRun r else []

theorem operatorRun_isPrefix (cs : List Char) : operatorRun cs <+: cs := by
  induction cs with
  | nil => exact List.nil_prefix
  | cons c r ih =>
    unfold operatorRun
    split
    · exact (List.prefix_cons_inj _).2 ih
    · exact List.nil_prefix

theorem operatorRun_ne_nil {c : Char} {r : List Char} (hc : isOperatorChar c)
    (hr : opensComment (c :: r) = false) : operatorRun (c :: r) ≠ [] := by
  simp [operatorRun, hc, hr]

end ContractScan.Lexeme
