import ContractScan.Token

/-
  Places in a text by line and column, both counted from zero, and the ranges between them.
-/

namespace ContractScan

/-- A line and a column, in characters. -/
structure Position where
  line : Nat
  column : Nat
deriving DecidableEq

namespace Position

/-- A position as text. -/
def toText (p : Position) : String := s!"{p.line}:{p.column}"

/-- The same column, lines further down. -/
def down (p : Position) (lines : Nat) : Position := ⟨p.line + lines, p.column⟩

/-- Whether a position lies before another: on an earlier line, or earlier on the same. -/
def before (p q : Position) : Bool :=
  p.line < q.line || (p.line == q.line && p.column < q.column)

theorem before_irrefl (p : Position) : p.before p = false := by simp [before]

theorem before_trans {p q r : Position} (h : p.before q) (k : q.before r) : p.before r := by
  simp only [before, Bool.or_eq_true, Bool.and_eq_true, decide_eq_true_eq, beq_iff_eq] at *
  omega

end Position

/-- The part of a text from a position up to another, with its bytes. -/
structure Range where
  span : Span
  start : Position
  stop : Position
deriving DecidableEq

/-- A range as text. -/
def Range.toText (r : Range) : String := s!"{r.start.toText}..{r.stop.toText}"

end ContractScan
