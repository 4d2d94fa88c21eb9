/-
  Numeric literals: digits with an optional fraction and an optional exponent, or a fraction
  that stands alone.
-/

namespace ContractScan.Lexeme

/-- The decimal digits at the start of a text. -/
def digits (cs : List Char) : List Char := cs.takeWhile Char.isDigit

theorem digits_isPrefix (cs : List Char) : digits cs <+: cs := List.takeWhile_prefix _

/-- A point and digits at the start of a text; nothing where no digit follows the point. -/
def fraction : List Char → List Char
  | '.' :: r => if digits r = [] then [] else '.' :: digits r
  | _ => []

theorem fraction_isPrefix (cs : List Char) : fraction cs <+: cs := by
  unfold fraction
  split
  · split
    · exact List.nil_prefix
    · exact (List.prefix_cons_inj _).2 (digits_isPrefix _)
  · exact List.nil_prefix

/-- The letters that announce an exponent. -/
def isExponentMark (c : Char) : Bool := c == 'e' || c == 'E'

/-- A plus or a minus. -/
def isSign (c : Char) : Bool := c == '+' || c == '-'

/-- A mark, an optional sign and digits at the start of a text; nothing where the digits are
missing. -/
def exponent : List Char → List Char
  | e :: s :: r =>
    if isExponentMark e then
      if isSign s then
        if digits r = [] then [] else e :: s :: digits r
      else if digits (s :: r) = [] then [] else e :: digits (s :: r)
    else []
  | _ => []

theorem exponent_isPrefix (cs : List Char) : exponent cs <+: cs := by
  unfold exponent
  split
  · split
    · split
      · split
        · exact List.nil_prefix
        · exact (List.prefix_cons_inj _).2 ((List.prefix_cons_inj _).2 (digits_isPrefix _))
      · split
        · exact List.nil_prefix
        · exact (List.prefix_cons_inj _).2 (digits_isPrefix _)
    · exact List.nil_prefix
  · exact List.nil_prefix

/-- The numeric literal at the start of a text: digits, then a fraction, then an exponent. -/
def number (cs : List Char) : List Char :=
  let whole := digits cs
  let afterWhole := cs.drop whole.length
  let part := fraction afterWhole
  whole ++ (part ++ exponent (afterWhole.drop part.length))

/-- Whether a text starts with a numeric literal: with a digit, or a point before a digit. -/
def startsNumber : List Char → Bool
  | '.' :: d :: _ => d.isDigit
  | c :: _ => c.isDigit
  | [] => false

/-- Whether a numeric literal is whole: digits and nothing else. -/
def isWholeNumber (lexeme : List Char) : Bool := lexeme.all Char.isDigit

theorem prefix_of_split {a b cs : List Char} (ha : a <+: cs) (hb : b <+: cs.drop a.length) :
    a ++ b <+: cs := by
  obtain ⟨t, rfl⟩ := ha
  rw [List.drop_left] at hb
  obtain ⟨u, rfl⟩ := hb
  exact ⟨u, by simp⟩

theorem number_isPrefix (cs : List Char) : number cs <+: cs :=
  prefix_of_split (digits_isPrefix cs)
    (prefix_of_split (fraction_isPrefix _) (exponent_isPrefix _))

theorem number_ne_nil {cs : List Char} (h : startsNumber cs) : number cs ≠ [] := by
  match cs, h with
  | '.' :: d :: r, h =>
    have h : d.isDigit = true := h
    simp [number, digits, fraction, h]
  | [c], h => simp_all [startsNumber, number, digits]
  | c :: d :: r, h =>
    by_cases hc : c = '.'
    · subst hc
      have h : d.isDigit = true := h
      simp [number, digits, fraction, h]
    · have h : c.isDigit = true := by simpa [startsNumber, hc] using h
      simp [number, digits, h]

end ContractScan.Lexeme
