import ContractScan.Proofs.Boundaries
import ContractScan.Proofs.Lookahead
import Mathlib.Computability.RegularExpressions

/-
  Numeric literals as a regular expression. `numeral` writes them down from their parts, and the
  reader takes the longest of them at the start of a text: what it takes matches
  (`number_matches`), and whatever matches at the start of a text goes into what it takes as a
  whole (`prefix_number_append`). So the tokens of numbers are the longest matches, and they stand
  where one starts and nowhere else (`numerals_exact`).
-/

namespace ContractScan

namespace Lexeme

/-! ## The expression -/

/-- One of some characters. -/
def oneOf (cs : List Char) : RegularExpression Char := (cs.map .char).sum

/-- The decimal digits. -/
def decimalDigits : List Char := ['0', '1', '2', '3', '4', '5', '6', '7', '8', '9']

/-- Decimal digits, one or more. -/
def digitRun : RegularExpression Char := oneOf decimalDigits * (oneOf decimalDigits).star

/-- A point and digits. -/
def fractionPart : RegularExpression Char := .char '.' * digitRun

/-- A mark, a sign or none, and digits. -/
def exponentPart : RegularExpression Char := oneOf ['e', 'E'] * (1 + oneOf ['+', '-']) * digitRun

/-- Digits with a fraction or none, or a fraction that stands alone; and then an exponent or
none. -/
def numeral : RegularExpression Char :=
  digitRun * (1 + fractionPart) * (1 + exponentPart) + fractionPart * (1 + exponentPart)

theorem oneOf_matches {cs w : List Char} : w ∈ (oneOf cs).matches' ↔ ∃ c ∈ cs, w = [c] := by
  induction cs with
  | nil => simp [oneOf]
  | cons c cs ih =>
    rw [oneOf, List.map_cons, List.sum_cons, RegularExpression.matches'_add, Language.mem_add,
      ← oneOf, ih, List.exists_mem_cons_iff]
    rfl

theorem star_oneOf_matches {cs w : List Char} :
    w ∈ (oneOf cs).star.matches' ↔ ∀ c ∈ w, c ∈ cs := by
  rw [RegularExpression.matches'_star, Language.mem_kstar]
  constructor
  · intro h c hc
    obtain ⟨parts, rfl, hparts⟩ := h
    obtain ⟨part, hpart, hc⟩ := List.mem_flatten.mp hc
    obtain ⟨x, hx, rfl⟩ := oneOf_matches.mp (hparts part hpart)
    rwa [List.mem_singleton.mp hc]
  · intro h
    refine ⟨w.map fun c => [c], by rw [← List.flatMap_def, List.flatMap_singleton'], ?_⟩
    intro part hpart
    obtain ⟨c, hc, rfl⟩ := List.mem_map.mp hpart
    exact oneOf_matches.mpr ⟨c, h c hc, rfl⟩

theorem mem_decimalDigits {c : Char} : c ∈ decimalDigits ↔ c.isDigit := by
  constructor
  · intro h
    exact List.all_eq_true.mp (by decide : decimalDigits.all Char.isDigit) c h
  · intro h
    have hnot := eq_false_of_ascii (p := Char.isDigit) (q := fun c => !decimalDigits.contains c)
      (by decide) (toNat_lt_of_isDigit h) h
    simpa using hnot

theorem digitRun_matches {w : List Char} :
    w ∈ digitRun.matches' ↔ w ≠ [] ∧ ∀ c ∈ w, c.isDigit := by
  rw [digitRun, RegularExpression.matches'_mul, Language.mem_mul]
  simp only [oneOf_matches, star_oneOf_matches, mem_decimalDigits]
  constructor
  · intro h
    obtain ⟨_, ⟨c, hc, rfl⟩, r, hr, rfl⟩ := h
    exact ⟨List.cons_ne_nil c r, List.forall_mem_cons.mpr ⟨hc, hr⟩⟩
  · intro h
    obtain ⟨c, r, rfl⟩ := List.exists_cons_of_ne_nil h.1
    obtain ⟨hc, hr⟩ := List.forall_mem_cons.mp h.2
    exact ⟨[c], ⟨c, hc, rfl⟩, r, hr, rfl⟩

theorem fractionPart_matches {w : List Char} :
    w ∈ fractionPart.matches' ↔ ∃ d ∈ digitRun.matches', w = '.' :: d := by
  rw [fractionPart, RegularExpression.matches'_mul, Language.mem_mul]
  constructor
  · intro h
    obtain ⟨_, rfl, d, hd, rfl⟩ := h
    exact ⟨d, hd, rfl⟩
  · intro h
    obtain ⟨d, hd, rfl⟩ := h
    exact ⟨['.'], rfl, d, hd, rfl⟩

theorem mem_exponentMarks {c : Char} : c ∈ ['e', 'E'] ↔ isExponentMark c := by
  simp [isExponentMark_iff]

theorem mem_signs {c : Char} : c ∈ ['+', '-'] ↔ isSign c := by
  simp [isSign]

theorem exponentPart_matches {w : List Char} :
    w ∈ exponentPart.matches' ↔ ∃ e, isExponentMark e ∧ ∃ d ∈ digitRun.matches',
      w = e :: d ∨ ∃ s, isSign s ∧ w = e :: s :: d := by
  simp only [exponentPart, RegularExpression.matches'_mul, RegularExpression.matches'_add,
    RegularExpression.matches'_epsilon, Language.mem_mul, Language.mem_add, Language.mem_one,
    oneOf_matches, mem_exponentMarks, mem_signs]
  constructor
  · intro h
    obtain ⟨_, ⟨_, ⟨e, he, rfl⟩, _, rfl | ⟨s, hs, rfl⟩, rfl⟩, d, hd, rfl⟩ := h
    · exact ⟨e, he, d, hd, Or.inl rfl⟩
    · exact ⟨e, he, d, hd, Or.inr ⟨s, hs, rfl⟩⟩
  · intro h
    obtain ⟨e, he, d, hd, rfl | ⟨s, hs, rfl⟩⟩ := h
    · exact ⟨[e], ⟨[e], ⟨e, he, rfl⟩, [], Or.inl rfl, rfl⟩, d, hd, rfl⟩
    · exact ⟨[e, s], ⟨[e], ⟨e, he, rfl⟩, [s], Or.inr ⟨s, hs, rfl⟩, rfl⟩, d, hd, rfl⟩

theorem exists_mark_of_exponentPart {w : List Char} (h : w ∈ exponentPart.matches') :
    ∃ e r, isExponentMark e ∧ w = e :: r := by
  obtain ⟨e, he, d, -, rfl | ⟨s, -, rfl⟩⟩ := exponentPart_matches.mp h
  · exact ⟨e, _, he, rfl⟩
  · exact ⟨e, _, he, rfl⟩

/-- A numeric literal by its parts. -/
theorem numeral_matches {w : List Char} :
    w ∈ numeral.matches' ↔ ∃ d f e, w = d ++ (f ++ e) ∧
      (d ∈ digitRun.matches' ∨ d = [] ∧ f ≠ []) ∧ (f = [] ∨ f ∈ fractionPart.matches') ∧
      (e = [] ∨ e ∈ exponentPart.matches') := by
  simp only [numeral, RegularExpression.matches'_add, RegularExpression.matches'_mul,
    RegularExpression.matches'_epsilon, Language.mem_add, Language.mem_mul, Language.mem_one]
  constructor
  · rintro (⟨_, ⟨d, hd, f, hf, rfl⟩, e, he, rfl⟩ | ⟨f, hf, e, he, rfl⟩)
    · exact ⟨d, f, e, List.append_assoc _ _ _, Or.inl hd, hf, he⟩
    · refine ⟨[], f, e, rfl, Or.inr ⟨rfl, ?_⟩, Or.inr hf, he⟩
      obtain ⟨d, -, rfl⟩ := fractionPart_matches.mp hf
      exact List.cons_ne_nil _ _
  · rintro ⟨d, f, e, rfl, hd | ⟨rfl, hne⟩, hf, he⟩
    · exact Or.inl ⟨d ++ f, ⟨d, hd, f, hf, rfl⟩, e, he, List.append_assoc _ _ _⟩
    · exact Or.inr ⟨f, hf.resolve_left hne, e, he, rfl⟩

/-! ## What the reader takes is a literal -/

theorem digits_matches {cs : List Char} (h : digits cs ≠ []) : digits cs ∈ digitRun.matches' :=
  digitRun_matches.mpr ⟨h, fun _ hc => isDigit_of_mem_digits hc⟩

theorem fraction_matches (cs : List Char) :
    fraction cs = [] ∨ fraction cs ∈ fractionPart.matches' := by
  fun_cases fraction cs with
  | case1 => exact Or.inl rfl
  | case2 r hr => exact Or.inr (fractionPart_matches.mpr ⟨_, digits_matches hr, rfl⟩)
  | case3 => exact Or.inl rfl

theorem exponent_matches (cs : List Char) :
    exponent cs = [] ∨ exponent cs ∈ exponentPart.matches' := by
  fun_cases exponent cs with
  | case1 => exact Or.inl rfl
  | case2 e s r he hs hd =>
    exact Or.inr (exponentPart_matches.mpr ⟨e, he, _, digits_matches hd, Or.inr ⟨s, hs, rfl⟩⟩)
  | case3 => exact Or.inl rfl
  | case4 e s r he hs hd =>
    exact Or.inr (exponentPart_matches.mpr ⟨e, he, _, digits_matches hd, Or.inl rfl⟩)
  | case5 => exact Or.inl rfl
  | case6 => exact Or.inl rfl

theorem number_matches {cs : List Char} (h : startsNumber cs) : number cs ∈ numeral.matches' := by
  refine numeral_matches.mpr ⟨_, _, _, rfl, ?_, fraction_matches _, exponent_matches _⟩
  rcases startsNumber_iff.mp h with ⟨d, r, rfl, hd⟩ | ⟨d, r, rfl, hd⟩
  · refine Or.inl (digits_matches ?_)
    rw [digits, List.takeWhile_cons_of_pos hd]
    exact List.cons_ne_nil _ _
  · refine Or.inr ⟨rfl, ?_⟩
    simp [digits, fraction, hd]

/-! ## The reader takes all of a literal -/

/-- Digits in front of a text go into the numeric literal at its start. -/
theorem number_digits_append {d : List Char} (hd : ∀ c ∈ d, c.isDigit) (t : List Char) :
    number (d ++ t) = d ++ number t := by
  have hdigits : digits (d ++ t) = d ++ digits t := List.takeWhile_append_of_pos hd
  rw [number, hdigits, List.length_append, ← List.drop_drop, List.drop_left, List.append_assoc]
  rfl

/-- Digits in front of a text go into the digits at its start. -/
theorem digits_append_of_matches {d : List Char} (hd : d ∈ digitRun.matches') (t : List Char) :
    digits (d ++ t) = d ++ digits t ∧ d ++ digits t ≠ [] := by
  obtain ⟨hne, hdigit⟩ := digitRun_matches.mp hd
  exact ⟨List.takeWhile_append_of_pos hdigit, List.append_ne_nil_of_left_ne_nil hne _⟩

/-- A fraction takes all digits that follow it, and then an exponent may stand. -/
theorem number_fraction_append {f : List Char} (hf : f ∈ fractionPart.matches') (t : List Char) :
    number (f ++ t) = f ++ (digits t ++ exponent (t.drop (digits t).length)) := by
  obtain ⟨d, hd, rfl⟩ := fractionPart_matches.mp hf
  obtain ⟨hdigits, hne⟩ := digits_append_of_matches hd t
  have hnone : digits ('.' :: (d ++ t)) = [] := rfl
  have hfraction : fraction ('.' :: (d ++ t)) = '.' :: d ++ digits t := by
    rw [fraction, hdigits, if_neg hne]
    rfl
  rw [List.cons_append, number, hnone, List.length_nil, List.drop_zero, hfraction,
    List.length_append, ← List.drop_drop, ← List.cons_append, List.drop_left, List.append_assoc]
  rfl

theorem isSign_eq_false_of_isDigit {c : Char} (h : c.isDigit) : isSign c = false :=
  eq_false_of_ascii (p := Char.isDigit) (by decide) (toNat_lt_of_isDigit h) h

theorem exponent_append {e : List Char} (he : e ∈ exponentPart.matches') (t : List Char) :
    exponent (e ++ t) = e ++ digits t := by
  obtain ⟨m, hm, d, hd, rfl | ⟨s, hs, rfl⟩⟩ := exponentPart_matches.mp he
  · obtain ⟨hdigits, hne⟩ := digits_append_of_matches hd t
    obtain ⟨hnil, hdigit⟩ := digitRun_matches.mp hd
    obtain ⟨c, r, rfl⟩ := List.exists_cons_of_ne_nil hnil
    have hsign := isSign_eq_false_of_isDigit (hdigit c List.mem_cons_self)
    simp only [List.cons_append] at hdigits ⊢
    simp [exponent, hm, hsign, hdigits]
  · obtain ⟨hdigits, hne⟩ := digits_append_of_matches hd t
    rw [List.cons_append, List.cons_append, exponent, if_pos hm, if_pos hs, hdigits, if_neg hne]
    rfl

/-- In front of an exponent there are neither digits nor a fraction. -/
theorem number_exponent_append {e : List Char} (he : e ∈ exponentPart.matches') (t : List Char) :
    digits (e ++ t) = [] ∧ number (e ++ t) = e ++ digits t := by
  have hexponent := exponent_append he t
  obtain ⟨m, r, hm, rfl⟩ := exists_mark_of_exponentPart he
  have hdigit : m.isDigit = false := eq_false_of_isExponentMark (by decide) hm
  have hdigits : digits (m :: r ++ t) = [] := List.takeWhile_cons_of_neg (by simp [hdigit])
  have hfraction : fraction (m :: r ++ t) = [] := fraction_of_isExponentMark fun c hc => by
    rwa [← Option.some.inj hc]
  refine ⟨hdigits, ?_⟩
  rw [number, hdigits, List.length_nil, List.drop_zero, hfraction]
  exact hexponent

/-- A literal in front of a text goes as a whole into the one at its start. -/
theorem prefix_number_append {w : List Char} (h : w ∈ numeral.matches') (t : List Char) :
    w <+: number (w ++ t) := by
  obtain ⟨d, f, e, rfl, hd, hf, he⟩ := numeral_matches.mp h
  have hdigit : ∀ c ∈ d, c.isDigit := by
    rcases hd with hd | ⟨rfl, -⟩
    · exact (digitRun_matches.mp hd).2
    · exact List.forall_mem_nil _
  rw [List.append_assoc, List.append_assoc, number_digits_append hdigit,
    List.prefix_append_right_inj]
  rcases hf with rfl | hf
  · rcases he with rfl | he
    · exact List.nil_prefix
    · rw [List.nil_append, List.nil_append, (number_exponent_append he t).2]
      exact List.prefix_append e _
  · rw [number_fraction_append hf, List.prefix_append_right_inj]
    rcases he with rfl | he
    · exact List.nil_prefix
    · rw [(number_exponent_append he t).1, List.nil_append, List.length_nil, List.drop_zero,
        exponent_append he]
      exact List.prefix_append e _

/-- The reader takes the longest numeric literal at the start of a text. -/
theorem isLongestPrefix_number {cs : List Char} (h : startsNumber cs) :
    IsLongestPrefix (· ∈ numeral.matches') (number cs) cs where
  isPrefix := number_isPrefix cs
  holds := number_matches h
  length_le := by
    rintro v ⟨t, rfl⟩ hv
    exact (prefix_number_append hv t).length_le

/-! ## Whole numbers -/

/-- A numeric literal is whole when neither a point nor an exponent stands in it. -/
theorem isWholeNumber_iff {w : List Char} (h : w ∈ numeral.matches') :
    isWholeNumber w ↔ ¬ ('.' ∈ w ∨ 'e' ∈ w ∨ 'E' ∈ w) := by
  rw [isWholeNumber, List.all_eq_true]
  constructor
  · intro hall hmem
    rcases hmem with hmem | hmem | hmem <;> cases hall _ hmem
  · obtain ⟨d, f, e, rfl, hd, hf, he⟩ := numeral_matches.mp h
    intro hnone
    rcases hf with rfl | hf
    · rcases he with rfl | he
      · rcases hd with hd | ⟨-, hne⟩
        · simpa using (digitRun_matches.mp hd).2
        · exact absurd rfl hne
      · obtain ⟨m, r, hm, rfl⟩ := exists_mark_of_exponentPart he
        rcases isExponentMark_iff.mp hm with rfl | rfl <;> simp at hnone
    · obtain ⟨r, -, rfl⟩ := fractionPart_matches.mp hf
      simp at hnone

/-! ## Tokens -/

theorem first_of_startsNumber {c : Char} {r : List Char} (h : startsNumber (c :: r)) :
    first c r = ⟨if isWholeNumber (number (c :: r)) then .number else .numberFloat,
      number (c :: r)⟩ :=
  OfClass.eq_first (.number h)

/-- A point in front of no digit is an error, so numbers stand only where one starts. -/
theorem startsNumber_of_kind_first {c : Char} {r : List Char}
    (h : (first c r).kind = .number ∨ (first c r).kind = .numberFloat) :
    startsNumber (c :: r) := by
  have hc : isNumberStart c := by
    have hstart := mayStart_kind_first c r
    rcases h with h | h <;> rwa [h] at hstart
  rw [isNumberStart, Bool.or_eq_true, beq_iff_eq] at hc
  rcases hc with hc | rfl
  · exact startsNumber_iff.mpr (Or.inl ⟨c, r, rfl, hc⟩)
  · by_contra hnone
    rw [Bool.not_eq_true] at hnone
    rw [OfClass.eq_first (.invalid rfl rfl hnone rfl rfl rfl)] at h
    rcases h with h | h <;> cases h

end Lexeme

open Lexeme

/-- **Numeric literals.** A token is a number exactly where a digit stands behind a boundary, or a
    point and a digit. Then it is the longest numeric literal there, and its kind says whether a
    point or an exponent stands in it. -/
theorem numerals_exact (text : String) (k : Nat) :
    ((∃ t ∈ (tokenize text)[k]?, t.kind = .number ∨ t.kind = .numberFloat) ↔
      (∃ d r, leftOver text k = d :: r ∧ d.isDigit) ∨
        ∃ d r, leftOver text k = '.' :: d :: r ∧ d.isDigit) ∧
    ∀ t ∈ (tokenize text)[k]?, t.kind = .number ∨ t.kind = .numberFloat →
      IsLongestPrefix (· ∈ numeral.matches') t.lexeme.toList (leftOver text k) ∧
      (t.kind = .numberFloat ↔
        '.' ∈ t.lexeme.toList ∨ 'e' ∈ t.lexeme.toList ∨ 'E' ∈ t.lexeme.toList) := by
  rw [← startsNumber_iff]
  refine ⟨⟨fun h => ?_, fun h => ?_⟩, fun t ht hkind => ?_⟩
  · obtain ⟨t, ht, hkind⟩ := h
    obtain ⟨c, r, hleft, hfirst, -⟩ := exists_first_of_getElem? ht
    rw [hleft]
    rw [hfirst] at hkind
    exact startsNumber_of_kind_first hkind
  · cases hleft : leftOver text k with
    | nil =>
      rw [hleft] at h
      cases h
    | cons c r =>
      rw [hleft] at h
      obtain ⟨t, ht, hkind, -⟩ := exists_token_of_leftOver hleft
      refine ⟨t, ht, ?_⟩
      rw [hkind, first_of_startsNumber h]
      dsimp only
      split
      · exact Or.inl rfl
      · exact Or.inr rfl
  · obtain ⟨c, r, hleft, hfirst, hchars⟩ := exists_first_of_getElem? ht
    rw [hfirst] at hkind
    have hstart := startsNumber_of_kind_first hkind
    rw [first_of_startsNumber hstart] at hfirst hchars
    rw [hchars, hleft, hfirst]
    refine ⟨isLongestPrefix_number hstart, ?_⟩
    rw [← not_iff_not, ← isWholeNumber_iff (number_matches hstart)]
    dsimp only
    cases isWholeNumber (number (c :: r)) <;> simp

/-- The start of a fraction or of an exponent belongs to no number. -/
example : (tokenize "7.x.5e+").map (fun t => (t.kind, t.lexeme)) =
    [(.number, "7"), (.invalid, "."), (.identifier, "x"), (.numberFloat, ".5"),
      (.identifier, "e"), (.operator, "+")] := by
  decide +kernel

end ContractScan
