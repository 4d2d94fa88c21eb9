import ContractScan.Tokenize
import Mathlib.Tactic.FinCases

/-
  The class of a first piece. `Lexeme.first` tries the classes one after another; here each
  class stands with the condition on the first characters that chooses it (`OfClass`), so that
  later proofs go by cases on the class and never unfold `first`. Where a delimiter starts a
  text, the class is known outright (`first_of_isBracket`, `first_of_isQuote`,
  `kind_first_of_opensComment`).

  The conditions exclude each other, so that no other piece is of the class that the first
  characters choose (`OfClass.eq_first`), and the kind of a piece settles how it starts
  (`mayStart_kind_first`). All classes but white space and errors start with ASCII characters,
  where this is a finite check (`eq_false_of_ascii`).
-/

namespace ContractScan

open ContractScan.Text (isBlank)
open ContractScan.Vocabulary (isOperatorChar classify)

namespace Lexeme

/-! ## Classes -/

/-- How the first piece of the text that starts with `c` and goes on with `r` comes about. -/
inductive OfClass (c : Char) (r : List Char) : Lexeme → Prop
  | blank (h : isBlank c) : OfClass c r ⟨.whitespace, c :: r.takeWhile isBlank⟩
  | word (h : isWordStart c) :
      OfClass c r (classified .identifier (c :: r.takeWhile isWordPart))
  | number (h : startsNumber (c :: r)) :
      OfClass c r
        ⟨if isWholeNumber (number (c :: r)) then .number else .numberFloat, number (c :: r)⟩
  | literal (h : isQuote c) : OfClass c r (literal c r)
  | bracket (h : isBracket c) : OfClass c r ⟨.bracket, [c]⟩
  | lineComment (h : opensLineComment (c :: r)) : OfClass c r ⟨.comment, restOfLine (c :: r)⟩
  | blockComment (h : opensBlockComment (c :: r)) :
      OfClass c r ⟨.comment, c :: r.take 1 ++ blockBody (r.drop 1)⟩
  | operators (h : isOperatorChar c) (hc : opensComment (c :: r) = false) :
      OfClass c r (classified .operator (operatorRun (c :: r)))
  | invalid (hblank : isBlank c = false) (hword : isWordStart c = false)
      (hnumber : startsNumber (c :: r) = false) (hquote : isQuote c = false)
      (hbracket : isBracket c = false) (hoperator : isOperatorChar c = false) :
      OfClass c r ⟨.invalid, [c]⟩

theorem ofClass_first (c : Char) (r : List Char) : OfClass c r (first c r) := by
  unfold first
  split
  · next h => exact .blank h
  split
  · next h => exact .word h
  split
  · next h => exact .number h
  split
  · next h => exact .literal h
  split
  · next h => exact .bracket h
  split
  · next h => exact .lineComment h
  split
  · next h => exact .blockComment h
  split
  · next hl hb h => exact .operators h (by simp [opensComment, hl, hb])
  · next h1 h2 h3 h4 h5 _ _ h6 =>
    simp only [Bool.not_eq_true] at h1 h2 h3 h4 h5 h6
    exact .invalid h1 h2 h3 h4 h5 h6

theorem kind_classified_identifier (cs : List Char) :
    (classified .identifier cs).kind = .keyword ∨
      (classified .identifier cs).kind = .identifier := by
  unfold classified classify
  dsimp only
  split
  · exact Or.inl rfl
  · exact Or.inr rfl

theorem kind_classified_operator (cs : List Char) :
    (classified .operator cs).kind = .operator ∨
      (classified .operator cs).kind = .unrecognized := by
  unfold classified classify
  dsimp only
  split
  · exact Or.inl rfl
  · exact Or.inr rfl

theorem kind_literal (c : Char) (r : List Char) :
    (literal c r).kind = .string ∨ (literal c r).kind = .invalidString := by
  unfold literal
  dsimp only
  split
  · exact Or.inl rfl
  · exact Or.inr rfl

/-! ## Delimiters at the start -/

/-- The brackets. -/
def brackets : List Char := ['{', '}', '(', ')', '[', ']']

/-- The quotes. -/
def quotes : List Char := ['"', '\'']

theorem isBracket_iff {c : Char} : isBracket c ↔ c ∈ brackets := by
  simp [isBracket, brackets]

theorem isQuote_iff {c : Char} : isQuote c ↔ c ∈ quotes := by
  simp [isQuote, quotes]

theorem opensLineComment_iff {cs : List Char} : opensLineComment cs ↔ ['/', '/'] <+: cs := by
  unfold opensLineComment
  split
  · next r => exact ⟨fun _ => ⟨r, rfl⟩, fun _ => rfl⟩
  · next h => exact ⟨fun h' => absurd h' (by decide), fun ⟨r, hr⟩ => absurd hr.symm (h r)⟩

theorem opensBlockComment_iff {cs : List Char} : opensBlockComment cs ↔ ['/', '*'] <+: cs := by
  unfold opensBlockComment
  split
  · next r => exact ⟨fun _ => ⟨r, rfl⟩, fun _ => rfl⟩
  · next h => exact ⟨fun h' => absurd h' (by decide), fun ⟨r, hr⟩ => absurd hr.symm (h r)⟩

theorem opensComment_iff {cs : List Char} :
    opensComment cs ↔ ['/', '/'] <+: cs ∨ ['/', '*'] <+: cs := by
  rw [opensComment, Bool.or_eq_true, opensLineComment_iff, opensBlockComment_iff]

theorem first_of_isBracket {c : Char} (h : isBracket c) (r : List Char) :
    first c r = ⟨.bracket, [c]⟩ := by
  rw [isBracket_iff] at h
  fin_cases h <;> rfl

theorem first_of_isQuote {c : Char} (h : isQuote c) (r : List Char) :
    first c r = literal c r := by
  rw [isQuote_iff] at h
  fin_cases h <;> rfl

theorem first_slash_slash (s : List Char) :
    first '/' ('/' :: s) = ⟨.comment, restOfLine ('/' :: '/' :: s)⟩ := rfl

theorem first_slash_star (s : List Char) :
    first '/' ('*' :: s) = ⟨.comment, '/' :: '*' :: blockBody s⟩ := rfl

theorem kind_first_of_opensComment {c : Char} {r : List Char} (h : opensComment (c :: r)) :
    (first c r).kind = .comment := by
  rcases opensComment_iff.mp h with ⟨s, h⟩ | ⟨s, h⟩
  · cases h; rfl
  · cases h; rfl

/-! ## Classes exclude each other -/

/-- Two classes of characters exclude each other if one is ASCII and they do so there. -/
theorem eq_false_of_ascii {p q : Char → Bool}
    (h : ∀ n < 128, p (Char.ofNat n) → q (Char.ofNat n) = false) {c : Char} (hc : c.toNat < 128)
    (hp : p c) : q c = false := by
  have := h c.toNat hc
  rw [Char.ofNat_toNat] at this
  exact this hp

theorem toNat_lt_of_le {c d : Char} (h : c.val ≤ d.val) (hd : d.toNat < 128) : c.toNat < 128 :=
  Nat.lt_of_le_of_lt (UInt32.le_iff_toNat_le.mp h) hd

theorem toNat_lt_of_isDigit {c : Char} (h : c.isDigit) : c.toNat < 128 := by
  have h : (decide (c.val ≥ '0'.val) && decide (c.val ≤ '9'.val)) = true := h
  rw [Bool.and_eq_true, decide_eq_true_eq, decide_eq_true_eq] at h
  exact toNat_lt_of_le h.2 (by decide)

theorem toNat_lt_of_isWordStart {c : Char} (h : isWordStart c) : c.toNat < 128 := by
  have h : (c.isUpper || c.isLower || c == '_' || c == '$') = true := h
  simp only [Bool.or_eq_true, beq_iff_eq] at h
  rcases h with ((h | h) | rfl) | rfl
  · have h : decide (c.val ≥ 'A'.val ∧ c.val ≤ 'Z'.val) = true := h
    exact toNat_lt_of_le (of_decide_eq_true h).2 (by decide)
  · have h : (decide (c.val ≥ 'a'.val) && decide (c.val ≤ 'z'.val)) = true := h
    rw [Bool.and_eq_true, decide_eq_true_eq, decide_eq_true_eq] at h
    exact toNat_lt_of_le h.2 (by decide)
  · decide
  · decide

/-- The characters with which numeric literals start. -/
def isNumberStart (c : Char) : Bool := c.isDigit || c == '.'

theorem toNat_lt_of_isNumberStart {c : Char} (h : isNumberStart c) : c.toNat < 128 := by
  rw [isNumberStart, Bool.or_eq_true, beq_iff_eq] at h
  rcases h with h | rfl
  · exact toNat_lt_of_isDigit h
  · decide

theorem startsNumber_cons {c : Char} (h : c ≠ '.') (r : List Char) :
    startsNumber (c :: r) = c.isDigit := by
  simp [startsNumber, h]

theorem startsNumber_iff {cs : List Char} :
    startsNumber cs ↔ (∃ d r, cs = d :: r ∧ d.isDigit) ∨ ∃ d r, cs = '.' :: d :: r ∧ d.isDigit := by
  constructor
  · intro h
    cases cs with
    | nil => cases h
    | cons c r =>
      by_cases hc : c = '.'
      · subst hc
        cases r with
        | nil => cases h
        | cons d r => exact Or.inr ⟨d, r, rfl, h⟩
      · rw [startsNumber_cons hc] at h
        exact Or.inl ⟨c, r, rfl, h⟩
  · rintro (⟨d, r, rfl, hd⟩ | ⟨d, r, rfl, hd⟩)
    · have hdot : d ≠ '.' := by
        rintro rfl
        cases hd
      rwa [startsNumber_cons hdot]
    · exact hd

theorem startsNumber_eq_false {c : Char} {r : List Char} (h : isNumberStart c = false) :
    startsNumber (c :: r) = false := by
  rw [← Bool.not_eq_true] at h ⊢
  refine mt (fun hs => ?_) h
  rcases startsNumber_iff.mp hs with ⟨d, s, hs, hd⟩ | ⟨d, s, hs, hd⟩ <;> injection hs with hc
  · simp [isNumberStart, hc, hd]
  · simp [isNumberStart, hc]

theorem isNumberStart_of_startsNumber {c : Char} {r : List Char} (h : startsNumber (c :: r)) :
    isNumberStart c := by
  by_contra hc
  rw [startsNumber_eq_false (Bool.not_eq_true _ ▸ hc)] at h
  cases h

theorem eq_slash_of_opensComment {c : Char} {r : List Char} (h : opensComment (c :: r)) :
    c = '/' := by
  rw [opensComment_iff, List.cons_prefix_cons, List.cons_prefix_cons] at h
  rcases h with ⟨h, -⟩ | ⟨h, -⟩ <;> exact h.symm

theorem of_isOperatorChar {p : Char → Bool} (hp : Vocabulary.operatorChars.all p) {c : Char}
    (h : isOperatorChar c) : p c := by
  rw [isOperatorChar, List.contains_eq_mem, decide_eq_true_eq] at h
  exact List.all_eq_true.mp hp c h

theorem OfClass.eq_first {c : Char} {r : List Char} {l : Lexeme} (h : OfClass c r l) :
    first c r = l := by
  cases h with
  | blank h => rw [first, if_pos h]
  | word h =>
    have hblank : isBlank c = false :=
      eq_false_of_ascii (p := isWordStart) (by decide +kernel) (toNat_lt_of_isWordStart h) h
    simp only [first, hblank, h, Bool.false_eq_true, if_false, if_true]
  | number h =>
    have hc := isNumberStart_of_startsNumber h
    have hascii := toNat_lt_of_isNumberStart hc
    have hblank : isBlank c = false :=
      eq_false_of_ascii (p := isNumberStart) (by decide +kernel) hascii hc
    have hword : isWordStart c = false :=
      eq_false_of_ascii (p := isNumberStart) (by decide +kernel) hascii hc
    simp only [first, hblank, hword, h, Bool.false_eq_true, if_false, if_true]
  | literal h => exact first_of_isQuote h r
  | bracket h => exact first_of_isBracket h r
  | lineComment h =>
    obtain ⟨s, hs⟩ := opensLineComment_iff.mp h
    cases hs
    rfl
  | blockComment h =>
    obtain ⟨s, hs⟩ := opensBlockComment_iff.mp h
    cases hs
    rfl
  | operators h hc =>
    have hother : !(isBlank c || isWordStart c || isNumberStart c || isQuote c || isBracket c) :=
      of_isOperatorChar
        (p := fun c => !(isBlank c || isWordStart c || isNumberStart c || isQuote c || isBracket c))
        (by decide +kernel) h
    simp only [Bool.not_eq_true', Bool.or_eq_false_iff] at hother
    obtain ⟨⟨⟨⟨hblank, hword⟩, hnumber⟩, hquote⟩, hbracket⟩ := hother
    simp only [opensComment, Bool.or_eq_false_iff] at hc
    simp only [first, hblank, hword, startsNumber_eq_false hnumber, hquote, hbracket, hc.1, hc.2, h,
      Bool.false_eq_true, if_false, if_true]
  | invalid hblank hword hnumber hquote hbracket hoperator =>
    have hcomment : opensComment (c :: r) = false := by
      rw [← Bool.not_eq_true]
      intro h
      rw [eq_slash_of_opensComment h] at hoperator
      cases hoperator
    simp only [opensComment, Bool.or_eq_false_iff] at hcomment
    simp only [first, hblank, hword, hnumber, hquote, hbracket, hcomment.1, hcomment.2, hoperator,
      Bool.false_eq_true, if_false]

/-! ## Kinds -/

/-- Whether a piece of a kind may start with a character. -/
def mayStart : TokenKind → Char → Bool
  | .keyword, c | .identifier, c => isWordStart c
  | .number, c | .numberFloat, c => isNumberStart c
  | .string, c | .invalidString, c => isQuote c
  | .comment, c => c == '/'
  | .bracket, c => isBracket c
  | .operator, c | .unrecognized, c => isOperatorChar c
  | .invalid, _ => true
  | .whitespace, c => isBlank c

theorem mayStart_kind_first (c : Char) (r : List Char) : mayStart (first c r).kind c := by
  have hclass := ofClass_first c r
  generalize first c r = l at hclass
  cases hclass with
  | blank h => exact h
  | word h =>
    rcases kind_classified_identifier (c :: r.takeWhile isWordPart) with hk | hk <;> rw [hk] <;>
      exact h
  | number h =>
    have hc := isNumberStart_of_startsNumber h
    dsimp only
    split <;> exact hc
  | literal h => rcases kind_literal c r with hk | hk <;> rw [hk] <;> exact h
  | bracket h => exact h
  | lineComment h =>
    have hopens : opensComment (c :: r) := by rw [opensComment, h]; rfl
    rw [eq_slash_of_opensComment hopens]
    rfl
  | blockComment h =>
    have hopens : opensComment (c :: r) := by rw [opensComment, h, Bool.or_true]
    rw [eq_slash_of_opensComment hopens]
    rfl
  | operators h =>
    rcases kind_classified_operator (operatorRun (c :: r)) with hk | hk <;> rw [hk] <;> exact h
  | invalid => rfl

theorem first_of_kind_whitespace {c : Char} {r : List Char} (h : (first c r).kind = .whitespace) :
    isBlank c ∧ first c r = ⟨.whitespace, c :: r.takeWhile isBlank⟩ := by
  have hc := mayStart_kind_first c r
  rw [h] at hc
  exact ⟨hc, OfClass.eq_first (.blank hc)⟩

end Lexeme

end ContractScan
