import ContractScan.Proofs.LexemeClass
import ContractScan.Proofs.Tiling
import Mathlib.Data.List.TakeWhile

/-
  Delimiters: brackets, quotes and the marks that open comments. Wherever one stands in a text,
  a token starts there that is made for it, or it lies inside a string literal or a comment
  (`delimiters_not_swallowed`). No other class of pieces reaches over a delimiter: words,
  numbers and white space have none among their characters, and a run of operators stops in
  front of a comment (`encloses_of_startsDelimiter`).
-/

namespace ContractScan

open ContractScan.Text (isBlank)
open ContractScan.Vocabulary (isOperatorChar)

/-- Whether tokens of a kind may hold delimiters: string literals and comments. -/
def TokenKind.encloses : TokenKind → Bool
  | string | invalidString | comment => true
  | _ => false

namespace Lexeme

/-! ## Characters that start no delimiter -/

/-- The characters with which delimiters start. -/
def delimiterChars : List Char := brackets ++ quotes ++ ['/']

/-- Whether a text starts with a delimiter. -/
def startsDelimiter : List Char → Bool
  | [] => false
  | c :: r => isBracket c || isQuote c || opensComment (c :: r)

theorem startsDelimiter_cons_of_not_mem {c : Char} (h : c ∉ delimiterChars) (r : List Char) :
    startsDelimiter (c :: r) = false := by
  simp only [delimiterChars, List.mem_append, List.mem_singleton, not_or] at h
  obtain ⟨⟨hb, hq⟩, hs⟩ := h
  rw [← isBracket_iff] at hb
  rw [← isQuote_iff] at hq
  have hc : ¬ opensComment (c :: r) := by
    rw [opensComment_iff, List.cons_prefix_cons, List.cons_prefix_cons]
    rintro (⟨h, -⟩ | ⟨h, -⟩) <;> exact hs h.symm
  simp [startsDelimiter, hb, hq, hc]

/-- A class of characters that no delimiter starts with. -/
theorem not_mem_delimiterChars {p : Char → Bool} (hp : delimiterChars.all fun c => !p c)
    {c : Char} (h : p c) : c ∉ delimiterChars := by
  intro hc
  have := List.all_eq_true.mp hp c hc
  rw [h] at this
  cases this

theorem startsDelimiter_drop_of_prefix {a cs : List Char} (hpre : a <+: cs)
    (ha : ∀ c ∈ a, c ∉ delimiterChars) {i : Nat} (hi : i < a.length) :
    startsDelimiter (cs.drop i) = false := by
  obtain ⟨s, rfl⟩ := hpre
  rw [List.drop_append_of_le_length (Nat.le_of_lt hi), List.drop_eq_getElem_cons hi]
  exact startsDelimiter_cons_of_not_mem (ha _ (List.getElem_mem hi)) _

/-! ## The characters of classes -/

theorem isBlank_of_mem_blank {c x : Char} {r : List Char} (h : isBlank c)
    (hx : x ∈ c :: r.takeWhile isBlank) : isBlank x := by
  rcases List.mem_cons.mp hx with rfl | hx
  · exact h
  · exact List.mem_takeWhile_imp hx

theorem isWordPart_of_mem_word {c x : Char} {r : List Char} (h : isWordStart c)
    (hx : x ∈ c :: r.takeWhile isWordPart) : isWordPart x := by
  rcases List.mem_cons.mp hx with rfl | hx
  · simp [isWordPart, h]
  · exact List.mem_takeWhile_imp hx

theorem isOperatorChar_of_mem_operatorRun {x : Char} {cs : List Char}
    (h : x ∈ operatorRun cs) : isOperatorChar x := by
  induction cs with
  | nil => simp [operatorRun] at h
  | cons c r ih =>
    unfold operatorRun at h
    split at h
    · next hc =>
      rcases List.mem_cons.mp h with rfl | h
      · exact (Bool.and_eq_true _ _ ▸ hc).1
      · exact ih h
    · simp at h

/-- The characters that numeric literals are made of. -/
def isNumberPart (c : Char) : Bool := c.isDigit || c == '.' || isExponentMark c || isSign c

theorem isNumberPart_of_mem_digits {c : Char} {cs : List Char} (h : c ∈ digits cs) :
    isNumberPart c := by
  have : c.isDigit := List.mem_takeWhile_imp h
  simp [isNumberPart, this]

theorem isNumberPart_of_mem_fraction {c : Char} {cs : List Char} (h : c ∈ fraction cs) :
    isNumberPart c := by
  unfold fraction at h
  split at h
  · split at h
    · cases h
    · rcases List.mem_cons.mp h with rfl | h
      · rfl
      · exact isNumberPart_of_mem_digits h
  · cases h

theorem isNumberPart_of_mem_exponent {c : Char} {cs : List Char} (h : c ∈ exponent cs) :
    isNumberPart c := by
  have hmark : ∀ {e}, isExponentMark e → isNumberPart e := fun h => by simp [isNumberPart, h]
  have hsign : ∀ {s}, isSign s → isNumberPart s := fun h => by simp [isNumberPart, h]
  unfold exponent at h
  split at h
  · next e s r =>
    split at h
    · next he =>
      split at h
      · next hs =>
        split at h
        · cases h
        · rcases List.mem_cons.mp h with rfl | h
          · exact hmark he
          rcases List.mem_cons.mp h with rfl | h
          · exact hsign hs
          · exact isNumberPart_of_mem_digits h
      · split at h
        · cases h
        · rcases List.mem_cons.mp h with rfl | h
          · exact hmark he
          · exact isNumberPart_of_mem_digits h
    · cases h
  · cases h

theorem isNumberPart_of_mem_number {c : Char} {cs : List Char} (h : c ∈ number cs) :
    isNumberPart c := by
  unfold number at h
  dsimp only at h
  rcases List.mem_append.mp h with h | h
  · exact isNumberPart_of_mem_digits h
  rcases List.mem_append.mp h with h | h
  · exact isNumberPart_of_mem_fraction h
  · exact isNumberPart_of_mem_exponent h

/-! ## Runs of operators -/

/-- No delimiter starts within a run of operators. -/
theorem startsDelimiter_drop_of_operatorRun {cs : List Char} {i : Nat}
    (hi : i < (operatorRun cs).length) : startsDelimiter (cs.drop i) = false := by
  induction cs generalizing i with
  | nil => simp [operatorRun] at hi
  | cons c r ih =>
    unfold operatorRun at hi
    split at hi
    · next h =>
      rw [Bool.and_eq_true, Bool.not_eq_true'] at h
      obtain ⟨hop, hcomment⟩ := h
      have hother : !(isBracket c || isQuote c) :=
        of_isOperatorChar (p := fun c => !(isBracket c || isQuote c)) (by decide) hop
      cases i with
      | zero =>
        rw [Bool.not_eq_true'] at hother
        rw [List.drop_zero, startsDelimiter, hother, hcomment]
        rfl
      | succ i => exact ih (Nat.lt_of_succ_lt_succ hi)
    · simp at hi

/-! ## Pieces -/

/-- A piece that reaches over a delimiter is a string literal or a comment. -/
theorem encloses_of_startsDelimiter {c : Char} {r : List Char} {i : Nat}
    (hd : startsDelimiter ((c :: r).drop i)) (hpos : 0 < i)
    (hi : i < (first c r).chars.length) : (first c r).kind.encloses := by
  have hpre := first_isPrefix c r
  have hclass := ofClass_first c r
  generalize first c r = l at hi hpre hclass
  -- A piece without delimiter characters holds no delimiter at all.
  have absurd_of {p : Char → Bool} (hp : delimiterChars.all fun c => !p c)
      (ha : ∀ x ∈ l.chars, p x) : l.kind.encloses := by
    have := startsDelimiter_drop_of_prefix hpre (fun x hx => not_mem_delimiterChars hp (ha x hx)) hi
    rw [this] at hd
    cases hd
  cases hclass with
  | blank h => exact absurd_of (p := isBlank) (by decide) fun x hx => isBlank_of_mem_blank h hx
  | word h => exact absurd_of (p := isWordPart) (by decide) fun x hx => isWordPart_of_mem_word h hx
  | number h =>
    exact absurd_of (p := isNumberPart) (by decide) fun x hx => isNumberPart_of_mem_number hx
  | literal h => rcases kind_literal c r with hk | hk <;> rw [hk] <;> rfl
  | bracket h => simp at hi; omega
  | lineComment h => rfl
  | blockComment h => rfl
  | operators h hc =>
    rw [startsDelimiter_drop_of_operatorRun hi] at hd
    cases hd
  | invalid => simp at hi; omega

/-- A bracket token is a bracket. -/
theorem bracket_of_kind_first {c : Char} {r : List Char} (h : (first c r).kind = .bracket) :
    isBracket c ∧ (first c r).chars = [c] := by
  have hc := mayStart_kind_first c r
  rw [h] at hc
  exact ⟨hc, by rw [first_of_isBracket hc]⟩

end Lexeme

/-! ## Texts -/

open Lexeme

/-- Whether a character lies inside a string literal or a comment, after its first character. -/
def Token.Encloses (t : Token) (p : Nat) : Prop :=
  (t.kind = .string ∨ t.kind = .invalidString ∨ t.kind = .comment) ∧ t.start < p ∧ p < t.stop

theorem TokenKind.encloses_iff {k : TokenKind} :
    k.encloses ↔ k = .string ∨ k = .invalidString ∨ k = .comment := by
  cases k <;> simp [encloses]

/-- Where a delimiter stands in a text, a token starts that is made for it, or it lies inside a
token that encloses it. -/
theorem exists_token_of_startsDelimiter {text : String} {p : Nat} {c : Char} {r : List Char}
    (hp : text.toList.drop p = c :: r) (h : startsDelimiter (c :: r)) :
    ∃ t ∈ tokenize text,
      (t.kind = (first c r).kind ∧ t.start = p ∧ t.lexeme = String.ofList (first c r).chars) ∨
        t.Encloses p := by
  have hlt : p < text.toList.length := by
    by_contra hlt
    rw [List.drop_eq_nil_of_le (Nat.le_of_not_lt hlt)] at hp
    cases hp
  obtain ⟨before, c', r', i, htext, rfl, hi, ht⟩ := exists_first_covers hlt
  refine ⟨_, ht, ?_⟩
  rw [htext, List.drop_append, List.drop_eq_nil_of_le (Nat.le_add_right _ _), List.nil_append,
    Nat.add_sub_cancel_left] at hp
  cases i with
  | zero =>
    rw [List.drop_zero] at hp
    injection hp with hc hr
    subst hc hr
    exact Or.inl ⟨rfl, rfl, rfl⟩
  | succ i =>
    refine Or.inr ⟨?_, ?_, ?_⟩
    · rw [← hp] at h
      exact TokenKind.encloses_iff.mp (encloses_of_startsDelimiter h (Nat.succ_pos i) hi)
    · exact Nat.lt_add_of_pos_right (Nat.succ_pos i)
    · rw [stop_toToken]
      omega

theorem exists_drop_eq_cons {cs : List Char} {p : Nat} {c : Char} (h : cs[p]? = some c) :
    ∃ r, cs.drop p = c :: r := by
  obtain ⟨hp, hc⟩ := List.getElem?_eq_some_iff.mp h
  exact ⟨cs.drop (p + 1), by rw [List.drop_eq_getElem_cons hp, hc]⟩

/-- **No delimiter is swallowed.** Comment marks, brackets and quotes start the tokens that are
    made for them, wherever they do not lie inside a string literal or a comment; and bracket
    tokens are nothing else. -/
theorem delimiters_not_swallowed (text : String) (p : Nat) :
    (['/', '/'] <+: text.toList.drop p ∨ ['/', '*'] <+: text.toList.drop p →
      ∃ t ∈ tokenize text, t.kind = .comment ∧ t.start = p ∨ t.Encloses p) ∧
    (∀ c ∈ ['{', '}', '(', ')', '[', ']'], text.toList[p]? = some c →
      ∃ t ∈ tokenize text,
        t.kind = .bracket ∧ t.start = p ∧ t.lexeme = String.singleton c ∨ t.Encloses p) ∧
    (∀ c ∈ ['"', '\''], text.toList[p]? = some c →
      ∃ t ∈ tokenize text,
        (t.kind = .string ∨ t.kind = .invalidString) ∧ t.start = p ∨ t.Encloses p) ∧
    ∀ t ∈ tokenize text, t.kind = .bracket →
      ∃ c ∈ ['{', '}', '(', ')', '[', ']'], t.lexeme = String.singleton c := by
  refine ⟨fun h => ?_, fun c hc h => ?_, fun c hc h => ?_, fun t ht hk => ?_⟩
  · rw [← opensComment_iff] at h
    cases hp : text.toList.drop p with
    | nil => rw [hp] at h; cases h
    | cons c r =>
      rw [hp] at h
      obtain ⟨t, ht, ⟨hk, hstart, -⟩ | hin⟩ :=
        exists_token_of_startsDelimiter hp (by simp [startsDelimiter, h])
      · exact ⟨t, ht, Or.inl ⟨hk.trans (kind_first_of_opensComment h), hstart⟩⟩
      · exact ⟨t, ht, Or.inr hin⟩
  · obtain ⟨r, hp⟩ := exists_drop_eq_cons h
    have hb := isBracket_iff.mpr hc
    obtain ⟨t, ht, ⟨hk, hstart, hl⟩ | hin⟩ :=
      exists_token_of_startsDelimiter hp (by simp [startsDelimiter, hb])
    · rw [first_of_isBracket hb] at hk hl
      exact ⟨t, ht, Or.inl ⟨hk, hstart, hl.trans String.singleton_eq_ofList.symm⟩⟩
    · exact ⟨t, ht, Or.inr hin⟩
  · obtain ⟨r, hp⟩ := exists_drop_eq_cons h
    have hq := isQuote_iff.mpr hc
    obtain ⟨t, ht, ⟨hk, hstart, -⟩ | hin⟩ :=
      exists_token_of_startsDelimiter hp (by simp [startsDelimiter, hq])
    · rw [first_of_isQuote hq] at hk
      exact ⟨t, ht, Or.inl ⟨by rw [hk]; exact kind_literal c r, hstart⟩⟩
    · exact ⟨t, ht, Or.inr hin⟩
  · obtain ⟨before, c, r, -, rfl⟩ := mem_tokenize ht
    obtain ⟨hb, hchars⟩ := bracket_of_kind_first hk
    refine ⟨c, isBracket_iff.mp hb, ?_⟩
    rw [toToken, hchars, String.singleton_eq_ofList]

end ContractScan
