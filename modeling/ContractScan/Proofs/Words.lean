import ContractScan.Proofs.Boundaries
import ContractScan.Proofs.Numerals

/-
  Words, white space and stray characters. The first character at a boundary chooses between
  them, and each class is written down here as a list of characters, apart from the tests by
  which the reader tells it (`isBlank_iff_mem`, `mem_wordStarts`). Main statement: words and
  white space are the longest runs of their characters, and a character that starts nothing else
  is an error by itself (`words_exact`).
-/

namespace ContractScan

open ContractScan.Text (isBlank)
open ContractScan.Vocabulary (isOperatorChar)

/-! ## Classes of characters -/

/-- The code points with the White_Space property. -/
def whiteSpace : List Nat :=
  List.range' 0x9 5 ++ [0x20, 0x85, 0xA0, 0x1680] ++ List.range' 0x2000 11 ++
    [0x2028, 0x2029, 0x202F, 0x205F, 0x3000]

theorem isBlank_iff_mem {c : Char} : isBlank c ↔ c.toNat ∈ whiteSpace := by
  simp only [isBlank, whiteSpace, List.mem_append, List.mem_range'_1, List.mem_cons,
    List.not_mem_nil, or_false, Bool.or_eq_true, Bool.and_eq_true, decide_eq_true_eq, beq_iff_eq]
  omega

namespace Lexeme

/-- The characters that start words: the letters of ASCII, the underscore and the dollar sign. -/
def wordStarts : List Char := "abcdefghijklmnopqrstuvwxyzABCDEFGHIJKLMNOPQRSTUVWXYZ_$".toList

/-- The characters that start tokens which are no errors, besides white space and points. -/
def tokenStarts : List Char :=
  wordStarts ++ decimalDigits ++ quotes ++ brackets ++ Vocabulary.operatorChars

theorem mem_wordStarts {c : Char} : c ∈ wordStarts ↔ isWordStart c := by
  constructor
  · intro h
    exact List.all_eq_true.mp (by decide +kernel : wordStarts.all isWordStart) c h
  · intro h
    have hnot := eq_false_of_ascii (p := isWordStart) (q := fun c => !wordStarts.contains c)
      (by decide +kernel) (toNat_lt_of_isWordStart h) h
    simpa using hnot

theorem mem_wordChars {c : Char} : c ∈ wordStarts ++ decimalDigits ↔ isWordPart c := by
  rw [List.mem_append, mem_wordStarts, mem_decimalDigits, isWordPart, Bool.or_eq_true]

theorem isOperatorChar_iff {c : Char} : isOperatorChar c ↔ c ∈ Vocabulary.operatorChars :=
  List.contains_iff_mem

/-- A point in front of a digit starts a number, and so does a digit. -/
theorem startsNumber_cons_iff {c : Char} {r : List Char} :
    startsNumber (c :: r) ↔ c.isDigit ∨ ∃ d ∈ decimalDigits, ['.', d] <+: c :: r := by
  rw [startsNumber_iff]
  refine or_congr ⟨fun h => ?_, fun h => ⟨c, r, rfl, h⟩⟩ ⟨fun h => ?_, fun h => ?_⟩
  · obtain ⟨d, s, hs, hd⟩ := h
    rwa [(List.cons.inj hs).1]
  · obtain ⟨d, s, hs, hd⟩ := h
    exact ⟨d, mem_decimalDigits.mpr hd, s, hs.symm⟩
  · obtain ⟨d, hd, s, hs⟩ := h
    exact ⟨d, s, hs.symm, mem_decimalDigits.mp hd⟩

/-! ## Kinds -/

theorem kind_first_whitespace_iff {c : Char} {r : List Char} :
    (first c r).kind = .whitespace ↔ isBlank c := by
  constructor
  · intro h
    exact (first_of_kind_whitespace h).1
  · intro h
    rw [OfClass.eq_first (.blank h)]

theorem kind_first_word_iff {c : Char} {r : List Char} :
    ((first c r).kind = .keyword ∨ (first c r).kind = .identifier) ↔ isWordStart c := by
  constructor
  · intro h
    have hc := mayStart_kind_first c r
    rcases h with h | h
    · rwa [h] at hc
    · rwa [h] at hc
  · intro h
    rw [OfClass.eq_first (.word h)]
    exact kind_classified_identifier _

/-- An error of one character comes from no other class. -/
theorem kind_first_invalid_iff {c : Char} {r : List Char} :
    (first c r).kind = .invalid ↔ isBlank c = false ∧ isWordStart c = false ∧
      startsNumber (c :: r) = false ∧ isQuote c = false ∧ isBracket c = false ∧
      isOperatorChar c = false := by
  constructor
  · intro h
    have hclass := ofClass_first c r
    generalize first c r = l at h hclass
    cases hclass with
    | blank => cases h
    | word =>
      rcases kind_classified_identifier (c :: r.takeWhile isWordPart) with hk | hk
      · cases hk.symm.trans h
      · cases hk.symm.trans h
    | number =>
      dsimp only at h
      split at h
      · cases h
      · cases h
    | literal =>
      rcases kind_literal c r with hk | hk
      · cases hk.symm.trans h
      · cases hk.symm.trans h
    | bracket => cases h
    | lineComment => cases h
    | blockComment => cases h
    | operators =>
      rcases kind_classified_operator (operatorRun (c :: r)) with hk | hk
      · cases hk.symm.trans h
      · cases hk.symm.trans h
    | invalid hblank hword hnumber hquote hbracket hoperator =>
      exact ⟨hblank, hword, hnumber, hquote, hbracket, hoperator⟩
  · intro h
    obtain ⟨hblank, hword, hnumber, hquote, hbracket, hoperator⟩ := h
    rw [OfClass.eq_first (.invalid hblank hword hnumber hquote hbracket hoperator)]

theorem chars_first_of_invalid {c : Char} {r : List Char} (h : (first c r).kind = .invalid) :
    (first c r).chars = [c] := by
  obtain ⟨hblank, hword, hnumber, hquote, hbracket, hoperator⟩ := kind_first_invalid_iff.mp h
  rw [OfClass.eq_first (.invalid hblank hword hnumber hquote hbracket hoperator)]

theorem kind_first_invalid_iff_not_mem {c : Char} {r : List Char} :
    (first c r).kind = .invalid ↔ (c.toNat ∉ whiteSpace ∧ c ∉ tokenStarts) ∧
      ∀ d ∈ decimalDigits, ¬ ['.', d] <+: c :: r := by
  simp only [kind_first_invalid_iff, ← Bool.not_eq_true, isBlank_iff_mem, ← mem_wordStarts,
    startsNumber_cons_iff, ← mem_decimalDigits, isQuote_iff, isBracket_iff, isOperatorChar_iff,
    tokenStarts, List.mem_append, not_or, not_exists, not_and]
  tauto

end Lexeme

open Lexeme

/-! ## Tokens -/

/-- White space takes all the blanks behind a boundary. -/
theorem isLongestPrefix_of_whitespace {text : String} {k : Nat} {t : Token}
    (ht : (tokenize text)[k]? = some t) (hkind : t.kind = .whitespace) :
    IsLongestPrefix (fun w => ∀ c ∈ w, c.toNat ∈ whiteSpace) t.lexeme.toList (leftOver text k) := by
  obtain ⟨c, r, hleft, hfirst, hchars⟩ := exists_first_of_getElem? ht
  obtain ⟨hblank, hpiece⟩ := first_of_kind_whitespace (hfirst.symm.trans hkind)
  rw [hchars, hpiece, hleft, ← List.takeWhile_cons_of_pos hblank]
  refine (isLongestPrefix_takeWhile isBlank (c :: r)).congr fun w => ?_
  exact forall₂_congr fun c _ => isBlank_iff_mem

/-- A word takes all the characters of words behind a boundary, and the vocabulary settles its
kind. -/
theorem isLongestPrefix_of_word {text : String} {k : Nat} {t : Token}
    (ht : (tokenize text)[k]? = some t) (hkind : t.kind = .keyword ∨ t.kind = .identifier) :
    IsLongestPrefix (fun w => ∀ c ∈ w, c ∈ wordStarts ++ decimalDigits) t.lexeme.toList
        (leftOver text k) ∧
      t.kind = if t.lexeme ∈ Vocabulary.keywords then .keyword else .identifier := by
  obtain ⟨c, r, hleft, hfirst, hchars⟩ := exists_first_of_getElem? ht
  rw [hfirst, kind_first_word_iff] at hkind
  have hpart : isWordPart c := by rw [isWordPart, hkind, Bool.true_or]
  rw [OfClass.eq_first (.word hkind), ← List.takeWhile_cons_of_pos hpart] at hfirst hchars
  have hlexeme : t.lexeme = String.ofList ((c :: r).takeWhile isWordPart) := by
    rw [← String.ofList_toList (s := t.lexeme), hchars]
    rfl
  refine ⟨?_, ?_⟩
  · rw [hleft, hchars]
    refine (isLongestPrefix_takeWhile isWordPart (c :: r)).congr fun w => ?_
    exact forall₂_congr fun c _ => mem_wordChars.symm
  · simp only [hfirst, hlexeme, classified, Vocabulary.classify, Vocabulary.isKeyword,
      List.contains_iff_mem]

/-- A stray character stands alone. -/
theorem singleton_of_invalid {text : String} {k : Nat} {t : Token}
    (ht : (tokenize text)[k]? = some t) (hkind : t.kind = .invalid) :
    ∃ c ∈ (leftOver text k).head?, t.lexeme = String.singleton c := by
  obtain ⟨c, r, hleft, hfirst, hchars⟩ := exists_first_of_getElem? ht
  rw [chars_first_of_invalid (hfirst.symm.trans hkind)] at hchars
  refine ⟨c, by rw [hleft]; rfl, ?_⟩
  rw [String.singleton_eq_ofList, ← hchars, String.ofList_toList]

/-- Where the first character decides, a token of some kind stands behind the boundaries with such
a character. -/
theorem exists_kind_iff_head? {text : String} {k : Nat} {P : TokenKind → Prop} {Q : Char → Prop}
    (h : ∀ c r, P (first c r).kind ↔ Q c) :
    (∃ t ∈ (tokenize text)[k]?, P t.kind) ↔ ∃ c ∈ (leftOver text k).head?, Q c := by
  rw [exists_kind_tokenize_iff]
  constructor
  · intro hkind
    obtain ⟨c, r, hleft, hkind⟩ := hkind
    exact ⟨c, by rw [hleft]; rfl, (h c r).mp hkind⟩
  · intro hhead
    obtain ⟨c, hc, hQ⟩ := hhead
    obtain ⟨r, hleft⟩ := List.head?_eq_some_iff.mp hc
    exact ⟨c, r, hleft, (h c r).mpr hQ⟩

theorem exists_invalid_iff (text : String) (k : Nat) :
    (∃ t ∈ (tokenize text)[k]?, t.kind = .invalid) ↔
      (∃ c ∈ (leftOver text k).head?, c.toNat ∉ whiteSpace ∧ c ∉ tokenStarts) ∧
        ∀ d ∈ decimalDigits, ¬ ['.', d] <+: leftOver text k := by
  rw [exists_kind_tokenize_iff (P := (· = .invalid))]
  constructor
  · intro h
    obtain ⟨c, r, hleft, hkind⟩ := h
    rw [kind_first_invalid_iff_not_mem] at hkind
    rw [hleft]
    exact ⟨⟨c, rfl, hkind.1⟩, hkind.2⟩
  · intro h
    obtain ⟨⟨c, hc, hstart⟩, hpoint⟩ := h
    obtain ⟨r, hleft⟩ := List.head?_eq_some_iff.mp hc
    rw [hleft] at hpoint
    exact ⟨c, r, hleft, kind_first_invalid_iff_not_mem.mpr ⟨hstart, hpoint⟩⟩

/-- **Words, white space and stray characters.** Blanks at a boundary start white space, and the
    characters of words a word; both take all of their characters that follow, and the vocabulary
    tells keywords from other words. A token is a stray character exactly where none of the
    others starts, and then it is that character. -/
theorem words_exact (text : String) (k : Nat) :
    ((∃ t ∈ (tokenize text)[k]?, t.kind = .whitespace) ↔
      ∃ c ∈ (leftOver text k).head?, c.toNat ∈ whiteSpace) ∧
    (∀ t ∈ (tokenize text)[k]?, t.kind = .whitespace →
      IsLongestPrefix (fun w => ∀ c ∈ w, c.toNat ∈ whiteSpace) t.lexeme.toList
        (leftOver text k)) ∧
    ((∃ t ∈ (tokenize text)[k]?, t.kind = .keyword ∨ t.kind = .identifier) ↔
      ∃ c ∈ (leftOver text k).head?, c ∈ wordStarts) ∧
    (∀ t ∈ (tokenize text)[k]?, t.kind = .keyword ∨ t.kind = .identifier →
      IsLongestPrefix (fun w => ∀ c ∈ w, c ∈ wordStarts ++ decimalDigits) t.lexeme.toList
        (leftOver text k) ∧
      t.kind = if t.lexeme ∈ Vocabulary.keywords then .keyword else .identifier) ∧
    ((∃ t ∈ (tokenize text)[k]?, t.kind = .invalid) ↔
      (∃ c ∈ (leftOver text k).head?, c.toNat ∉ whiteSpace ∧ c ∉ tokenStarts) ∧
        ∀ d ∈ decimalDigits, ¬ ['.', d] <+: leftOver text k) ∧
    ∀ t ∈ (tokenize text)[k]?, t.kind = .invalid →
      ∃ c ∈ (leftOver text k).head?, t.lexeme = String.singleton c := by
  refine ⟨?_, fun t => isLongestPrefix_of_whitespace, ?_, fun t => isLongestPrefix_of_word,
    exists_invalid_iff text k, fun t => singleton_of_invalid⟩
  · exact exists_kind_iff_head? (P := (· = .whitespace)) fun c r =>
      kind_first_whitespace_iff.trans isBlank_iff_mem
  · exact exists_kind_iff_head? (P := fun k => k = .keyword ∨ k = .identifier) fun c r =>
      kind_first_word_iff.trans mem_wordStarts.symm

/-- Digits of other scripts and a byte order mark are strays, and a point needs a digit. -/
example : (tokenize "let_$1\u2003.٣.5\ufeff").map (fun t => (t.kind, t.lexeme)) =
    [(.identifier, "let_$1"), (.whitespace, "\u2003"), (.invalid, "."), (.invalid, "٣"),
      (.numberFloat, ".5"), (.invalid, "\ufeff")] := by
  decide +kernel

end ContractScan
