import ContractScan.Proofs.Delimiters
import ContractScan.Proofs.Rows

/-
  Seams between tokens. No piece ends between a carriage return and the line feed after it
  (`not_seamInBreak_first`): white space takes both, a literal takes both after a backslash or
  stops in front of them, and a comment ends with its mark or in front of them. So the lines of
  a token, taken by itself, are cut where the lines of the whole text are. The tokens that
  messages name, brackets and errors of one line, hold no line break at all (`oneLine_lexeme`).
-/

namespace ContractScan

open ContractScan.Text (isBlank)
open ContractScan.Vocabulary (isOperatorChar)

theorem not_seamInBreak_of_not_mem {a : List Char} (h : '\r' ∉ a) (b : List Char) :
    ¬ SeamInBreak a b :=
  fun hs => h (List.mem_of_getLast? hs.1)

/-- Only the end of what comes before a seam matters. -/
theorem not_seamInBreak_append {a b c : List Char} (ha : b = [] → ¬ SeamInBreak a c)
    (hb : b ≠ [] → ¬ SeamInBreak b c) : ¬ SeamInBreak (a ++ b) c := by
  rintro ⟨hlast, hhead⟩
  cases b with
  | nil =>
    rw [List.append_nil] at hlast
    exact ha rfl ⟨hlast, hhead⟩
  | cons x b =>
    have hne := List.cons_ne_nil x b
    rw [List.getLast?_append_of_ne_nil _ hne] at hlast
    exact hb hne ⟨hlast, hhead⟩

namespace Lexeme

/-! ## Bodies -/

theorem not_seamInBreak_literalBody {quote : Char} (hq : quote ≠ '\r') (cs : List Char) :
    ¬ SeamInBreak (literalBody quote cs).chars
      (cs.drop (literalBody quote cs).chars.length) := by
  fun_induction literalBody quote cs with
  | case1 => exact not_seamInBreak_of_not_mem (by simp) _
  | case2 r ih =>
    refine not_seamInBreak_append (fun _ => ?_) fun _ => ih
    exact fun hs => absurd hs.1 (by decide)
  | case3 c r hne ih =>
    refine not_seamInBreak_append (fun hb => ?_) fun _ => ih
    rw [Body.after, hb]
    rintro ⟨hlast, hhead⟩
    obtain ⟨r', hr⟩ := List.head?_eq_some_iff.mp hhead
    exact hne r' (Option.some.inj hlast) hr
  | case4 => exact not_seamInBreak_of_not_mem (by simpa using hq.symm) _
  | case5 => exact not_seamInBreak_of_not_mem (by simp) _
  | case6 c r _ _ _ hc ih =>
    refine not_seamInBreak_append (fun _ => ?_) fun _ => ih
    refine not_seamInBreak_of_not_mem (fun hr => hc ?_) _
    rw [← List.mem_singleton.mp hr]
    rfl

theorem blockBody_ne_nil (c : Char) (r : List Char) : blockBody (c :: r) ≠ [] := by
  unfold blockBody
  split
  · next h => cases h
  · exact List.cons_ne_nil _ _
  · exact List.cons_ne_nil _ _

theorem not_seamInBreak_blockBody (cs : List Char) :
    ¬ SeamInBreak (blockBody cs) (cs.drop (blockBody cs).length) := by
  fun_induction blockBody cs with
  | case1 => exact not_seamInBreak_of_not_mem (by simp) _
  | case2 r => exact not_seamInBreak_of_not_mem (by decide) _
  | case3 c r _ ih =>
    refine not_seamInBreak_append (a := [c]) (fun hb => ?_) fun _ => ih
    rw [hb]
    cases r with
    | nil => exact fun hs => absurd hs.2 (by simp)
    | cons d r => exact absurd hb (blockBody_ne_nil d r)

/-! ## Pieces -/

theorem not_mem_of_forall {p : Char → Bool} (hp : p '\r' = false) {a : List Char}
    (ha : ∀ c ∈ a, p c) : '\r' ∉ a := by
  intro h
  have := ha _ h
  rw [hp] at this
  cases this

theorem not_seamInBreak_first (c : Char) (r : List Char) :
    ¬ SeamInBreak (first c r).chars ((c :: r).drop (first c r).chars.length) := by
  have hclass := ofClass_first c r
  generalize first c r = l at hclass
  cases hclass with
  | blank h =>
    -- White space goes on over the line feed.
    rintro ⟨-, hhead⟩
    have hrest : (c :: r).drop (c :: r.takeWhile isBlank).length = r.dropWhile isBlank := by
      rw [List.length_cons, List.drop_succ_cons]
      have h : (r.takeWhile isBlank ++ r.dropWhile isBlank).drop (r.takeWhile isBlank).length =
          r.dropWhile isBlank := List.drop_left
      rwa [List.takeWhile_append_dropWhile] at h
    rw [hrest] at hhead
    have := List.head?_dropWhile_not isBlank r
    rw [hhead] at this
    cases this
  | word h =>
    exact not_seamInBreak_of_not_mem (not_mem_of_forall (p := isWordPart) rfl fun x hx =>
      isWordPart_of_mem_word h hx) _
  | number h =>
    exact not_seamInBreak_of_not_mem (not_mem_of_forall (p := isNumberPart) rfl fun x hx =>
      isNumberPart_of_mem_number hx) _
  | literal h =>
    have hq : c ≠ '\r' := by
      rintro rfl
      cases h
    refine not_seamInBreak_append (a := [c]) (fun _ => ?_) fun _ =>
      not_seamInBreak_literalBody hq r
    exact not_seamInBreak_of_not_mem (by simpa using hq.symm) _
  | bracket h =>
    refine not_seamInBreak_of_not_mem (not_mem_of_forall (p := isBracket) rfl fun x hx => ?_) _
    rwa [List.mem_singleton.mp hx]
  | lineComment h =>
    refine not_seamInBreak_of_not_mem (fun hr => ?_) _
    have := List.mem_takeWhile_imp hr
    cases this
  | blockComment h =>
    obtain ⟨s, hs⟩ := opensBlockComment_iff.mp h
    injection hs with hc hr
    subst hc hr
    exact not_seamInBreak_append (a := ['/', '*'])
      (fun _ => not_seamInBreak_of_not_mem (by decide) _) fun _ => not_seamInBreak_blockBody s
  | operators h hc =>
    exact not_seamInBreak_of_not_mem (not_mem_of_forall (p := isOperatorChar) rfl fun x hx =>
      isOperatorChar_of_mem_operatorRun hx) _
  | invalid hblank =>
    refine not_seamInBreak_of_not_mem (fun hr => ?_) _
    rw [← List.mem_singleton.mp hr] at hblank
    cases hblank

theorem not_isLineBreak_first {c : Char} {r : List Char}
    (hk : (first c r).kind = .bracket ∨ (first c r).kind = .invalid ∨
      (first c r).kind = .unrecognized) :
    ∀ x ∈ (first c r).chars, Text.isLineBreak x = false := by
  -- The characters of these classes exclude line breaks one class at a time.
  have of_class {p : Char → Bool} (hp : ['\n', '\r'].all fun c => !p c) {x : Char} (hx : p x) :
      Text.isLineBreak x = false := by
    rw [← Bool.not_eq_true, Text.isLineBreak_iff]
    rintro (rfl | rfl) <;> simp [hx] at hp
  have hclass := ofClass_first c r
  generalize first c r = l at hk hclass
  cases hclass with
  | blank h => simp at hk
  | word h =>
    rcases kind_classified_identifier (c :: r.takeWhile isWordPart) with h | h <;> simp [h] at hk
  | number h => dsimp only at hk; split at hk <;> simp at hk
  | literal h => rcases kind_literal c r with h | h <;> simp [h] at hk
  | bracket h =>
    intro x hx
    rw [List.mem_singleton.mp hx]
    exact of_class (by decide) h
  | lineComment h => simp at hk
  | blockComment h => simp at hk
  | operators h hc =>
    intro x hx
    exact of_class (by decide) (isOperatorChar_of_mem_operatorRun hx)
  | invalid hblank =>
    intro x hx
    rw [List.mem_singleton.mp hx]
    exact of_class (p := fun c => !isBlank c) (by decide) (by rw [hblank]; rfl)

end Lexeme

/-- Brackets and the errors that are quoted in messages have no line breaks. -/
theorem oneLine_lexeme {text : String} {t : Token} (ht : t ∈ tokenize text)
    (hk : t.kind = .bracket ∨ t.kind = .invalid ∨ t.kind = .unrecognized) : OneLine t.lexeme := by
  obtain ⟨before, c, r, -, rfl⟩ := mem_tokenize ht
  rw [Lexeme.toToken, oneLine_ofList]
  exact Lexeme.not_isLineBreak_first hk

end ContractScan
