import ContractScan.Proofs.Boundaries
import ContractScan.Proofs.Lookahead

/-
  Runs of operators. A run takes all operator characters up to a comment, and every `/` in it is
  judged by the character behind it, also where that is no part of the run. Main statement: the
  tokens of operator characters are the longest runs of the text, and because of that no two of
  them stand side by side (`operatorRuns_exact`).
-/

namespace ContractScan

open ContractScan.Vocabulary (isOperatorChar)

/-- Whether a run of operator characters at the start of a text comes before every comment: no
comment opens at a character of the run. -/
structure IsOperatorRun (cs w : List Char) : Prop where
  ne_nil : w ≠ []
  chars : ∀ c ∈ w, isOperatorChar c
  noComment : ∀ i < w.length, ¬ ['/', '/'] <+: cs.drop i ∧ ¬ ['/', '*'] <+: cs.drop i

namespace Lexeme

theorem opensComment_eq_false_iff {cs : List Char} :
    opensComment cs = false ↔ ¬ ['/', '/'] <+: cs ∧ ¬ ['/', '*'] <+: cs := by
  rw [← Bool.not_eq_true, opensComment_iff, not_or]

/-! ## The reader takes the longest run -/

theorem isOperatorRun_operatorRun {c : Char} {r : List Char} (hc : isOperatorChar c)
    (hopens : opensComment (c :: r) = false) : IsOperatorRun (c :: r) (operatorRun (c :: r)) where
  ne_nil := operatorRun_ne_nil hc hopens
  chars := fun _ hx => isOperatorChar_of_mem_operatorRun hx
  noComment := by
    intro i hi
    have hnone := startsDelimiter_drop_of_operatorRun hi
    rw [← opensComment_eq_false_iff]
    cases hdrop : (c :: r).drop i with
    | nil => rfl
    | cons x s =>
      rw [hdrop, startsDelimiter, Bool.or_eq_false_iff] at hnone
      exact hnone.2

theorem prefix_operatorRun {cs w : List Char} (hw : w <+: cs) (hchars : ∀ c ∈ w, isOperatorChar c)
    (hnone : ∀ i < w.length, opensComment (cs.drop i) = false) : w <+: operatorRun cs := by
  induction w generalizing cs with
  | nil => exact List.nil_prefix
  | cons c w ih =>
    obtain ⟨t, rfl⟩ := hw
    have hc := hchars c List.mem_cons_self
    have hopens : opensComment (c :: (w ++ t)) = false := hnone 0 (Nat.succ_pos _)
    rw [List.cons_append, operatorRun, hc, hopens]
    refine (List.prefix_cons_inj c).mpr (ih (List.prefix_append w t) ?_ fun i hi => ?_)
    · exact fun x hx => hchars x (List.mem_cons_of_mem c hx)
    · exact hnone (i + 1) (Nat.succ_lt_succ hi)

theorem isLongestPrefix_operatorRun {c : Char} {r : List Char} (hc : isOperatorChar c)
    (hopens : opensComment (c :: r) = false) :
    IsLongestPrefix (IsOperatorRun (c :: r)) (operatorRun (c :: r)) (c :: r) where
  isPrefix := operatorRun_isPrefix _
  holds := isOperatorRun_operatorRun hc hopens
  length_le := fun _ hv hrun => (prefix_operatorRun hv hrun.chars fun i hi =>
    opensComment_eq_false_iff.mpr (hrun.noComment i hi)).length_le

end Lexeme

open Lexeme

/-- Behind a longest run stands no operator character, unless a comment opens there. -/
theorem IsLongestPrefix.opensComment_behind {cs w : List Char}
    (h : IsLongestPrefix (IsOperatorRun cs) w cs) {c : Char} {r : List Char}
    (hbehind : cs.drop w.length = c :: r) (hc : isOperatorChar c) : opensComment (c :: r) := by
  by_contra hopens
  rw [Bool.not_eq_true] at hopens
  -- The run could go on with that character.
  have hsplit : w ++ c :: r = cs := by
    rw [← hbehind]
    exact List.prefix_iff_eq_append.mp h.isPrefix
  have hlonger : IsOperatorRun cs (w ++ [c]) := by
    refine ⟨List.append_ne_nil_of_right_ne_nil w (List.cons_ne_nil c []), fun x hx => ?_,
      fun i hi => ?_⟩
    · rcases List.mem_append.mp hx with hx | hx
      · exact h.holds.chars x hx
      · rwa [List.mem_singleton.mp hx]
    · rw [List.length_append, List.length_singleton] at hi
      rcases Nat.lt_succ_iff_lt_or_eq.mp hi with hi | rfl
      · exact h.holds.noComment i hi
      · rwa [hbehind, ← opensComment_eq_false_iff]
  have hle := h.length_le (w ++ [c]) ⟨r, by rw [← hsplit, List.append_assoc]; rfl⟩ hlonger
  rw [List.length_append, List.length_singleton] at hle
  omega

/-! ## Tokens -/

theorem kind_first_operator_iff {c : Char} {r : List Char} :
    ((first c r).kind = .operator ∨ (first c r).kind = .unrecognized) ↔
      isOperatorChar c ∧ opensComment (c :: r) = false := by
  constructor
  · intro h
    have hc := mayStart_kind_first c r
    refine ⟨?_, ?_⟩
    · rcases h with h | h <;> rwa [h] at hc
    · rw [← Bool.not_eq_true]
      intro hopens
      rw [kind_first_of_opensComment hopens] at h
      rcases h with h | h <;> cases h
  · intro h
    rw [OfClass.eq_first (.operators h.1 h.2)]
    exact kind_classified_operator _

/-- A token of operator characters is the longest run behind a boundary, and the vocabulary
settles its kind. -/
theorem isLongestPrefix_of_operator {text : String} {k : Nat} {t : Token}
    (ht : (tokenize text)[k]? = some t) (hkind : t.kind = .operator ∨ t.kind = .unrecognized) :
    IsLongestPrefix (IsOperatorRun (leftOver text k)) t.lexeme.toList (leftOver text k) ∧
      t.kind = if t.lexeme ∈ Vocabulary.operators then .operator else .unrecognized := by
  obtain ⟨c, r, hleft, hfirst, hchars⟩ := exists_first_of_getElem? ht
  rw [hfirst, kind_first_operator_iff] at hkind
  obtain ⟨hc, hopens⟩ := hkind
  rw [OfClass.eq_first (.operators hc hopens)] at hfirst hchars
  have hlexeme : t.lexeme = String.ofList (operatorRun (c :: r)) := by
    rw [← String.ofList_toList (s := t.lexeme), hchars]
    rfl
  refine ⟨?_, ?_⟩
  · rw [hleft, hchars]
    exact isLongestPrefix_operatorRun hc hopens
  · simp only [hfirst, hlexeme, classified, Vocabulary.classify, Vocabulary.isOperator,
      List.contains_iff_mem]

/-- Two runs of operator characters would be one. -/
theorem not_operator_behind {text : String} {k : Nat} {t u : Token}
    (ht : (tokenize text)[k]? = some t) (hkind : t.kind = .operator ∨ t.kind = .unrecognized)
    (hu : (tokenize text)[k + 1]? = some u) : ¬ (u.kind = .operator ∨ u.kind = .unrecognized) := by
  obtain ⟨c, r, hleft, -, hchars⟩ := exists_first_of_getElem? ht
  obtain ⟨c', r', hleft', hfirst', -⟩ := exists_first_of_getElem? hu
  rw [hfirst', kind_first_operator_iff]
  intro h
  have hlongest := (isLongestPrefix_of_operator ht hkind).1
  rw [leftOver_succ hleft, ← hchars, ← hleft] at hleft'
  rw [hlongest.opensComment_behind hleft' h.1] at h
  cases h.2

/-- **Runs of operators.** A token is made of operator characters exactly where one stands behind
    a boundary and no comment opens there. Then it is the longest run of them up to a comment, and
    an operator if the vocabulary has it. So no two such tokens stand side by side. -/
theorem operatorRuns_exact (text : String) :
    (∀ k, (∃ t ∈ (tokenize text)[k]?, t.kind = .operator ∨ t.kind = .unrecognized) ↔
      (∃ c r, leftOver text k = c :: r ∧ isOperatorChar c) ∧
        ¬ ['/', '/'] <+: leftOver text k ∧ ¬ ['/', '*'] <+: leftOver text k) ∧
    (∀ k, ∀ t ∈ (tokenize text)[k]?, t.kind = .operator ∨ t.kind = .unrecognized →
      IsLongestPrefix (IsOperatorRun (leftOver text k)) t.lexeme.toList (leftOver text k) ∧
      t.kind = if t.lexeme ∈ Vocabulary.operators then .operator else .unrecognized) ∧
    (tokenize text).IsChain fun a b =>
      ¬ ((a.kind = .operator ∨ a.kind = .unrecognized) ∧
        (b.kind = .operator ∨ b.kind = .unrecognized)) := by
  refine ⟨fun k => ⟨fun h => ?_, fun h => ?_⟩, fun k t => isLongestPrefix_of_operator, ?_⟩
  · obtain ⟨t, ht, hkind⟩ := h
    obtain ⟨c, r, hleft, hfirst, -⟩ := exists_first_of_getElem? ht
    rw [hfirst, kind_first_operator_iff] at hkind
    rw [hleft, ← opensComment_eq_false_iff]
    exact ⟨⟨c, r, rfl, hkind.1⟩, hkind.2⟩
  · obtain ⟨⟨c, r, hleft, hc⟩, hopens⟩ := h
    rw [hleft, ← opensComment_eq_false_iff] at hopens
    obtain ⟨t, ht, hkind, -⟩ := exists_token_of_leftOver hleft
    exact ⟨t, ht, by rw [hkind]; exact kind_first_operator_iff.mpr ⟨hc, hopens⟩⟩
  · rw [List.isChain_iff_getElem]
    intro i hi h
    exact not_operator_behind (List.getElem?_eq_getElem _) h.1 (List.getElem?_eq_getElem hi) h.2

/-- Only a slash that opens a comment ends a run. -/
example : (tokenize "</ */*/").map (fun t => (t.kind, t.lexeme)) =
    [(.unrecognized, "</"), (.whitespace, " "), (.operator, "*"), (.comment, "/*/")] := by
  decide +kernel

end ContractScan
