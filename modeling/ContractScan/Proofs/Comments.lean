import ContractScan.Proofs.Boundaries
import ContractScan.Proofs.LexemeClass
import ContractScan.Diagnostic.Lexical
import Mathlib.Order.Bounds.Defs

/-
  Comments. One between marks ends with the first closing mark that shares no character with its
  opening mark, and with the text if there is none (`blockBody_of_isLeast`,
  `blockBody_of_eq_empty`); one behind two slashes ends with its line. Main statement: this is
  where comments end, they stand nowhere else, and no finding about a token touches one
  (`comments_exact`).
-/

namespace ContractScan

open ContractScan.Text (isLineBreak isLineBreak_iff)

namespace Lexeme

/-! ## Closing marks -/

/-- The places from `n` on where a text has the mark that closes a comment. -/
def closingMarks (n : Nat) (cs : List Char) : Set Nat := {i | n ≤ i ∧ ['*', '/'] <+: cs.drop i}

theorem succ_mem_closingMarks {n i : Nat} {c : Char} {r : List Char} :
    i + 1 ∈ closingMarks (n + 1) (c :: r) ↔ i ∈ closingMarks n r :=
  ⟨fun h => ⟨Nat.le_of_succ_le_succ h.1, h.2⟩, fun h => ⟨Nat.succ_le_succ h.1, h.2⟩⟩

theorem exists_succ_of_mem_closingMarks {n i : Nat} {c : Char} {r : List Char}
    (h : i ∈ closingMarks (n + 1) (c :: r)) : ∃ j ∈ closingMarks n r, i = j + 1 := by
  cases i with
  | zero => exact absurd h.1 (Nat.not_succ_le_zero n)
  | succ j => exact ⟨j, succ_mem_closingMarks.mp h, rfl⟩

/-- The first closing mark behind a character. -/
theorem exists_isLeast_closingMarks {n i : Nat} {c : Char} {r : List Char}
    (h : IsLeast (closingMarks (n + 1) (c :: r)) i) :
    ∃ j, IsLeast (closingMarks n r) j ∧ i = j + 1 := by
  obtain ⟨j, hj, rfl⟩ := exists_succ_of_mem_closingMarks h.1
  refine ⟨j, ⟨hj, fun m hm => ?_⟩, rfl⟩
  exact Nat.le_of_succ_le_succ (h.2 (succ_mem_closingMarks.mpr hm))

theorem closingMarks_eq_empty_of_cons {n : Nat} {c : Char} {r : List Char}
    (h : closingMarks (n + 1) (c :: r) = ∅) : closingMarks n r = ∅ := by
  refine Set.eq_empty_of_forall_notMem fun i hi => ?_
  rw [← succ_mem_closingMarks (c := c), h] at hi
  exact hi

/-- Where no closing mark stands at the start, only later ones matter. -/
theorem closingMarks_zero_cons {c : Char} {r : List Char}
    (h : ∀ s, c = '*' → r ≠ '/' :: s) : closingMarks 0 (c :: r) = closingMarks 1 (c :: r) := by
  refine Set.ext fun i => ⟨fun hi => ⟨?_, hi.2⟩, fun hi => ⟨Nat.zero_le i, hi.2⟩⟩
  cases i with
  | zero =>
    obtain ⟨s, hs⟩ := hi.2
    rw [List.drop_zero] at hs
    injection hs with hc hr
    exact absurd hr.symm (h s hc.symm)
  | succ i => exact Nat.succ_pos i

/-! ## The reader -/

theorem blockBody_of_isLeast {cs : List Char} {i : Nat} (h : IsLeast (closingMarks 0 cs) i) :
    blockBody cs = cs.take (i + 2) := by
  fun_induction blockBody cs generalizing i with
  | case1 =>
    obtain ⟨s, hs⟩ := h.1.2
    rw [List.drop_nil] at hs
    cases hs
  | case2 r =>
    have hzero : i = 0 := Nat.le_zero.mp (h.2 ⟨Nat.le_refl 0, ⟨r, rfl⟩⟩)
    rw [hzero]
    rfl
  | case3 c r hne ih =>
    rw [closingMarks_zero_cons fun s hc hr => hne s hc hr] at h
    obtain ⟨j, hj, rfl⟩ := exists_isLeast_closingMarks h
    rw [ih hj, Nat.add_right_comm, List.take_succ_cons]

theorem blockBody_of_eq_empty {cs : List Char} (h : closingMarks 0 cs = ∅) : blockBody cs = cs := by
  fun_induction blockBody cs with
  | case1 => rfl
  | case2 r =>
    have hclose : 0 ∈ closingMarks 0 ('*' :: '/' :: r) := ⟨Nat.le_refl 0, ⟨r, rfl⟩⟩
    rw [h] at hclose
    cases hclose
  | case3 c r hne ih =>
    rw [closingMarks_zero_cons fun s hc hr => hne s hc hr] at h
    rw [ih (closingMarks_eq_empty_of_cons h)]

/-- A comment up to the first closing mark behind its opening mark. -/
theorem chars_first_of_isLeast {s : List Char} {i : Nat}
    (h : IsLeast (closingMarks 2 ('/' :: '*' :: s)) i) :
    (first '/' ('*' :: s)).chars = ('/' :: '*' :: s).take (i + 2) := by
  obtain ⟨j, hj, rfl⟩ := exists_isLeast_closingMarks h
  obtain ⟨m, hm, rfl⟩ := exists_isLeast_closingMarks hj
  rw [first_slash_star, blockBody_of_isLeast hm]
  rfl

/-- A comment that nothing closes. -/
theorem chars_first_of_eq_empty {s : List Char} (h : closingMarks 2 ('/' :: '*' :: s) = ∅) :
    (first '/' ('*' :: s)).chars = '/' :: '*' :: s := by
  have hbody := closingMarks_eq_empty_of_cons (closingMarks_eq_empty_of_cons h)
  rw [first_slash_star, blockBody_of_eq_empty hbody]

theorem isLongestPrefix_restOfLine (cs : List Char) :
    IsLongestPrefix (fun w => ∀ c ∈ w, c ≠ '\r' ∧ c ≠ '\n') (restOfLine cs) cs := by
  refine (isLongestPrefix_takeWhile (fun c => !isLineBreak c) cs).congr fun w => ?_
  refine forall₂_congr fun c _ => ?_
  rw [Bool.not_eq_true', ← Bool.not_eq_true, isLineBreak_iff, not_or, and_comm]

/-- Only the marks of comments start one. -/
theorem opensComment_of_kind_first {c : Char} {r : List Char} (h : (first c r).kind = .comment) :
    opensComment (c :: r) := by
  have hc := mayStart_kind_first c r
  rw [h, mayStart, beq_iff_eq] at hc
  subst hc
  by_contra hopens
  rw [Bool.not_eq_true] at hopens
  rw [OfClass.eq_first (.operators rfl hopens)] at h
  rcases kind_classified_operator (operatorRun ('/' :: r)) with hk | hk
  · rw [hk] at h
    cases h
  · rw [hk] at h
    cases h

end Lexeme

open Lexeme

/-! ## Findings -/

theorem byte_le_of_mem_tokensFrom {start byte : Nat} {cs : List Char} {t : Token}
    (h : t ∈ tokensFrom start byte cs) : byte ≤ t.span.start := by
  obtain ⟨before, c, r, -, rfl⟩ := mem_tokensFrom h
  exact Nat.le_add_right _ _

/-- The bytes of a token end in front of those of every later one. -/
theorem pairwise_span_tokensFrom (start byte : Nat) (cs : List Char) :
    (tokensFrom start byte cs).Pairwise fun a b => a.span.stop ≤ b.span.start := by
  fun_induction tokensFrom start byte cs with
  | case1 => exact List.Pairwise.nil
  | case2 start byte c r piece ih =>
    exact List.Pairwise.cons (fun t ht => byte_le_of_mem_tokensFrom ht) ih

/-- A finding about a token is a finding about its bytes. -/
theorem exists_token_of_mem_lexical {text : String} {d : Diagnostic}
    (h : d ∈ Diagnostic.lexical (tokenize text) (LineIndex.ofText text)) :
    ∃ t ∈ tokenize text, t.kind.isError ∧ d.range.span = t.span := by
  obtain ⟨t, ht, hd⟩ := List.mem_filterMap.mp h
  obtain ⟨p, hp, rfl⟩ := Option.map_eq_some_iff.mp hd
  exact ⟨t, ht, by rw [← Diagnostic.isSome_problem?, hp]; rfl, rfl⟩

theorem span_disjoint_of_ne {text : String} {t u : Token} (ht : t ∈ tokenize text)
    (hu : u ∈ tokenize text) (hne : t ≠ u) :
    t.span.stop ≤ u.span.start ∨ u.span.stop ≤ t.span.start := by
  obtain ⟨i, hi, rfl⟩ := List.getElem_of_mem ht
  obtain ⟨j, hj, rfl⟩ := List.getElem_of_mem hu
  have hpairs := List.pairwise_iff_getElem.mp (pairwise_span_tokensFrom 0 0 text.toList)
  rcases Nat.lt_trichotomy i j with hij | rfl | hij
  · exact Or.inl (hpairs i j hi hj hij)
  · exact absurd rfl hne
  · exact Or.inr (hpairs j i hj hi hij)

/-- No finding about a token touches a comment. -/
theorem span_disjoint_of_comment {text : String} {t : Token} (ht : t ∈ tokenize text)
    (hkind : t.kind = .comment) {d : Diagnostic}
    (hd : d ∈ Diagnostic.lexical (tokenize text) (LineIndex.ofText text)) :
    d.range.span.stop ≤ t.span.start ∨ t.span.stop ≤ d.range.span.start := by
  obtain ⟨u, hu, herror, hspan⟩ := exists_token_of_mem_lexical hd
  rw [hspan]
  refine span_disjoint_of_ne hu ht ?_
  intro hsame
  rw [hsame, hkind] at herror
  cases herror

/-! ## Tokens -/

/-- **Comments.** Behind a slash and a star at a boundary, a token is the comment up to the first
    closing mark from the third character on, or all that is left of the text; behind two
    slashes, it is the comment up to the end of the line. Comments stand at no other boundary, and
    no finding about a token touches one. -/
theorem comments_exact (text : String) (k : Nat) :
    (['/', '*'] <+: leftOver text k → ∃ t ∈ (tokenize text)[k]?, t.kind = .comment ∧
      (∀ i, IsLeast (closingMarks 2 (leftOver text k)) i →
        t.lexeme.toList = (leftOver text k).take (i + 2)) ∧
      (closingMarks 2 (leftOver text k) = ∅ →
        t.lexeme.toList = leftOver text k ∧ (tokenize text).length = k + 1)) ∧
    (['/', '/'] <+: leftOver text k → ∃ t ∈ (tokenize text)[k]?, t.kind = .comment ∧
      IsLongestPrefix (fun w => ∀ c ∈ w, c ≠ '\r' ∧ c ≠ '\n') t.lexeme.toList
        (leftOver text k)) ∧
    ∀ t ∈ (tokenize text)[k]?, t.kind = .comment →
      (['/', '*'] <+: leftOver text k ∨ ['/', '/'] <+: leftOver text k) ∧
      ∀ d ∈ Diagnostic.lexical (tokenize text) (LineIndex.ofText text),
        d.range.span.stop ≤ t.span.start ∨ t.span.stop ≤ d.range.span.start := by
  refine ⟨?_, ?_, fun t ht hkind => ⟨?_, fun d hd => ?_⟩⟩
  · intro h
    obtain ⟨s, hs⟩ := h
    have hleft : leftOver text k = '/' :: '*' :: s := hs.symm
    obtain ⟨t, ht, hkind, hchars⟩ := exists_token_of_leftOver hleft
    have hnext := leftOver_succ hleft
    rw [hleft]
    refine ⟨t, ht, hkind.trans (by rw [first_slash_star]), fun i hi => ?_, fun hnone => ?_⟩
    · rw [hchars, chars_first_of_isLeast hi]
    · have hall := chars_first_of_eq_empty hnone
      rw [hall] at hchars hnext
      rw [List.drop_length, leftOver_eq_nil_iff] at hnext
      refine ⟨hchars, Nat.le_antisymm hnext ?_⟩
      exact (List.getElem?_eq_some_iff.mp ht).1
  · intro h
    obtain ⟨s, hs⟩ := h
    have hleft : leftOver text k = '/' :: '/' :: s := hs.symm
    obtain ⟨t, ht, hkind, hchars⟩ := exists_token_of_leftOver hleft
    rw [first_slash_slash] at hkind hchars
    refine ⟨t, ht, hkind, ?_⟩
    rw [hleft, hchars]
    exact isLongestPrefix_restOfLine _
  · obtain ⟨c, r, hleft, hfirst, -⟩ := exists_first_of_getElem? ht
    rw [hleft]
    exact (opensComment_iff.mp (opensComment_of_kind_first (hfirst.symm.trans hkind))).symm
  · exact span_disjoint_of_comment (List.mem_of_getElem? ht) hkind hd

/-- A star is no part of both marks, and stars in front of a closing mark change nothing. -/
example : (tokenize "/*/**/*/ //é\r/*").map (fun t => (t.kind, t.lexeme)) =
    [(.comment, "/*/**/"), (.unrecognized, "*/"), (.whitespace, " "), (.comment, "//é"),
      (.whitespace, "\r"), (.comment, "/*")] := by
  decide +kernel

end ContractScan
