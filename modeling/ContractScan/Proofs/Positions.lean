import ContractScan.Proofs.LineCut
import ContractScan.Proofs.Tiling
import Mathlib.Data.List.Nodup

/-
  The order of places. Positions by line and column lie in the order of the characters
  (`position_before`), so that different characters of a text have different positions
  (`position_injective`). The tokens of a text start in that order (`pairwise_before_tokenize`).
-/

namespace ContractScan

namespace Position

theorem before_iff {p q : Position} :
    p.before q ↔ p.line < q.line ∨ p.line = q.line ∧ p.column < q.column := by
  simp only [before, Bool.or_eq_true, Bool.and_eq_true, decide_eq_true_eq, beq_iff_eq]

theorem before_down (p q : Position) (n : Nat) : (p.down n).before (q.down n) = p.before q := by
  rw [Bool.eq_iff_iff, before_iff, before_iff]
  simp only [down]
  omega

theorem ne_of_before {p q : Position} (h : p.before q) : p ≠ q := by
  rintro rfl
  rw [before_irrefl] at h
  cases h

theorem before_trichotomy (p q : Position) : p.before q ∨ p = q ∨ q.before p := by
  obtain ⟨l, c⟩ := p
  obtain ⟨l', c'⟩ := q
  simp only [before_iff, mk.injEq]
  omega

/-- An order of places leaves one way to line things up. -/
theorem eq_of_perm_of_before {α : Type} {place : α → Position} {xs ys : List α}
    (h : xs.Perm ys) (hx : xs.Pairwise fun a b => (place a).before (place b))
    (hy : ys.Pairwise fun a b => (place a).before (place b)) : xs = ys :=
  h.eq_of_pairwise (fun _ _ _ _ hab hba => absurd rfl (ne_of_before (before_trans hab hba))) hx hy

end Position

namespace LineIndex

/-! ## Characters -/

theorem locate_cons (l : List Char) {ls : List (List Char)} (h : ls ≠ []) (c : Nat) :
    locate (l :: ls) c = if c < l.length then ⟨0, c⟩ else (locate ls (c - l.length)).down 1 := by
  rw [locate]
  exact h

theorem locate_before {ls : List (List Char)} {p q : Nat} (h : p < q) (hq : q ≤ ls.flatten.length) :
    (locate ls p).before (locate ls q) := by
  induction ls generalizing p q with
  | nil =>
    rw [List.flatten_nil, List.length_nil] at hq
    omega
  | cons l ls ih =>
    rw [List.flatten_cons, List.length_append] at hq
    cases ls with
    | nil =>
      rw [List.flatten_nil, List.length_nil] at hq
      refine Position.before_iff.mpr (Or.inr ⟨rfl, ?_⟩)
      show min p l.length < min q l.length
      omega
    | cons m ls =>
      rw [locate_cons l (List.cons_ne_nil m ls), locate_cons l (List.cons_ne_nil m ls)]
      by_cases hp : p < l.length
      · rw [if_pos hp]
        split
        · exact Position.before_iff.mpr (Or.inr ⟨rfl, h⟩)
        · exact Position.before_iff.mpr (Or.inl (Nat.succ_pos _))
      · rw [if_neg hp, if_neg (by omega), Position.before_down]
        exact ih (by omega) (by omega)

/-- Every character lies on a line, within it or at its end. -/
theorem exists_line_of_locate {ls : List (List Char)} (h : ls ≠ []) (c : Nat) :
    ∃ l, ls[(locate ls c).line]? = some l ∧ (locate ls c).column ≤ l.length := by
  fun_induction locate ls c with
  | case1 => exact absurd rfl h
  | case2 l c => exact ⟨l, rfl, Nat.min_le_right _ _⟩
  | case3 l ls c _ hlt => exact ⟨l, rfl, Nat.le_of_lt hlt⟩
  | case4 l ls c hne _ ih => exact ih fun hnil => hne hnil

theorem lineOf_lt (text : String) (c : Nat) :
    (ofText text).lineOf c < (ofText text).lineCount := by
  obtain ⟨l, hl, -⟩ := exists_line_of_locate (splitLines_ne_nil text.toList) c
  exact (List.getElem?_eq_some_iff.mp hl).1

/-- A character of a line lies there. -/
theorem locate_of_line {ls : List (List Char)} {i k : Nat} {l : List Char} (hl : ls[i]? = some l)
    (hk : k < l.length) : locate ls (charsAbove ls i + k) = ⟨i, k⟩ := by
  obtain ⟨hi, rfl⟩ := List.getElem?_eq_some_iff.mp hl
  have hls : ls = ls.take i ++ (ls[i].take k ++ ls[i].drop k) :: ls.drop (i + 1) := by
    rw [List.take_append_drop, ← List.drop_eq_getElem_cons hi, List.take_append_drop]
  have hne : ls[i].drop k ≠ [] := by
    rwa [Ne, List.drop_eq_nil_iff, Nat.not_le]
  have hlen : (ls[i].take k).length = k := List.length_take_of_le (Nat.le_of_lt hk)
  have h := @locate_append (ls.take i) (ls[i].take k) _ (ls.drop (i + 1)) fun h => absurd h hne
  rwa [← hls, hlen, List.length_take_of_le (Nat.le_of_lt hi)] at h

/-- The characters of a line break lie on the line that it ends. -/
theorem lineOf_of_break {a brk rest : List Char} {text : String}
    (htext : text.toList = a ++ (brk ++ rest)) (hs : ¬ SeamInBreak a (brk ++ rest))
    (hbrk : IsBreak brk rest) {k : Nat} (hk : k < brk.length) :
    (ofText text).lineOf (a.length + k) = (linesAbove a).length := by
  have hlines : splitLines text.toList =
      linesAbove a ++ (lineSoFar a ++ brk) :: splitLines rest := by
    rw [htext, splitLines_append hs, splitLines_append_of_forall (not_isLineBreak_lineSoFar a)
      (splitLines_append_of_break hbrk)]
  have hline : (splitLines text.toList)[(linesAbove a).length]? = some (lineSoFar a ++ brk) := by
    rw [hlines, List.getElem?_append_right (Nat.le_refl _), Nat.sub_self]
    rfl
  have hlt : (lineSoFar a).length + k < (lineSoFar a ++ brk).length := by
    rw [List.length_append]
    omega
  have hplace : charsAbove (splitLines text.toList) (linesAbove a).length +
      ((lineSoFar a).length + k) = a.length + k := by
    rw [hlines, charsAbove_length, ← Nat.add_assoc, length_linesAbove_add]
  have h := locate_of_line hline hlt
  rw [hplace] at h
  exact congrArg Position.line h

theorem position_before {text : String} {p q : Nat} (h : p < q) (hq : q ≤ text.toList.length) :
    ((ofText text).position p).before ((ofText text).position q) := by
  refine locate_before h ?_
  rw [ofText, flatten_splitLines]
  exact hq

theorem lineOf_mono {text : String} {p q : Nat} (h : p ≤ q)
    (hq : q ≤ text.toList.length) : (ofText text).lineOf p ≤ (ofText text).lineOf q := by
  rcases Nat.lt_or_eq_of_le h with h | rfl
  · have hbefore := Position.before_iff.mp (position_before h hq)
    unfold lineOf
    omega
  · exact Nat.le_refl _

theorem position_injective {text : String} {p q : Nat} (hp : p ≤ text.toList.length)
    (hq : q ≤ text.toList.length) (h : (ofText text).position p = (ofText text).position q) :
    p = q := by
  rcases Nat.lt_trichotomy p q with hlt | heq | hgt
  · exact absurd h (Position.ne_of_before (position_before hlt hq))
  · exact heq
  · exact absurd h.symm (Position.ne_of_before (position_before hgt hp))

end LineIndex

/-! ## Tokens -/

theorem start_le_of_mem_tokensFrom {start byte : Nat} {cs : List Char} {t : Token}
    (h : t ∈ tokensFrom start byte cs) : start ≤ t.start := by
  obtain ⟨before, c, r, -, rfl⟩ := mem_tokensFrom h
  exact Nat.le_add_right _ _

theorem pairwise_start_tokensFrom (start byte : Nat) (cs : List Char) :
    (tokensFrom start byte cs).Pairwise fun a b => a.start < b.start := by
  fun_induction tokensFrom start byte cs with
  | case1 => exact List.Pairwise.nil
  | case2 start byte c r piece ih =>
    refine List.Pairwise.cons (fun t ht => ?_) ih
    have hpos : 0 < piece.chars.length := List.length_pos_iff.mpr (Lexeme.first_ne_nil c r)
    have hle := start_le_of_mem_tokensFrom ht
    have hstart : (piece.toToken start byte).start = start := rfl
    omega

theorem start_lt_of_mem_tokenize {text : String} {t : Token} (h : t ∈ tokenize text) :
    t.start < text.toList.length := by
  obtain ⟨before, c, r, htext, rfl⟩ := mem_tokenize h
  rw [htext, List.length_append, List.length_cons]
  show before.length < _
  omega

/-- The last character of a token lies on the line of its first one, or below. -/
theorem lineOf_start_le {text : String} {t : Token} (ht : t ∈ tokenize text) :
    (LineIndex.ofText text).lineOf t.start ≤ (LineIndex.ofText text).lineOf (t.stop - 1) := by
  have hpos : 0 < t.lexeme.length := by
    rw [Nat.pos_iff_ne_zero, Ne, String.length_eq_zero_iff]
    exact lexeme_ne_of_mem_tokenize ht
  obtain ⟨before, after, htext, hstart, -⟩ := isPieceOf_of_mem_tokenize ht
  refine LineIndex.lineOf_mono ?_ ?_
  · rw [Token.stop]
    omega
  · rw [htext, List.length_append, List.length_append, String.length_toList, Token.stop, hstart]
    omega

theorem pairwise_before_tokenize (text : String) :
    (tokenize text).Pairwise fun a b => ((LineIndex.ofText text).position a.start).before
      ((LineIndex.ofText text).position b.start) := by
  refine (pairwise_start_tokensFrom 0 0 text.toList).imp_of_mem fun _ hb hlt => ?_
  exact LineIndex.position_before hlt (Nat.le_of_lt (start_lt_of_mem_tokenize hb))

section
variable {ts : List Token} {t u : Token}

theorem nodup_start (h : ts.Pairwise fun t u => t.start < u.start) : (ts.map Token.start).Nodup :=
  List.pairwise_map.mpr (h.imp Nat.ne_of_lt)

theorem nodup_of_pairwise_start (h : ts.Pairwise fun t u => t.start < u.start) : ts.Nodup :=
  (nodup_start h).of_map

/-- Tokens that stand in order are told by their first characters. -/
theorem start_injective (h : ts.Pairwise fun t u => t.start < u.start) (ht : t ∈ ts) (hu : u ∈ ts)
    (heq : t.start = u.start) : t = u :=
  List.inj_on_of_nodup_map (nodup_start h) ht hu heq

theorem nodup_tokenize (text : String) : (tokenize text).Nodup :=
  nodup_of_pairwise_start (pairwise_start_tokensFrom 0 0 text.toList)

/-- A token is told by its first character. -/
theorem eq_of_start_eq {text : String} (ht : t ∈ tokenize text) (hu : u ∈ tokenize text)
    (h : t.start = u.start) : t = u :=
  start_injective (pairwise_start_tokensFrom 0 0 text.toList) ht hu h

end

end ContractScan
