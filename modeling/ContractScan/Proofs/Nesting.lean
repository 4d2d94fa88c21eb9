import ContractScan.Bracket
import Mathlib.Data.List.Nodup
import Mathlib.Data.List.Perm.Basic

/-
  The brackets of a nesting. A token is a bracket of the nesting by its kind and one of six texts
  (`Token.isOpener_iff`, `Token.isCloser_iff`). Every opener makes one pair, in order
  (`pairs_opener`), and every closer closes a pair or is astray (`closers_perm`). So the brackets
  that a nesting reports as without a partner are those in none of its matched pairs
  (`unmatchedOpeners_opener`, `strays_closer`).

  A nesting looks at nothing but the sides of the tokens: tokens with the same sides nest in the
  same way (`ofTokens_map`).
-/

namespace ContractScan

namespace Token

/-- Whether a token is an opening bracket. -/
def isOpener (t : Token) : Bool :=
  match t.bracketSide? with
  | some (.opens _) => true
  | _ => false

/-- Whether a token is a closing bracket. -/
def isCloser (t : Token) : Bool :=
  match t.bracketSide? with
  | some (.closes _) => true
  | _ => false

theorem exists_bracketSide?_iff {t : Token} {side : BracketShape → BracketSide} :
    (∃ shape, t.bracketSide? = some (side shape)) ↔
      t.kind = .bracket ∧
        t.lexeme ∈ [(side .brace).text, (side .square).text, (side .round).text] := by
  rw [BracketShape.exists_iff]
  simp only [bracketSide?_eq_some_iff, ← and_or_left, List.mem_cons, List.not_mem_nil, or_false]

/-- The opening brackets are the bracket tokens with one of three texts. -/
theorem isOpener_iff {t : Token} :
    t.isOpener ↔ t.kind = .bracket ∧ t.lexeme ∈ ["\x7b", "[", "("] := by
  have hside : t.isOpener ↔ ∃ shape, t.bracketSide? = some (.opens shape) := by
    unfold isOpener
    split <;> simp_all
  rw [hside, exists_bracketSide?_iff]
  rfl

/-- The closing brackets are the bracket tokens with one of three other texts. -/
theorem isCloser_iff {t : Token} :
    t.isCloser ↔ t.kind = .bracket ∧ t.lexeme ∈ ["\x7d", "]", ")"] := by
  have hside : t.isCloser ↔ ∃ shape, t.bracketSide? = some (.closes shape) := by
    unfold isCloser
    split <;> simp_all
  rw [hside, exists_bracketSide?_iff]
  rfl

theorem kind_of_isOpener {t : Token} (h : t.isOpener) : t.kind = .bracket :=
  (isOpener_iff.mp h).1

theorem kind_of_isCloser {t : Token} (h : t.isCloser) : t.kind = .bracket :=
  (isCloser_iff.mp h).1

theorem not_isCloser_of_isOpener {t : Token} (h : t.isOpener) : ¬ t.isCloser := by
  unfold isOpener at h
  unfold isCloser
  split at h
  · next hs =>
    rw [hs]
    exact Bool.false_ne_true
  · cases h

end Token

/-- Whether a token opens a pair with both its brackets. -/
def opensMatched (pairs : List BracketPair) (t : Token) : Bool :=
  pairs.any fun p => p.isMatched && p.opener = t

/-- Whether a token closes a pair. -/
def closesMatched (pairs : List BracketPair) (t : Token) : Bool :=
  pairs.any fun p => p.closer = some t

theorem closesMatched_iff {pairs : List BracketPair} {t : Token} :
    closesMatched pairs t ↔ t ∈ pairs.filterMap BracketPair.closer := by
  simp [closesMatched]

namespace Matching

/-! ## Openers -/

theorem pairs_opener_follow (ts : List Token) (stack : List (Token × BracketShape)) :
    (follow ts stack).pairs.map BracketPair.opener = ts.filter Token.isOpener := by
  fun_induction follow ts stack with
  | case1 => rfl
  | case2 t ts stack hside ih =>
    rw [ih, List.filter_cons_of_neg (by simp [Token.isOpener, hside])]
  | case3 t ts stack shape hside ih =>
    rw [List.filter_cons_of_pos (by simp [Token.isOpener, hside]), ← ih]
    rfl
  | case4 t ts shape hside ih =>
    rw [List.filter_cons_of_neg (by simp [Token.isOpener, hside])]
    exact ih
  | case5 t ts o shape outer hside ih =>
    rw [List.filter_cons_of_neg (by simp [Token.isOpener, hside])]
    exact ih
  | case6 t ts shape hside o inner outer _ ih =>
    rw [List.filter_cons_of_neg (by simp [Token.isOpener, hside])]
    exact ih

theorem pairs_opener (ts : List Token) :
    (ofTokens ts).pairs.map BracketPair.opener = ts.filter Token.isOpener :=
  pairs_opener_follow ts []

/-- The opener of a pair tells the pair. -/
theorem any_opener_eq {ts : List Token} (h : ts.Nodup) {p : BracketPair}
    (hp : p ∈ (ofTokens ts).pairs) (f : BracketPair → Bool) :
    ((ofTokens ts).pairs.any fun q => f q && q.opener = p.opener) = f p := by
  have hnodup : ((ofTokens ts).pairs.map BracketPair.opener).Nodup := by
    rw [pairs_opener]
    exact h.filter _
  rw [Bool.eq_iff_iff, List.any_eq_true]
  constructor
  · rintro ⟨q, hq, h⟩
    rw [Bool.and_eq_true, decide_eq_true_eq] at h
    rw [← List.inj_on_of_nodup_map hnodup hq hp h.2]
    exact h.1
  · exact fun h => ⟨p, hp, by rw [h, decide_eq_true rfl]; rfl⟩

/-- The openers that nothing closes are those of no matched pair. -/
theorem unmatchedOpeners_opener {ts : List Token} (h : ts.Nodup) :
    (ofTokens ts).unmatchedOpeners.map BracketPair.opener =
      ts.filter fun t => !opensMatched (ofTokens ts).pairs t && t.isOpener := by
  rw [← List.filter_filter, ← pairs_opener, List.filter_map, unmatchedOpeners]
  refine congrArg _ (List.filter_congr fun p hp => ?_)
  rw [Function.comp_apply, opensMatched, any_opener_eq h hp]

/-! ## Closers -/

/-- Every closer answers an open bracket, closes a pair or is astray. -/
theorem closers_perm_follow (ts : List Token) (stack : List (Token × BracketShape)) :
    ((follow ts stack).closers.filterMap id ++
      ((follow ts stack).pairs.filterMap BracketPair.closer ++
        (follow ts stack).strays.map StrayCloser.closer)).Perm (ts.filter Token.isCloser) := by
  have stray {r : Outcome} {ts : List Token} {s : StrayCloser}
      (h : (r.closers.filterMap id ++ (r.pairs.filterMap BracketPair.closer ++
        r.strays.map StrayCloser.closer)).Perm ts) :
      ((r.afterStray s).closers.filterMap id ++
        ((r.afterStray s).pairs.filterMap BracketPair.closer ++
          (r.afterStray s).strays.map StrayCloser.closer)).Perm (s.closer :: ts) := by
    rw [Outcome.afterStray, List.map_cons, ← List.append_assoc]
    rw [← List.append_assoc] at h
    exact List.perm_middle.trans (h.cons _)
  fun_induction follow ts stack with
  | case1 stack => simp
  | case2 t ts stack hside ih =>
    rw [List.filter_cons_of_neg (by simp [Token.isCloser, hside])]
    exact ih
  | case3 t ts stack shape hside ih =>
    rw [List.filter_cons_of_neg (by simp [Token.isCloser, hside])]
    have hlen := length_closers_follow ts ((t, shape) :: stack)
    refine List.Perm.trans ?_ ih
    generalize follow ts ((t, shape) :: stack) = r at hlen
    obtain ⟨answer, closers, hcs⟩ := List.exists_cons_of_length_eq_add_one hlen
    rw [Outcome.afterOpener, hcs]
    cases answer with
    | none => simp
    | some c => simp
  | case4 t ts shape hside ih =>
    rw [List.filter_cons_of_pos (by simp [Token.isCloser, hside])]
    exact stray ih
  | case5 t ts o shape outer hside ih =>
    rw [List.filter_cons_of_pos (by simp [Token.isCloser, hside])]
    exact ih.cons t
  | case6 t ts shape hside o inner outer _ ih =>
    rw [List.filter_cons_of_pos (by simp [Token.isCloser, hside])]
    exact stray ih

theorem strays_sublist_follow (ts : List Token) (stack : List (Token × BracketShape)) :
    ((follow ts stack).strays.map StrayCloser.closer).Sublist ts := by
  fun_induction follow ts stack with
  | case1 => exact List.nil_sublist _
  | case2 t ts stack hside ih => exact ih.cons t
  | case3 t ts stack shape hside ih => exact ih.cons t
  | case4 t ts shape hside ih => exact ih.cons_cons t
  | case5 t ts o shape outer hside ih => exact ih.cons t
  | case6 t ts shape hside o inner outer _ ih => exact ih.cons_cons t

theorem closers_perm (ts : List Token) :
    ((ofTokens ts).pairs.filterMap BracketPair.closer ++
      (ofTokens ts).strays.map StrayCloser.closer).Perm (ts.filter Token.isCloser) := by
  have h := closers_perm_follow ts []
  rwa [List.length_eq_zero_iff.mp (length_closers_follow ts [])] at h

/-- The closers astray are those of no pair. -/
theorem strays_closer {ts : List Token} (h : ts.Nodup) :
    (ofTokens ts).strays.map StrayCloser.closer =
      ts.filter fun t => !closesMatched (ofTokens ts).pairs t && t.isCloser := by
  have hsub : ((ofTokens ts).strays.map StrayCloser.closer).Sublist ts :=
    strays_sublist_follow ts []
  have hperm := closers_perm ts
  have hdisj := (List.nodup_append'.mp (hperm.nodup_iff.mpr (h.filter _))).2.2
  have hnot := hperm.filter fun t => !closesMatched (ofTokens ts).pairs t
  generalize (ofTokens ts).strays.map StrayCloser.closer = strays at hsub hdisj hnot
  have hpairs : ((ofTokens ts).pairs.filterMap BracketPair.closer).filter
      (fun t => !closesMatched (ofTokens ts).pairs t) = [] := by
    rw [List.filter_eq_nil_iff]
    intro t ht
    simpa using closesMatched_iff.mpr ht
  have hstrays : strays.filter (fun t => !closesMatched (ofTokens ts).pairs t) = strays := by
    rw [List.filter_eq_self]
    intro t ht
    rw [Bool.not_eq_true', ← Bool.not_eq_true, closesMatched_iff]
    exact fun h => hdisj h ht
  rw [List.filter_append, hpairs, hstrays, List.nil_append, List.filter_filter] at hnot
  -- The closers astray stand in the order of the tokens, so it is enough to count them.
  refine List.Sublist.eq_of_length ?_ hnot.length_eq
  have hself :
      strays.filter (fun t => !closesMatched (ofTokens ts).pairs t && t.isCloser) = strays := by
    rw [List.filter_eq_self]
    exact fun t ht => (List.mem_filter.mp (hnot.mem_iff.mp ht)).2
  rw [← hself]
  exact hsub.filter _

/-- The bracket around a closer astray is an opener. -/
theorem enclosing_follow {ts : List Token} {stack : List (Token × BracketShape)} {s : StrayCloser}
    (hs : s ∈ (follow ts stack).strays) {o : Token} (ho : s.enclosing = some o) :
    o ∈ ts.filter Token.isOpener ∨ o ∈ stack.map Prod.fst := by
  fun_induction follow ts stack with
  | case1 => cases hs
  | case2 t ts stack hside ih =>
    rw [List.filter_cons_of_neg (by simp [Token.isOpener, hside])]
    exact ih hs
  | case3 t ts stack shape hside ih =>
    rw [List.filter_cons_of_pos (by simp [Token.isOpener, hside])]
    rcases ih hs with h | h
    · exact Or.inl (List.mem_cons_of_mem t h)
    · rcases List.mem_cons.mp h with rfl | h
      · exact Or.inl List.mem_cons_self
      · exact Or.inr h
  | case4 t ts shape hside ih =>
    rw [List.filter_cons_of_neg (by simp [Token.isOpener, hside])]
    rcases List.mem_cons.mp hs with rfl | hs
    · cases ho
    · exact ih hs
  | case5 t ts o' shape outer hside ih =>
    rw [List.filter_cons_of_neg (by simp [Token.isOpener, hside])]
    exact (ih hs).imp_right (List.mem_cons_of_mem o')
  | case6 t ts shape hside o' inner outer _ ih =>
    rw [List.filter_cons_of_neg (by simp [Token.isOpener, hside])]
    rcases List.mem_cons.mp hs with rfl | hs
    · rw [← Option.some.inj ho]
      exact Or.inr List.mem_cons_self
    · exact ih hs

end Matching

/-! ## Other tokens with the same sides -/

/-- A pair of other tokens. -/
def BracketPair.map (f : Token → Token) (p : BracketPair) : BracketPair :=
  ⟨f p.opener, p.closer.map f, p.depth⟩

/-- A closer astray among other tokens. -/
def StrayCloser.map (f : Token → Token) (s : StrayCloser) : StrayCloser :=
  ⟨f s.closer, s.enclosing.map f⟩

namespace Matching

theorem follow_map {f : Token → Token} {ts : List Token}
    (hf : ∀ t ∈ ts, (f t).bracketSide? = t.bracketSide?) (stack : List (Token × BracketShape)) :
    follow (ts.map f) (stack.map fun o => (f o.1, o.2)) =
      ⟨(follow ts stack).closers.map (Option.map f),
        (follow ts stack).pairs.map (BracketPair.map f),
        (follow ts stack).strays.map (StrayCloser.map f)⟩ := by
  fun_induction follow ts stack with
  | case1 stack => simp [follow, Function.comp_def]
  | case2 t ts stack hside ih =>
    rw [List.forall_mem_cons] at hf
    rw [List.map_cons, follow, hf.1, hside, ih hf.2]
  | case3 t ts stack shape hside ih =>
    rw [List.forall_mem_cons] at hf
    have ih := ih hf.2
    rw [List.map_cons] at ih
    rw [List.map_cons, follow, hf.1, hside]
    dsimp only
    rw [ih, List.length_map]
    -- The first of the answers goes to this opener.
    cases hcs : (follow ts ((t, shape) :: stack)).closers <;>
      simp [Outcome.afterOpener, BracketPair.map, hcs]
  | case4 t ts shape hside ih =>
    rw [List.forall_mem_cons] at hf
    have ih := ih hf.2
    rw [List.map_nil] at ih ⊢
    rw [List.map_cons, follow, hf.1, hside]
    dsimp only
    rw [ih]
    rfl
  | case5 t ts o shape outer hside ih =>
    rw [List.forall_mem_cons] at hf
    rw [List.map_cons, List.map_cons, follow, hf.1, hside]
    dsimp only
    rw [if_pos rfl, ih hf.2]
    rfl
  | case6 t ts shape hside o inner outer hne ih =>
    rw [List.forall_mem_cons] at hf
    have ih := ih hf.2
    rw [List.map_cons] at ih ⊢
    rw [List.map_cons, follow, hf.1, hside]
    dsimp only
    rw [if_neg hne, ih]
    rfl

theorem ofTokens_map {f : Token → Token} {ts : List Token}
    (hf : ∀ t ∈ ts, (f t).bracketSide? = t.bracketSide?) :
    ofTokens (ts.map f) = ⟨(ofTokens ts).pairs.map (BracketPair.map f),
      (ofTokens ts).strays.map (StrayCloser.map f)⟩ := by
  have h := follow_map hf []
  rw [List.map_nil] at h
  rw [ofTokens, h]
  rfl

theorem unmatchedOpeners_map {f : Token → Token} {ts : List Token}
    (hf : ∀ t ∈ ts, (f t).bracketSide? = t.bracketSide?) :
    (ofTokens (ts.map f)).unmatchedOpeners =
      (ofTokens ts).unmatchedOpeners.map (BracketPair.map f) := by
  have hmatched (p : BracketPair) : (p.map f).isMatched = p.isMatched := Option.isSome_map
  rw [unmatchedOpeners, ofTokens_map hf, List.filter_map]
  simp only [Function.comp_def, hmatched]
  rfl

end Matching

end ContractScan
