import ContractScan.Diagnostic.Brackets
import ContractScan.Proofs.BracketPlaces
import ContractScan.Proofs.Positions
import Mathlib.Data.List.Forall2

/-
  The findings about brackets. They stand one for one against the brackets without a partner, in
  the order of the tokens, and the finding about a closer names the innermost bracket that is
  still open in front of it, or says that there is none (`brackets_exact`).

  Which brackets are still open is told by the pairs of the whole nesting (`stillOpen`), while the
  nesting itself looks at the top of its stack when it meets the closer. The two agree at every
  closer astray (`enclosing_eq_head?_openAt`), whatever the rest of the tokens closes: an opener
  that has no answer before a place is open there, be it on the stack or in a pair of its own.
-/

namespace ContractScan

namespace Matching

/-! ## Open brackets of a run -/

/-- The openers that are open at a place, the innermost first: those of pairs that have opened and
have not been closed before it, and those of the stack that have not been answered before it. -/
def Outcome.openAt (r : Outcome) (stack : List (Token × BracketShape)) (n : Nat) : List Token :=
  ((r.pairs.filter fun p => p.opener.start < n && !closedBefore n p.closer).map
      BracketPair.opener).reverse ++
    ((stack.zip r.closers).filter fun o => !closedBefore n o.2).map fun o => o.1.1

section
variable {r : Outcome} {t : Token} {stack : List (Token × BracketShape)} {n : Nat}

theorem openAt_afterOpener {shape : BracketShape} {depth : Nat}
    (hlen : r.closers.length = stack.length + 1) (h : t.start < n) :
    (r.afterOpener t depth).openAt stack n = r.openAt ((t, shape) :: stack) n := by
  obtain ⟨closers, pairs, strays⟩ := r
  obtain ⟨answer, closers, rfl⟩ := List.exists_cons_of_length_eq_add_one hlen
  -- The opener stands behind the openers of the stack, and in front of all that opens after it.
  cases hanswer : closedBefore n answer <;>
    simp [Outcome.openAt, Outcome.afterOpener, hanswer, h]

theorem openAt_afterCloser {o : Token × BracketShape} (h : t.start < n) :
    (r.afterCloser t).openAt (o :: stack) n = r.openAt stack n := by
  have hclosed : closedBefore n (some t) := closedBefore_some.mpr h
  simp [Outcome.openAt, Outcome.afterCloser, hclosed]

/-- In front of all that a run does, the stack is open and nothing else. -/
theorem openAt_of_standsAfter (hlen : r.closers.length = stack.length) (h : r.StandsAfter n) :
    r.openAt stack n = stack.map Prod.fst := by
  have hpairs : r.pairs.filter (fun p => p.opener.start < n && !closedBefore n p.closer) = [] := by
    rw [List.filter_eq_nil_iff]
    intro p hp
    have := h.openers p hp
    simp [Nat.not_lt.mpr (Nat.le_of_lt this)]
  have hstack : (stack.zip r.closers).filter (fun o => !closedBefore n o.2) =
      stack.zip r.closers := by
    rw [List.filter_eq_self]
    intro o ho
    cases hanswer : o.2 with
    | none => rfl
    | some c =>
      have hlt := h.answers _ (List.of_mem_zip ho).2 c hanswer
      rw [Bool.not_eq_true', ← Bool.not_eq_true, closedBefore_some]
      exact Nat.not_lt.mpr (Nat.le_of_lt hlt)
  have hopeners : (stack.zip r.closers).map (fun o => o.1.1) = stack.map Prod.fst := by
    have hlen' : stack.length ≤ r.closers.length := Nat.le_of_eq hlen.symm
    rw [← List.map_fst_zip hlen', List.map_map, List.map_fst_zip hlen']
    rfl
  rw [Outcome.openAt, hpairs, hstack, hopeners]
  rfl

end

/-- The bracket around a closer astray is the innermost that is open there. -/
theorem enclosing_eq_head?_openAt {ts : List Token}
    (h : ts.Pairwise fun t u => t.start < u.start) {stack : List (Token × BracketShape)}
    {s : StrayCloser} (hs : s ∈ (follow ts stack).strays) :
    s.enclosing = ((follow ts stack).openAt stack s.closer.start).head? := by
  have later {t : Token} {ts : List Token} {stack : List (Token × BracketShape)}
      (ht : ∀ u ∈ ts, t.start < u.start) (hs : s ∈ (follow ts stack).strays) :
      t.start < s.closer.start :=
    ht _ ((strays_sublist_follow ts stack).subset (List.mem_map_of_mem hs))
  fun_induction follow ts stack with
  | case1 => cases hs
  | case2 t ts stack hside ih => exact ih (List.pairwise_cons.mp h).2 hs
  | case3 t ts stack shape hside ih =>
    obtain ⟨ht, h⟩ := List.pairwise_cons.mp h
    rw [openAt_afterOpener (length_closers_follow ts _) (later ht hs)]
    exact ih h hs
  | case4 t ts shape hside ih =>
    obtain ⟨ht, h⟩ := List.pairwise_cons.mp h
    rcases List.mem_cons.mp hs with rfl | hs
    · exact (congrArg List.head? (openAt_of_standsAfter (length_closers_follow ts [])
        (standsAfter_follow ht []))).symm
    · exact ih h hs
  | case5 t ts o shape outer hside ih =>
    obtain ⟨ht, h⟩ := List.pairwise_cons.mp h
    rw [openAt_afterCloser (later ht hs)]
    exact ih h hs
  | case6 t ts shape hside o inner outer _ ih =>
    obtain ⟨ht, h⟩ := List.pairwise_cons.mp h
    rcases List.mem_cons.mp hs with rfl | hs
    · have hopen := openAt_of_standsAfter (length_closers_follow ts ((o, inner) :: outer))
        (standsAfter_follow ht ((o, inner) :: outer))
      exact (congrArg List.head? hopen).symm
    · exact ih h hs

/-- The bracket around a closer astray is not one that it could close. -/
theorem not_fits_follow {ts : List Token} {stack : List (Token × BracketShape)}
    (hstack : ∀ o ∈ stack, o.1.bracketSide? = some (.opens o.2)) {s : StrayCloser}
    (hs : s ∈ (follow ts stack).strays) {o : Token} (ho : s.enclosing = some o) :
    ¬ Fits o s.closer := by
  fun_induction follow ts stack with
  | case1 => cases hs
  | case2 t ts stack hside ih => exact ih hstack hs
  | case3 t ts stack shape hside ih =>
    exact ih (List.forall_mem_cons.mpr ⟨hside, hstack⟩) hs
  | case4 t ts shape hside ih =>
    rcases List.mem_cons.mp hs with rfl | hs
    · cases ho
    · exact ih hstack hs
  | case5 t ts o' shape outer hside ih => exact ih (List.forall_mem_cons.mp hstack).2 hs
  | case6 t ts shape hside o' inner outer hne ih =>
    rcases List.mem_cons.mp hs with rfl | hs
    · obtain rfl := Option.some.inj ho
      rintro ⟨shape', hopens, hcloses⟩
      rw [(List.forall_mem_cons.mp hstack).1] at hopens
      rw [hside] at hcloses
      cases hopens
      cases hcloses
      exact hne rfl
    · exact ih hstack hs

end Matching

/-! ## Open brackets of a list of tokens -/

/-- The openers among tokens that no closer among them is paired with, in order. -/
def stillOpen (pairs : List BracketPair) (above : List Token) : List Token :=
  above.filter fun o =>
    o.isOpener && !pairs.any fun p => p.closer.any (· ∈ above) && p.opener = o

section
variable {ts above below : List Token} {c : Token}

/-- What stands above a token starts in front of it, and nothing else does. -/
theorem filter_start_lt (h : ts.Pairwise fun t u => t.start < u.start)
    (hcut : ts = above ++ c :: below) : ts.filter (fun t => t.start < c.start) = above := by
  subst hcut
  obtain ⟨-, hbelow, habove⟩ := List.pairwise_append.mp h
  have hall : above.filter (fun t => t.start < c.start) = above := by
    rw [List.filter_eq_self]
    exact fun t ht => decide_eq_true (habove t ht c List.mem_cons_self)
  have hnone : (c :: below).filter (fun t => t.start < c.start) = [] := by
    rw [List.filter_eq_nil_iff]
    intro t ht
    rw [decide_eq_true_eq, Nat.not_lt]
    rcases List.mem_cons.mp ht with rfl | ht
    · exact Nat.le_refl _
    · exact Nat.le_of_lt ((List.pairwise_cons.mp hbelow).1 t ht)
  rw [List.filter_append, hall, hnone, List.append_nil]

/-- The brackets that a run has open in front of a token are those that are still open there. -/
theorem openAt_eq_reverse_stillOpen (h : ts.Pairwise fun t u => t.start < u.start)
    (hcut : ts = above ++ c :: below) :
    (Matching.follow ts []).openAt [] c.start =
      (stillOpen (Matching.ofTokens ts).pairs above).reverse := by
  have habove := filter_start_lt h hcut
  have hclosed {p : BracketPair} (hp : p ∈ (Matching.ofTokens ts).pairs) :
      (p.closer.any fun d => decide (d ∈ above)) = Matching.closedBefore c.start p.closer := by
    cases hd : p.closer with
    | none => rfl
    | some d =>
      have hmem := Matching.closer_mem_of_mem_pairs hp hd
      rw [← habove]
      simp [Matching.closedBefore, hmem]
  have hopen : stillOpen (Matching.ofTokens ts).pairs above =
      ((Matching.ofTokens ts).pairs.filter fun p =>
        p.opener.start < c.start && !Matching.closedBefore c.start p.closer).map
          BracketPair.opener := by
    calc stillOpen (Matching.ofTokens ts).pairs above
      _ = (ts.filter fun t => t.start < c.start).filter fun o => o.isOpener &&
            !(Matching.ofTokens ts).pairs.any fun p =>
              p.closer.any (· ∈ above) && p.opener = o := by
          rw [habove, stillOpen]
      _ = (ts.filter Token.isOpener).filter fun o => o.start < c.start &&
            !(Matching.ofTokens ts).pairs.any fun p =>
              p.closer.any (· ∈ above) && p.opener = o := by
          rw [List.filter_filter, List.filter_filter]
          exact List.filter_congr fun o _ => by ac_rfl
      _ = _ := by
          rw [← Matching.pairs_opener, List.filter_map]
          refine congrArg _ (List.filter_congr fun p hp => ?_)
          rw [Function.comp_apply, Matching.any_opener_eq (nodup_of_pairwise_start h) hp,
            hclosed hp]
  rw [hopen, Matching.Outcome.openAt]
  simp [Matching.ofTokens]

end

/-! ## Findings -/

/-- Whether a finding is the one that a bracket without a partner calls for: that an opener is never
closed, or which of the brackets that are still open a closer does not close. -/
structure TellsOf (ts : List Token) (ix : LineIndex) (b : Token) (d : Diagnostic) : Prop where
  range_eq : d.range = ix.rangeOf b
  severity_eq : d.severity = .error
  opener : b.isOpener →
    d.kind = .unmatchedOpener ∧ d.message = "`" ++ b.lexeme ++ "` is never closed"
  closer : b.isCloser → d.kind = .unmatchedCloser ∧ ∃ above below, ts = above ++ b :: below ∧
    (∀ o ∈ (stillOpen (Matching.ofTokens ts).pairs above).getLast?, ¬ Matching.Fits o b ∧
      d.message = "`" ++ b.lexeme ++ "` does not close `" ++ o.lexeme ++ "` opened at " ++
        (ix.position o.start).toText) ∧
    (d.message = "`" ++ b.lexeme ++ "` has no matching opener" ↔
      stillOpen (Matching.ofTokens ts).pairs above = [])

namespace Diagnostic

theorem strayMessage_eq_iff {ix : LineIndex} {s : StrayCloser} :
    strayMessage ix s = "`" ++ s.closer.lexeme ++ "` has no matching opener" ↔
      s.enclosing = none := by
  unfold strayMessage
  cases s.enclosing with
  | none => simp
  | some o =>
    -- Behind the closer the two messages go on with different words.
    simp only [String.append_assoc, reduceCtorEq, iff_false]
    intro h
    have h := congrArg String.toList h
    simp only [String.toList_append, List.append_cancel_left_eq] at h
    have hwords := congrArg (fun cs : List Char => cs[2]?) h
    simp at hwords

/-- The findings about a nesting, each with its bracket. -/
def bracketsKeyed (m : Matching) (ix : LineIndex) : List (Token × Diagnostic) :=
  (m.strays.map fun s => (s.closer, ofStray ix s)) ++
    m.unmatchedOpeners.map fun p => (p.opener, ofOpen ix p)

/-- The findings stand in the order of their brackets. -/
theorem brackets_eq_map_snd (m : Matching) (ix : LineIndex) :
    brackets m ix =
      ((bracketsKeyed m ix).mergeSort fun a b => a.1.start ≤ b.1.start).map Prod.snd := by
  have hkeys : (bracketsKeyed m ix).map (Prod.map Token.start id) =
      (m.strays.map fun s => (s.closer.start, ofStray ix s)) ++
        m.unmatchedOpeners.map fun p => (p.opener.start, ofOpen ix p) := by
    rw [bracketsKeyed, List.map_append, List.map_map, List.map_map]
    rfl
  have hsort := @List.map_mergeSort _ _ (fun a b => decide (a.1.start ≤ b.1.start))
    (fun a b => decide (a.1 ≤ b.1)) (Prod.map Token.start id) (bracketsKeyed m ix)
    fun _ _ _ _ => rfl
  rw [hkeys] at hsort
  show List.map Prod.snd (List.mergeSort _ _) = _
  rw [← hsort, List.map_map]
  rfl

theorem pairwise_start_mergeSort (keyed : List (Token × Diagnostic)) :
    ((keyed.mergeSort fun a b => a.1.start ≤ b.1.start).map Prod.fst).Pairwise
      fun b c => b.start ≤ c.start := by
  refine List.pairwise_map.mpr (List.Pairwise.imp (fun h => of_decide_eq_true h) ?_)
  refine List.pairwise_mergeSort (fun a b c hab hbc => ?_) (fun a b => ?_) keyed
  · simp only [decide_eq_true_eq] at *
    omega
  · simp only [Bool.or_eq_true, decide_eq_true_eq]
    omega

theorem map_fst_bracketsKeyed (m : Matching) (ix : LineIndex) :
    (bracketsKeyed m ix).map Prod.fst =
      m.strays.map StrayCloser.closer ++ m.unmatchedOpeners.map BracketPair.opener := by
  rw [bracketsKeyed, List.map_append, List.map_map, List.map_map]
  rfl

end Diagnostic

theorem Matching.isCloser_of_mem_strays {ts : List Token} {s : StrayCloser}
    (hs : s ∈ (ofTokens ts).strays) : s.closer.isCloser := by
  have hmem := (closers_perm ts).mem_iff.mp (List.mem_append_right _ (List.mem_map_of_mem hs))
  exact (List.mem_filter.mp hmem).2

theorem Matching.isOpener_of_mem_pairs {ts : List Token} {p : BracketPair}
    (hp : p ∈ (ofTokens ts).pairs) : p.opener.isOpener := by
  have hmem := List.mem_map_of_mem (f := BracketPair.opener) hp
  rw [pairs_opener] at hmem
  exact (List.mem_filter.mp hmem).2

theorem mem_of_unmatched {ts : List Token} {b : Token}
    (hb : b ∈ (Matching.ofTokens ts).strays.map StrayCloser.closer ++
      (Matching.ofTokens ts).unmatchedOpeners.map BracketPair.opener) : b ∈ ts := by
  rcases List.mem_append.mp hb with hb | hb
  · exact (Matching.strays_sublist ts).subset hb
  · obtain ⟨p, hp, rfl⟩ := List.mem_map.mp hb
    exact Matching.opener_mem_of_mem_pairs (List.mem_filter.mp hp).1

/-- No bracket without a partner is told of twice. -/
theorem nodup_unmatched {ts : List Token} (h : ts.Nodup) :
    ((Matching.ofTokens ts).strays.map StrayCloser.closer ++
      (Matching.ofTokens ts).unmatchedOpeners.map BracketPair.opener).Nodup := by
  rw [Matching.strays_closer h, Matching.unmatchedOpeners_opener h]
  refine (h.filter _).append (h.filter _) fun t hclosers hopeners => ?_
  have hcloser := (Bool.and_eq_true _ _ ▸ (List.mem_filter.mp hclosers).2).2
  have hopener := (Bool.and_eq_true _ _ ▸ (List.mem_filter.mp hopeners).2).2
  exact Token.not_isCloser_of_isOpener hopener hcloser

theorem tellsOf_ofStray {ts : List Token} (h : ts.Pairwise fun t u => t.start < u.start)
    (ix : LineIndex) {s : StrayCloser} (hs : s ∈ (Matching.ofTokens ts).strays) :
    TellsOf ts ix s.closer (Diagnostic.ofStray ix s) := by
  have hmem : s.closer ∈ ts := (Matching.strays_sublist ts).subset (List.mem_map_of_mem hs)
  obtain ⟨above, below, hcut⟩ := List.append_of_mem hmem
  have henclosing : s.enclosing = (stillOpen (Matching.ofTokens ts).pairs above).getLast? := by
    rw [Matching.enclosing_eq_head?_openAt h hs, openAt_eq_reverse_stillOpen h hcut,
      List.head?_reverse]
  refine ⟨rfl, rfl, fun ho => ?_, fun _ => ⟨rfl, above, below, hcut, fun o ho => ?_, ?_⟩⟩
  · exact absurd (Matching.isCloser_of_mem_strays hs) (Token.not_isCloser_of_isOpener ho)
  · rw [← henclosing] at ho
    refine ⟨Matching.not_fits_follow (by simp) hs ho, ?_⟩
    show Diagnostic.strayMessage ix s = _
    rw [Diagnostic.strayMessage, ho]
  · rw [← List.getLast?_eq_none_iff, ← henclosing]
    exact Diagnostic.strayMessage_eq_iff

theorem tellsOf_ofOpen {ts : List Token} (ix : LineIndex) {p : BracketPair}
    (hp : p ∈ (Matching.ofTokens ts).pairs) : TellsOf ts ix p.opener (Diagnostic.ofOpen ix p) :=
  ⟨rfl, rfl, fun _ => ⟨rfl, rfl⟩, fun hcloser =>
    absurd hcloser (Token.not_isCloser_of_isOpener (Matching.isOpener_of_mem_pairs hp))⟩

theorem tellsOf_of_mem_bracketsKeyed {ts : List Token}
    (h : ts.Pairwise fun t u => t.start < u.start) (ix : LineIndex) {b : Token} {d : Diagnostic}
    (hd : (b, d) ∈ Diagnostic.bracketsKeyed (Matching.ofTokens ts) ix) : TellsOf ts ix b d := by
  rcases List.mem_append.mp hd with hd | hd
  · obtain ⟨s, hs, heq⟩ := List.mem_map.mp hd
    obtain ⟨rfl, rfl⟩ := Prod.mk.inj heq
    exact tellsOf_ofStray h ix hs
  · obtain ⟨p, hp, heq⟩ := List.mem_map.mp hd
    obtain ⟨rfl, rfl⟩ := Prod.mk.inj heq
    exact tellsOf_ofOpen ix (List.mem_filter.mp hp).1

/-- **Findings about brackets.** In a list of tokens that stand in order, every bracket without a
    partner has one finding, in the order of the brackets. The finding about a closer names the
    innermost bracket that is still open there, which is of another shape, and it says that there
    is none exactly when no bracket is open. -/
theorem brackets_exact {ts : List Token} (h : ts.Pairwise fun t u => t.start < u.start)
    (ix : LineIndex) :
    ∃ bs, bs.Perm ((Matching.ofTokens ts).strays.map StrayCloser.closer ++
        (Matching.ofTokens ts).unmatchedOpeners.map BracketPair.opener) ∧
      bs.Pairwise (fun b c => b.start < c.start) ∧
      List.Forall₂ (TellsOf ts ix) bs (Diagnostic.brackets (Matching.ofTokens ts) ix) := by
  let keyed := Diagnostic.bracketsKeyed (Matching.ofTokens ts) ix
  let sorted := keyed.mergeSort fun a b => a.1.start ≤ b.1.start
  have hperm : sorted.Perm keyed := List.mergeSort_perm _ _
  have hbrackets : (sorted.map Prod.fst).Perm
      ((Matching.ofTokens ts).strays.map StrayCloser.closer ++
        (Matching.ofTokens ts).unmatchedOpeners.map BracketPair.opener) := by
    rw [← Diagnostic.map_fst_bracketsKeyed _ ix]
    exact hperm.map Prod.fst
  refine ⟨sorted.map Prod.fst, hbrackets, ?_, ?_⟩
  · have hnodup := hbrackets.nodup_iff.mpr (nodup_unmatched (nodup_of_pairwise_start h))
    refine ((Diagnostic.pairwise_start_mergeSort keyed).and hnodup).imp_of_mem
      fun {b c} hb hc hbc => ?_
    refine Nat.lt_of_le_of_ne hbc.1 fun heq => hbc.2 ?_
    exact start_injective h (mem_of_unmatched (hbrackets.mem_iff.mp hb))
      (mem_of_unmatched (hbrackets.mem_iff.mp hc)) heq
  · rw [Diagnostic.brackets_eq_map_snd, List.forall₂_map_left_iff, List.forall₂_map_right_iff,
      List.forall₂_same]
    exact fun x hx => tellsOf_of_mem_bracketsKeyed h ix (hperm.mem_iff.mp hx)

/-- The brackets of two lines: a closer between an opener and its partner, a closer where nothing is
open any more, and an opener at the end. -/
def crossedBrackets : List Token :=
  [⟨.bracket, "(", 0, ⟨0, 1⟩⟩, ⟨.bracket, "]", 1, ⟨1, 2⟩⟩, ⟨.bracket, ")", 3, ⟨3, 4⟩⟩,
    ⟨.bracket, "]", 4, ⟨4, 5⟩⟩, ⟨.bracket, "\x7b", 5, ⟨5, 6⟩⟩]

theorem brackets_exact_crossedBrackets :
    (crossedBrackets.Pairwise fun t u => t.start < u.start) ∧
    List.Forall₂ (TellsOf crossedBrackets (.ofText "(]\n)]\x7b"))
      [⟨.bracket, "]", 1, ⟨1, 2⟩⟩, ⟨.bracket, "]", 4, ⟨4, 5⟩⟩, ⟨.bracket, "\x7b", 5, ⟨5, 6⟩⟩]
      (Diagnostic.brackets (Matching.ofTokens crossedBrackets) (.ofText "(]\n)]\x7b")) := by
  have h : crossedBrackets.Pairwise fun t u => t.start < u.start := by decide
  obtain ⟨bs, hperm, hsorted, htells⟩ := brackets_exact h (.ofText "(]\n)]\x7b")
  have hbs : bs = [⟨.bracket, "]", 1, ⟨1, 2⟩⟩, ⟨.bracket, "]", 4, ⟨4, 5⟩⟩,
      ⟨.bracket, "\x7b", 5, ⟨5, 6⟩⟩] := by
    refine hperm.eq_of_pairwise (fun b c _ _ hbc hcb => ?_) hsorted (by decide +kernel)
    exact absurd hbc (Nat.lt_asymm hcb)
  rw [hbs] at htells
  exact ⟨h, htells⟩

end ContractScan
