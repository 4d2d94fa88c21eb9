import ContractScan.Proofs.BracketPlaces
import ContractScan.Proofs.WellNested
import Mathlib.Data.List.Sort

/-
  The partners of a nesting. `Partnered` is the grammar of well-nested words once more, now with
  the partners that it gives to the brackets of a word; they are the same in all its derivations
  (`Partnered.unique`). Whatever the tokens are, the brackets that are left when those without a
  partner are deleted are a word of the grammar, and the grammar pairs them up as the nesting does
  (`wellNested_without_unmatched`). The letters of the words are the sides that tokens have by
  their kinds and texts (`Token.bracketSide?_eq_some_iff`).

  The induction is over the tokens, with a stack of open brackets: `Answered` is a partnered word
  cut at the closers that answer the stack.
-/

namespace ContractScan

/-! ## Partners of the grammar -/

/-- Well-nested words of things that have sides, and the partners in them, in the order of the
openers. -/
inductive Partnered {α : Type} (side : α → Option BracketSide) : List α → List (α × α) → Prop
  | nil : Partnered side [] []
  | append {v w : List α} {ps qs : List (α × α)} (hv : Partnered side v ps)
      (hw : Partnered side w qs) : Partnered side (v ++ w) (ps ++ qs)
  | enclose {o c : α} {shape : BracketShape} {w : List α} {ps : List (α × α)}
      (ho : side o = some (.opens shape)) (hc : side c = some (.closes shape))
      (hw : Partnered side w ps) : Partnered side (o :: (w ++ [c])) ((o, c) :: ps)

/-- A partnered word between the closers of a stack of open brackets. -/
inductive Answered {α : Type} (side : α → Option BracketSide) :
    List α → List (α × α) → List α → Prop
  | last {w : List α} {ps : List (α × α)} (hw : Partnered side w ps) : Answered side w ps []
  | closes {v w : List α} {ps qs : List (α × α)} {c : α} {cs : List α} {shape : BracketShape}
      (hc : side c = some (.closes shape)) (hv : Partnered side v ps) (hw : Answered side w qs cs) :
    Answered side (v ++ c :: w) (ps ++ qs) (c :: cs)

section
variable {α : Type} {side : α → Option BracketSide} {w : List α} {ps : List (α × α)}

theorem Partnered.wellNested (h : Partnered side w ps) : WellNested (w.filterMap side) := by
  induction h with
  | nil => exact .nil
  | append _ _ ihv ihw =>
    rw [List.filterMap_append]
    exact .append ihv ihw
  | enclose ho hc _ ih =>
    rw [List.filterMap_cons_some ho, List.filterMap_append, List.filterMap_cons_some hc]
    exact .enclose _ ih

/-- The brackets of a word are those of its pairs. -/
theorem Partnered.mem_iff (h : Partnered side w ps) {a : α} :
    a ∈ w ↔ ∃ p ∈ ps, a = p.1 ∨ a = p.2 := by
  induction h with
  | nil => simp
  | append _ _ ihv ihw => simp only [List.mem_append, ihv, ihw, or_and_right, exists_or]
  | enclose _ _ _ ih =>
    simp only [List.mem_cons, List.mem_append, List.not_mem_nil, or_false, ih, exists_eq_or_imp]
    rw [or_assoc]
    exact or_congr_right or_comm

theorem Partnered.map {β : Type} {side' : β → Option BracketSide} {f : α → β}
    (h : Partnered side w ps) (hf : ∀ a ∈ w, side' (f a) = side a) :
    Partnered side' (w.map f) (ps.map (Prod.map f f)) := by
  induction h with
  | nil => exact .nil
  | append _ _ ihv ihw =>
    rw [List.forall_mem_append] at hf
    rw [List.map_append, List.map_append]
    exact .append (ihv hf.1) (ihw hf.2)
  | enclose ho hc _ ih =>
    rw [List.forall_mem_cons, List.forall_mem_append, List.forall_mem_singleton] at hf
    rw [List.map_cons, List.map_append]
    exact .enclose (hf.1.trans ho) (hf.2.2.trans hc) (ih hf.2.1)

theorem Answered.append {v : List α} {qs : List (α × α)} {cs ds : List α}
    (hv : Answered side v ps cs) (hw : Answered side w qs ds) :
    Answered side (v ++ w) (ps ++ qs) (cs ++ ds) := by
  induction hv with
  | last hv =>
    cases hw with
    | last hw => exact .last (.append hv hw)
    | closes hc hu hw =>
      rw [← List.append_assoc, ← List.append_assoc]
      exact .closes hc (.append hv hu) hw
  | closes hc hv _ ih =>
    rw [List.append_assoc, List.append_assoc, List.cons_append]
    exact .closes hc hv ih

/-- The first closer of a stack is the partner of a new opener of its shape. -/
theorem Answered.enclose {o c : α} {shape : BracketShape} {cs : List α}
    (ho : side o = some (.opens shape)) (hc : side c = some (.closes shape))
    (h : Answered side w ps (c :: cs)) : Answered side (o :: w) ((o, c) :: ps) cs := by
  cases h with
  | closes _ hv hw =>
    have h := (Answered.last (hv.enclose ho hc)).append hw
    rwa [List.cons_append, List.append_assoc, List.singleton_append] at h

theorem Answered.partnered (h : Answered side w ps []) : Partnered side w ps := by
  cases h with
  | last hw => exact hw

/-! ## One list of partners -/

theorem Partnered.eq_nil (h : Partnered side [] ps) : ps = [] := by
  refine List.eq_nil_iff_forall_not_mem.mpr fun p hp => ?_
  exact List.not_mem_nil (h.mem_iff.mpr ⟨p, hp, .inl rfl⟩)

theorem Partnered.opens_head {a : α} {u : List α} (h : Partnered side (a :: u) ps) :
    ∃ shape, side a = some (.opens shape) := by
  generalize hw : a :: u = w at h
  induction h generalizing u with
  | nil => cases hw
  | @append v _ _ _ _ _ ihv ihw =>
    cases v with
    | nil => exact ihw hw
    | cons b v => exact ihv (congrArg (· :: v) (List.cons.inj hw).1)
  | enclose ho _ _ =>
    rw [(List.cons.inj hw).1]
    exact ⟨_, ho⟩

/-- The first opener of a word has the first closer behind a partnered word for its partner. -/
theorem Partnered.exists_answered {o : α} {u : List α} (h : Partnered side (o :: u) ps) :
    ∃ c ps', ps = (o, c) :: ps' ∧ Answered side u ps' [c] := by
  generalize hw : o :: u = w at h
  induction h generalizing u with
  | nil => cases hw
  | @append v w _ qs hv hq ihv ihw =>
    cases v with
    | nil =>
      rw [hv.eq_nil]
      exact ihw hw
    | cons b v =>
      obtain ⟨rfl, rfl⟩ := List.cons.inj hw
      obtain ⟨c, ps', rfl, h⟩ := ihv rfl
      exact ⟨c, ps' ++ qs, rfl, h.append (.last hq)⟩
  | @enclose _ c _ _ ps _ hc hv =>
    obtain ⟨rfl, rfl⟩ := List.cons.inj hw
    refine ⟨c, ps, rfl, ?_⟩
    have h := Answered.closes hc hv (.last .nil)
    rwa [List.append_nil] at h

theorem Answered.exists_of_opens {o : α} {shape : BracketShape} {u : List α} {cs : List α}
    (ho : side o = some (.opens shape)) (h : Answered side (o :: u) ps cs) :
    ∃ c ps', ps = (o, c) :: ps' ∧ Answered side u ps' (c :: cs) := by
  generalize hw : o :: u = w at h
  cases h with
  | last h =>
    subst hw
    exact h.exists_answered
  | @closes v w ps qs c _ _ hc hv h =>
    cases v with
    | nil =>
      rw [(List.cons.inj hw).1, hc] at ho
      cases ho
    | cons b v =>
      obtain ⟨rfl, rfl⟩ := List.cons.inj hw
      obtain ⟨c', ps', rfl, h'⟩ := hv.exists_answered
      exact ⟨c', ps' ++ qs, rfl, h'.append (.closes hc .nil h)⟩

theorem Answered.of_closes {c c' : α} {shape : BracketShape} {u : List α} {cs : List α}
    (hc : side c = some (.closes shape)) (h : Answered side (c :: u) ps (c' :: cs)) :
    c = c' ∧ Answered side u ps cs := by
  generalize hw : c :: u = w at h
  cases h with
  | @closes v _ ps _ _ _ _ _ hv h =>
    cases v with
    | nil =>
      obtain ⟨rfl, rfl⟩ := List.cons.inj hw
      rw [hv.eq_nil]
      exact ⟨rfl, h⟩
    | cons b v =>
      rw [(List.cons.inj hw).1] at hc
      obtain ⟨_, ho⟩ := hv.opens_head
      rw [hc] at ho
      cases ho

/-- A partnered word in front of others keeps its partners. -/
theorem Partnered.exists_append {x : List α} {rs : List (α × α)} {cs : List α}
    (h : Partnered side w ps) (hx : Answered side (w ++ x) rs cs) :
    ∃ qs, rs = ps ++ qs ∧ Answered side x qs cs := by
  induction h generalizing x rs cs with
  | nil => exact ⟨rs, rfl, hx⟩
  | append _ _ ihv ihw =>
    rw [List.append_assoc] at hx
    obtain ⟨rs, rfl, hrs⟩ := ihv hx
    obtain ⟨qs, rfl, hqs⟩ := ihw hrs
    exact ⟨qs, (List.append_assoc _ _ _).symm, hqs⟩
  | enclose ho hc _ ih =>
    rw [List.cons_append, List.append_assoc] at hx
    obtain ⟨c, rs, rfl, hrs⟩ := hx.exists_of_opens ho
    obtain ⟨qs, rfl, hqs⟩ := ih hrs
    obtain ⟨rfl, hrest⟩ := hqs.of_closes hc
    exact ⟨qs, rfl, hrest⟩

/-- The grammar gives a word one list of partners. -/
theorem Partnered.unique {qs : List (α × α)} (hp : Partnered side w ps) (hq : Partnered side w qs) :
    qs = ps := by
  rw [← List.append_nil w] at hq
  obtain ⟨rs, rfl, hrs⟩ := hp.exists_append (.last hq)
  rw [hrs.partnered.eq_nil, List.append_nil]

end

namespace Matching

/-! ## Partners of a nesting -/

/-- The brackets of a pair that has both. -/
def partners? (p : BracketPair) : Option (Token × Token) := p.closer.map (p.opener, ·)

/-- The brackets with a partner are a partnered word between the answers to the stack. -/
theorem exists_answered_follow (ts : List Token) (stack : List (Token × BracketShape)) :
    ∃ w, w.Sublist ts ∧ Answered Token.bracketSide? w
      ((follow ts stack).pairs.filterMap partners?) ((follow ts stack).closers.filterMap id) := by
  fun_induction follow ts stack with
  | case1 stack => exact ⟨[], List.Sublist.refl _, by simpa using .last .nil⟩
  | case2 t ts stack hside ih =>
    obtain ⟨w, hsub, h⟩ := ih
    exact ⟨w, hsub.cons t, h⟩
  | case3 t ts stack shape hside ih =>
    obtain ⟨w, hsub, h⟩ := ih
    obtain ⟨hanswers, -⟩ := fits_follow ts ((t, shape) :: stack)
    generalize follow ts ((t, shape) :: stack) = r at h hanswers
    obtain ⟨closers, pairs, strays⟩ := r
    cases hanswers with
    | @cons _ answer _ closers hanswer =>
      cases answer with
      | none => exact ⟨w, hsub.cons t, h⟩
      | some c => exact ⟨t :: w, hsub.cons_cons t, h.enclose hside (hanswer c rfl)⟩
  | case4 t ts shape hside ih =>
    obtain ⟨w, hsub, h⟩ := ih
    exact ⟨w, hsub.cons t, h⟩
  | case5 t ts o shape outer hside ih =>
    obtain ⟨w, hsub, h⟩ := ih
    exact ⟨t :: w, hsub.cons_cons t, .closes hside .nil h⟩
  | case6 t ts shape hside o inner outer _ ih =>
    obtain ⟨w, hsub, h⟩ := ih
    exact ⟨w, hsub.cons t, h⟩

/-- The side of the token at a place. -/
def sideAt (ts : List Token) (n : Nat) : Option BracketSide := ts[n]?.bind Token.bracketSide?

/-- The places of the pairs that have both their brackets. -/
def partnerPlaces (ts : List Token) : List (Nat × Nat) :=
  (placedPairs ts).filterMap fun p => p.closerAt.map (p.openerAt, ·)

/-- The places of the openers that nothing closes. -/
def unmatchedPlaces (ts : List Token) : List Nat :=
  ((placedPairs ts).filter fun p => !p.pair.isMatched).map PlacedPair.openerAt

/-- The places of the brackets without the openers that nothing closes and the closers astray. -/
def keptPlaces (ts : List Token) : List Nat :=
  (placesOf (fun t => t.isOpener || t.isCloser) ts).filter fun n =>
    n ∉ unmatchedPlaces ts ∧ n ∉ strayPlaces ts

theorem mem_partnerPlaces_iff {ts : List Token} {n : Nat} :
    (∃ p ∈ partnerPlaces ts, n = p.1 ∨ n = p.2) ↔
      ∃ p ∈ placedPairs ts, ∃ j ∈ p.closerAt, n = p.openerAt ∨ n = j := by
  simp only [partnerPlaces, List.mem_filterMap, Option.map_eq_some_iff, Option.mem_def]
  constructor
  · rintro ⟨-, ⟨p, hp, j, hj, rfl⟩, h⟩
    exact ⟨p, hp, j, hj, h⟩
  · rintro ⟨p, hp, j, hj, h⟩
    exact ⟨_, ⟨p, hp, j, hj, rfl⟩, h⟩

theorem mem_placesOf_bracket {ts : List Token} {n : Nat} :
    n ∈ placesOf (fun t => t.isOpener || t.isCloser) ts ↔
      n ∈ placesOf Token.isOpener ts ∨ n ∈ placesOf Token.isCloser ts := by
  simp only [placesOf, List.mem_filter, ← and_or_left, ← Bool.or_eq_true]
  cases ts[n]? <;> rfl

theorem isMatched_placedPairs {ts : List Token} {p : PlacedPair} (hp : p ∈ placedPairs ts) :
    p.pair.isMatched = p.closerAt.isSome := by
  have h := congrArg Option.isSome ((placed_ofTokens ts).closer_at p hp)
  rw [Option.isSome_map, Option.isSome_map] at h
  exact h.symm

/-- An opener lies in one pair only. -/
theorem eq_of_openerAt_eq {ts : List Token} {p q : PlacedPair} (hp : p ∈ placedPairs ts)
    (hq : q ∈ placedPairs ts) (h : p.openerAt = q.openerAt) : p = q := by
  refine List.inj_on_of_nodup_map ?_ hp hq h
  rw [placedPairs_openerAt]
  exact List.nodup_range.filter _

/-- The brackets that are kept are those of the pairs that have both. -/
theorem mem_keptPlaces_iff {ts : List Token} {n : Nat} :
    n ∈ keptPlaces ts ↔
      ∃ p ∈ placedPairs ts, ∃ j ∈ p.closerAt, n = p.openerAt ∨ n = j := by
  have hdisjoint := List.disjoint_of_nodup_append
    ((closerAt_perm ts).nodup_iff.mpr (List.nodup_range.filter _))
  have hstray : ∀ k ∈ strayPlaces ts, k ∈ placesOf Token.isCloser ts := fun k hk =>
    (closerAt_perm ts).mem_iff.mp (List.mem_append_right _ hk)
  rw [keptPlaces, List.mem_filter, decide_eq_true_eq, mem_placesOf_bracket,
    ← placedPairs_openerAt, ← (closerAt_perm ts).mem_iff, List.mem_append, List.mem_map,
    List.mem_filterMap]
  constructor
  · rintro ⟨⟨p, hp, rfl⟩ | ⟨p, hp, hj⟩ | hn, hopen, hastray⟩
    · -- An opener that is kept has a closer.
      have hmatched : p.closerAt.isSome := by
        rw [← isMatched_placedPairs hp]
        by_contra h
        exact hopen (List.mem_map_of_mem (List.mem_filter.mpr ⟨hp, by simpa using h⟩))
      obtain ⟨j, hj⟩ := Option.isSome_iff_exists.mp hmatched
      exact ⟨p, hp, j, hj, .inl rfl⟩
    · exact ⟨p, hp, n, hj, .inr rfl⟩
    · exact absurd hn hastray
  · rintro ⟨p, hp, j, hj, rfl | rfl⟩
    · refine ⟨.inl ⟨p, hp, rfl⟩, fun hopen => ?_, fun hastray => ?_⟩
      · obtain ⟨q, hq, hqp⟩ := List.mem_map.mp hopen
        obtain ⟨hq, hunmatched⟩ := List.mem_filter.mp hq
        rw [eq_of_openerAt_eq hq hp hqp, isMatched_placedPairs hp, hj] at hunmatched
        cases hunmatched
      · refine not_mem_placesOf_isCloser ?_ (hstray _ hastray)
        rw [← placedPairs_openerAt]
        exact List.mem_map_of_mem hp
    · refine ⟨.inr (.inl ⟨p, hp, hj⟩), fun hopen => ?_, fun hastray => ?_⟩
      · obtain ⟨q, hq, hqj⟩ := List.mem_map.mp hopen
        exact closerAt_ne_openerAt hp (List.mem_filter.mp hq).1 hj hqj.symm
      · exact hdisjoint (List.mem_filterMap.mpr ⟨p, hp, hj⟩) hastray

theorem partnered_keptPlaces (ts : List Token) :
    Partnered (sideAt ts) (keptPlaces ts) (partnerPlaces ts) := by
  obtain ⟨w, hsub, h⟩ := exists_answered_follow (numbered ts) []
  rw [List.length_eq_zero_iff.mp (length_closers_follow (numbered ts) [])] at h
  have hside : ∀ t ∈ w, sideAt ts t.start = t.bracketSide? := fun t ht => by
    rw [sideAt, getElem?_of_mem_numbered (hsub.subset ht), Option.bind_some,
      bracketSide?_original (hsub.subset ht)]
  have hplaces := h.partnered.map hside
  have hpairs : ((follow (numbered ts) []).pairs.filterMap partners?).map
      (Prod.map Token.start Token.start) = partnerPlaces ts := by
    rw [partnerPlaces, placedPairs, List.filterMap_map, List.map_filterMap]
    refine List.filterMap_congr fun p _ => ?_
    cases hc : p.closer <;> simp [partners?, hc]
  rw [hpairs] at hplaces
  -- Both are places in order, so they are the same if they have the same members.
  have hsorted : (w.map Token.start).Pairwise (· < ·) :=
    List.pairwise_map.mpr ((pairwise_start_numbered ts).sublist hsub)
  have hkept : (keptPlaces ts).Pairwise (· < ·) := (List.pairwise_lt_range.filter _).filter _
  have hmem (n : Nat) : n ∈ w.map Token.start ↔ n ∈ keptPlaces ts := by
    rw [hplaces.mem_iff, mem_partnerPlaces_iff, mem_keptPlaces_iff]
  rwa [hsorted.eq_of_mem_iff hkept hmem] at hplaces

/-- **Partners.** A nesting is balanced exactly when its brackets are a well-nested word. In every
    list of tokens, the brackets that are left when the openers that nothing closes and the closers
    astray are deleted are a well-nested word, and the partners in it are those of the nesting. The
    sides are those of the bracket tokens by their six texts (`Token.bracketSide?_eq_some_iff`). -/
theorem wellNested_without_unmatched (ts : List Token) :
    ((ofTokens ts).isBalanced ↔ WellNested (ts.filterMap Token.bracketSide?)) ∧
    Placed ts (ofTokens ts) (placedPairs ts) (strayPlaces ts) ∧
    WellNested ((keptPlaces ts).filterMap (sideAt ts)) ∧
    ∀ ps, Partnered (sideAt ts) (keptPlaces ts) ps ↔ ps = partnerPlaces ts := by
  have hkept := partnered_keptPlaces ts
  refine ⟨isBalanced_iff ts, placed_ofTokens ts, hkept.wellNested, fun ps => ?_⟩
  constructor
  · exact hkept.unique
  · rintro rfl
    exact hkept

end Matching

end ContractScan
