import ContractScan.Proofs.Nesting

/-
  Where the brackets of a nesting stand. Tokens of a list may be equal, so a bracket is told by its
  place in the list and not by itself. A nesting looks at nothing but the sides of the tokens;
  hence tokens that carry their own places nest in the same way (`ofTokens_numbered`), and the
  places can be read off their nesting (`placedPairs`, `strayPlaces`).

  What the places have to do with one another is one invariant of the outcome, `Outcome.IsLaminar`:
  an inner bracket is answered before an outer one, all that opens inside a pair is closed inside
  it, and the depth of a pair counts what is open around it. Each kind of token keeps it
  (`IsLaminar.afterOpener`, `IsLaminar.afterCloser`), so every run has it (`isLaminar_follow`).
  The main statement is `isNesting_ofTokens`. Which tokens are its openers and closers, and of
  which shape, is settled by their kinds and texts (`Token.bracketSide?_eq_some_iff`,
  `Token.isOpener_iff`, `Token.isCloser_iff`).
-/

namespace ContractScan

/-! ## Tokens and their places -/

/-- The tokens of a list, each with its place in the list instead of its first character. -/
def numbered (ts : List Token) : List Token := ts.zipIdx.map fun t => { t.1 with start := t.2 }

/-- The token of a list that a numbered token stands for. -/
def original (ts : List Token) (t : Token) : Token := ts[t.start]?.getD t

/-- The places in a list where the tokens of a class stand. -/
def placesOf (p : Token → Bool) (ts : List Token) : List Nat :=
  (List.range ts.length).filter fun n => ts[n]?.any p

theorem getElem?_of_mem_numbered {ts : List Token} {t : Token} (h : t ∈ numbered ts) :
    ts[t.start]? = some (original ts t) := by
  obtain ⟨⟨u, n⟩, hu, rfl⟩ := List.mem_map.mp h
  have hu : ts[n]? = some u := List.mem_zipIdx_iff_getElem?.mp hu
  show ts[n]? = some (ts[n]?.getD _)
  rw [hu]
  rfl

theorem bracketSide?_original {ts : List Token} {t : Token} (h : t ∈ numbered ts) :
    (original ts t).bracketSide? = t.bracketSide? := by
  obtain ⟨⟨u, n⟩, hu, rfl⟩ := List.mem_map.mp h
  have hu : ts[n]? = some u := List.mem_zipIdx_iff_getElem?.mp hu
  show (ts[n]?.getD _).bracketSide? = u.bracketSide?
  rw [hu]
  rfl

theorem isOpener_original {ts : List Token} {t : Token} (h : t ∈ numbered ts) :
    (original ts t).isOpener = t.isOpener := by
  rw [Token.isOpener, bracketSide?_original h]
  rfl

theorem isCloser_original {ts : List Token} {t : Token} (h : t ∈ numbered ts) :
    (original ts t).isCloser = t.isCloser := by
  rw [Token.isCloser, bracketSide?_original h]
  rfl

theorem map_original_numbered (ts : List Token) : (numbered ts).map (original ts) = ts := by
  have h : ∀ t ∈ ts.zipIdx, original ts { t.1 with start := t.2 } = t.1 := by
    rintro ⟨u, n⟩ hu
    have hu : ts[n]? = some u := List.mem_zipIdx_iff_getElem?.mp hu
    show ts[n]?.getD _ = u
    rw [hu]
    rfl
  rw [numbered, List.map_map]
  exact (List.map_congr_left h).trans (List.zipIdx_map_fst 0 ts)

theorem map_start_numbered (ts : List Token) :
    (numbered ts).map Token.start = List.range ts.length := by
  rw [numbered, List.map_map, List.range_eq_range']
  exact List.zipIdx_map_snd 0 ts

theorem pairwise_start_numbered (ts : List Token) :
    (numbered ts).Pairwise fun t u => t.start < u.start := by
  rw [← List.pairwise_map (f := Token.start) (R := (· < ·)), map_start_numbered]
  exact List.pairwise_lt_range

theorem map_start_filter_numbered {ts : List Token} {p : Token → Bool} {q : Nat → Bool}
    (h : ∀ t ∈ numbered ts, p t = q t.start) :
    ((numbered ts).filter p).map Token.start = (List.range ts.length).filter q := by
  rw [← map_start_numbered, List.filter_map, List.filter_congr h]
  rfl

/-- Numbered tokens of a class stand where the class has its places. -/
theorem map_start_filter_eq_placesOf {ts : List Token} {p : Token → Bool}
    (h : ∀ t ∈ numbered ts, p (original ts t) = p t) :
    ((numbered ts).filter p).map Token.start = placesOf p ts :=
  map_start_filter_numbered fun t ht => by rw [getElem?_of_mem_numbered ht, ← h t ht]; rfl

theorem not_mem_placesOf_isCloser {ts : List Token} {n : Nat} (h : n ∈ placesOf Token.isOpener ts) :
    n ∉ placesOf Token.isCloser ts := by
  intro hcloser
  obtain ⟨t, ht, hopener⟩ := (Option.any_eq_true _ _).mp (List.mem_filter.mp h).2
  obtain ⟨u, hu, hcloser⟩ := (Option.any_eq_true _ _).mp (List.mem_filter.mp hcloser).2
  rw [ht] at hu
  rw [← Option.some.inj hu] at hcloser
  exact Token.not_isCloser_of_isOpener hopener hcloser

namespace Matching

/-! ## Places of an outcome -/

/-- Whether an open bracket has been closed before a place. -/
def closedBefore (n : Nat) (answer : Option Token) : Bool := answer.any fun c => c.start < n

theorem closedBefore_some {n : Nat} {c : Token} : closedBefore n (some c) ↔ c.start < n := by
  simp [closedBefore]

/-- Whether the answers and the openers of an outcome all stand behind a place. -/
structure Outcome.StandsAfter (r : Outcome) (n : Nat) : Prop where
  answers : ∀ a ∈ r.closers, ∀ c ∈ a, n < c.start
  openers : ∀ p ∈ r.pairs, n < p.opener.start

theorem standsAfter_follow {ts : List Token} {n : Nat} (h : ∀ t ∈ ts, n < t.start)
    (stack : List (Token × BracketShape)) : (follow ts stack).StandsAfter n where
  answers a ha c hc := by
    have hmem : c ∈ (follow ts stack).closers.filterMap id :=
      List.mem_filterMap.mpr ⟨a, ha, hc⟩
    have hc := (closers_perm_follow ts stack).mem_iff.mp (List.mem_append_left _ hmem)
    exact h c (List.mem_filter.mp hc).1
  openers p hp := by
    have hp := List.mem_map_of_mem (f := BracketPair.opener) hp
    rw [pairs_opener_follow] at hp
    exact h _ (List.mem_filter.mp hp).1

/-- What the places of the answers and pairs of an outcome have to do with one another. -/
structure Outcome.IsLaminar (r : Outcome) : Prop where
  /-- An inner bracket is closed before an outer one. -/
  answers : r.closers.Pairwise fun inner outer => ∀ c ∈ outer, closedBefore c.start inner
  /-- What opens before the answer to an open bracket is closed before it. -/
  inside_answer : ∀ a ∈ r.closers, ∀ c ∈ a, ∀ q ∈ r.pairs,
    q.opener.start < c.start → closedBefore c.start q.closer
  after : ∀ p ∈ r.pairs, ∀ c ∈ p.closer, p.opener.start < c.start
  /-- What opens inside a pair is closed inside it. -/
  inside : ∀ p ∈ r.pairs, ∀ q ∈ r.pairs, p.opener.start < q.opener.start →
    ∀ c ∈ p.closer, q.opener.start < c.start → closedBefore c.start q.closer
  /-- The depth of a pair counts the brackets that are open where it opens. -/
  depth : ∀ p ∈ r.pairs, p.depth =
    r.closers.countP (fun a => !closedBefore p.opener.start a) +
      r.pairs.countP fun q =>
        q.opener.start < p.opener.start && !closedBefore p.opener.start q.closer

/-- Brackets that are answered behind a place are all open there. -/
theorem countP_not_closedBefore {answers : List (Option Token)} {n : Nat}
    (h : ∀ a ∈ answers, ∀ c ∈ a, n < c.start) :
    answers.countP (fun a => !closedBefore n a) = answers.length := by
  rw [List.countP_eq_length]
  intro a ha
  cases a with
  | none => rfl
  | some c =>
    rw [Bool.not_eq_true', ← Bool.not_eq_true, closedBefore_some]
    exact Nat.not_lt.mpr (Nat.le_of_lt (h _ ha c rfl))

theorem Outcome.IsLaminar.afterOpener {r : Outcome} {t : Token} {depth : Nat} (h : r.IsLaminar)
    (hafter : r.StandsAfter t.start) (hlen : r.closers.length = depth + 1) :
    (r.afterOpener t depth).IsLaminar := by
  obtain ⟨closers, pairs, strays⟩ := r
  obtain ⟨answer, closers, rfl⟩ := List.exists_cons_of_length_eq_add_one hlen
  obtain ⟨hanswers, hinside_answer, hclose, hinside, hdepth⟩ := h
  obtain ⟨hanswer, hanswers⟩ := List.pairwise_cons.mp hanswers
  have hopen : ∀ q ∈ pairs, ¬ q.opener.start < t.start := fun q hq =>
    Nat.not_lt.mpr (Nat.le_of_lt (hafter.openers q hq))
  refine ⟨hanswers, ?answer, ?close, ?inside, ?depth⟩
  case answer =>
    intro a ha c hc q hq hlt
    rcases List.mem_cons.mp hq with rfl | hq
    · exact hanswer a ha c hc
    · exact hinside_answer a (List.mem_cons_of_mem answer ha) c hc q hq hlt
  case close =>
    intro p hp c hc
    rcases List.mem_cons.mp hp with rfl | hp
    · exact hafter.answers _ List.mem_cons_self c hc
    · exact hclose p hp c hc
  case inside =>
    intro p hp q hq hlt c hc hqc
    rcases List.mem_cons.mp hq with rfl | hq
    · rcases List.mem_cons.mp hp with rfl | hp
      · exact absurd hlt (Nat.lt_irrefl _)
      · exact absurd hlt (hopen p hp)
    · rcases List.mem_cons.mp hp with rfl | hp
      · exact hinside_answer _ List.mem_cons_self c hc q hq hqc
      · exact hinside p hp q hq hlt c hc hqc
  case depth =>
    intro p hp
    rcases List.mem_cons.mp hp with rfl | hp
    · -- Nothing opens before this opener, and all that is open around it is still open.
      have houter : closers.countP (fun a => !closedBefore t.start a) = closers.length :=
        countP_not_closedBefore fun a ha => hafter.answers a (List.mem_cons_of_mem answer ha)
      have hnone : pairs.countP (fun q =>
          q.opener.start < t.start && !closedBefore t.start q.closer) = 0 := by
        rw [List.countP_eq_zero]
        intro q hq
        simp [hopen q hq]
      have hlen : closers.length = depth := Nat.succ.inj hlen
      simp only [Outcome.afterOpener, List.drop_one, List.tail_cons, List.countP_cons, houter,
        hnone, hlen]
      simp
    · -- The new opener lies before all others, and its answer moves into its pair.
      have hlt : t.start < p.opener.start := hafter.openers p hp
      rw [hdepth p hp]
      simp only [Outcome.afterOpener, List.drop_one, List.tail_cons, List.countP_cons, hlt]
      simp
      omega

theorem Outcome.IsLaminar.afterCloser {r : Outcome} {t : Token} (h : r.IsLaminar)
    (hafter : r.StandsAfter t.start) : (r.afterCloser t).IsLaminar where
  answers := by
    refine List.Pairwise.cons (fun a ha c hc => ?_) h.answers
    exact closedBefore_some.mpr (hafter.answers a ha c hc)
  inside_answer a ha c hc q hq hlt := by
    rcases List.mem_cons.mp ha with rfl | ha
    · rw [← Option.some.inj hc] at hlt
      exact absurd hlt (Nat.not_lt.mpr (Nat.le_of_lt (hafter.openers q hq)))
    · exact h.inside_answer a ha c hc q hq hlt
  after := h.after
  inside := h.inside
  depth p hp := by
    have hclosed : closedBefore p.opener.start (some t) :=
      closedBefore_some.mpr (hafter.openers p hp)
    rw [h.depth p hp, Outcome.afterCloser, List.countP_cons_of_neg (by simp [hclosed])]

theorem Outcome.IsLaminar.afterStray {r : Outcome} {s : StrayCloser} (h : r.IsLaminar) :
    (r.afterStray s).IsLaminar :=
  ⟨h.answers, h.inside_answer, h.after, h.inside, h.depth⟩

/-- A run over tokens that stand in order keeps the nesting. -/
theorem isLaminar_follow {ts : List Token} (h : ts.Pairwise fun t u => t.start < u.start)
    (stack : List (Token × BracketShape)) : (follow ts stack).IsLaminar := by
  fun_induction follow ts stack with
  | case1 stack =>
    have hnone : ∀ a ∈ stack.map fun _ => (none : Option Token), a = none := by simp
    refine ⟨List.pairwise_of_forall_mem_list fun a _ b hb c hc => ?_, fun a ha c hc => ?_,
      by simp, by simp, by simp⟩
    · rw [hnone b hb] at hc
      cases hc
    · rw [hnone a ha] at hc
      cases hc
  | case2 t ts stack hside ih => exact ih (List.pairwise_cons.mp h).2
  | case3 t ts stack shape hside ih =>
    obtain ⟨ht, h⟩ := List.pairwise_cons.mp h
    exact (ih h).afterOpener (standsAfter_follow ht _) (length_closers_follow ts _)
  | case4 t ts shape hside ih => exact (ih (List.pairwise_cons.mp h).2).afterStray
  | case5 t ts o shape outer hside ih =>
    obtain ⟨ht, h⟩ := List.pairwise_cons.mp h
    exact (ih h).afterCloser (standsAfter_follow ht outer)
  | case6 t ts shape hside o inner outer _ ih =>
    exact (ih (List.pairwise_cons.mp h).2).afterStray

/-! ## Shapes -/

/-- An opener and its closer have the same shape. -/
def Fits (opener closer : Token) : Prop :=
  ∃ shape, opener.bracketSide? = some (.opens shape) ∧ closer.bracketSide? = some (.closes shape)

/-- Every answer closes the shape of its open bracket, and every pair fits. -/
theorem fits_follow (ts : List Token) (stack : List (Token × BracketShape)) :
    List.Forall₂ (fun o a => ∀ c ∈ a, c.bracketSide? = some (.closes o.2)) stack
        (follow ts stack).closers ∧
      ∀ p ∈ (follow ts stack).pairs, ∀ c ∈ p.closer, Fits p.opener c := by
  fun_induction follow ts stack with
  | case1 stack =>
    refine ⟨?_, by simp⟩
    rw [List.forall₂_map_right_iff]
    exact List.forall₂_same.mpr (by simp)
  | case2 t ts stack hside ih => exact ih
  | case3 t ts stack shape hside ih =>
    obtain ⟨hanswers, hpairs⟩ := ih
    generalize follow ts ((t, shape) :: stack) = r at hanswers hpairs
    obtain ⟨closers, pairs, strays⟩ := r
    cases hanswers with
    | cons hanswer hanswers =>
      refine ⟨hanswers, fun p hp c hc => ?_⟩
      rcases List.mem_cons.mp hp with rfl | hp
      · exact ⟨shape, hside, hanswer c hc⟩
      · exact hpairs p hp c hc
  | case4 t ts shape hside ih => exact ih
  | case5 t ts o shape outer hside ih =>
    refine ⟨.cons (fun c hc => ?_) ih.1, ih.2⟩
    rw [← Option.some.inj hc]
    exact hside
  | case6 t ts shape hside o inner outer _ ih => exact ih

/-! ## Places of a nesting -/

/-- A pair of a nesting together with the places of its brackets. -/
structure PlacedPair where
  pair : BracketPair
  openerAt : Nat
  closerAt : Option Nat

/-- The pairs of a list of tokens with their places. -/
def placedPairs (ts : List Token) : List PlacedPair :=
  (ofTokens (numbered ts)).pairs.map fun p =>
    ⟨p.map (original ts), p.opener.start, p.closer.map Token.start⟩

/-- The places of the closers astray in a list of tokens. -/
def strayPlaces (ts : List Token) : List Nat :=
  (ofTokens (numbered ts)).strays.map fun s => s.closer.start

/-- Whether places are those of the brackets that a nesting of a list of tokens speaks of. -/
structure Placed (ts : List Token) (m : Matching) (ps : List PlacedPair) (strays : List Nat) :
    Prop where
  pairs_eq : ps.map PlacedPair.pair = m.pairs
  opener_at : ∀ p ∈ ps, ts[p.openerAt]? = some p.pair.opener
  closer_at : ∀ p ∈ ps, p.closerAt.map (ts[·]?) = p.pair.closer.map some
  strays_at : strays.map (ts[·]?) = m.strays.map fun s => some s.closer

/-- Whether a nesting of a list of tokens is as it should be, told by the places of its brackets:
which brackets it speaks of, how they pair up, and how deep they lie. -/
structure IsNesting (ts : List Token) (m : Matching) (ps : List PlacedPair) (strays : List Nat) :
    Prop extends Placed ts m ps strays where
  /-- Every opener has one pair, in order. -/
  openers : ps.map PlacedPair.openerAt = placesOf Token.isOpener ts
  /-- Every closer closes one pair or is astray once, and there are no others. -/
  closers : (ps.filterMap PlacedPair.closerAt ++ strays).Perm (placesOf Token.isCloser ts)
  strays_sorted : strays.Pairwise (· < ·)
  after : ∀ p ∈ ps, ∀ j ∈ p.closerAt, p.openerAt < j
  fits : ∀ p ∈ ps, ∀ c ∈ p.pair.closer, Fits p.pair.opener c
  /-- Two pairs are disjoint, or the one that opens later lies inside the other. -/
  nested : ∀ p ∈ ps, ∀ q ∈ ps, p.openerAt < q.openerAt → ∀ j ∈ p.closerAt, ∀ k ∈ q.closerAt,
    j < q.openerAt ∨ k < j
  /-- What opens inside a pair is closed inside it. -/
  inside : ∀ p ∈ ps, ∀ q ∈ ps, p.openerAt < q.openerAt → ∀ j ∈ p.closerAt, q.openerAt < j →
    ∃ k ∈ q.closerAt, k < j
  /-- The depth counts the pairs that opened before and were not closed before. -/
  depth : ∀ p ∈ ps, p.pair.depth =
    ps.countP fun q => q.openerAt < p.openerAt && !q.closerAt.any fun k => k < p.openerAt

theorem ofTokens_numbered (ts : List Token) :
    ofTokens ts = ⟨(ofTokens (numbered ts)).pairs.map (BracketPair.map (original ts)),
      (ofTokens (numbered ts)).strays.map (StrayCloser.map (original ts))⟩ := by
  conv => lhs; rw [← map_original_numbered ts]
  exact ofTokens_map fun t ht => bracketSide?_original ht

theorem opener_mem_of_mem_pairs {ts : List Token} {p : BracketPair} (hp : p ∈ (ofTokens ts).pairs) :
    p.opener ∈ ts := by
  have hp := List.mem_map_of_mem (f := BracketPair.opener) hp
  rw [pairs_opener] at hp
  exact (List.mem_filter.mp hp).1

theorem closer_mem_of_mem_pairs {ts : List Token} {p : BracketPair} (hp : p ∈ (ofTokens ts).pairs)
    {c : Token} (hc : c ∈ p.closer) : c ∈ ts := by
  have hmem := List.mem_append_left ((ofTokens ts).strays.map StrayCloser.closer)
    (List.mem_filterMap.mpr ⟨p, hp, hc⟩)
  exact (List.mem_filter.mp ((closers_perm ts).mem_iff.mp hmem)).1

theorem strays_sublist (ts : List Token) :
    ((ofTokens ts).strays.map StrayCloser.closer).Sublist ts :=
  strays_sublist_follow ts []

/-- The places of a nesting are those of its brackets. -/
theorem placed_ofTokens (ts : List Token) :
    Placed ts (ofTokens ts) (placedPairs ts) (strayPlaces ts) where
  pairs_eq := by
    rw [ofTokens_numbered, placedPairs, List.map_map]
    rfl
  opener_at := by
    intro p hp
    obtain ⟨q, hq, rfl⟩ := List.mem_map.mp hp
    exact getElem?_of_mem_numbered (opener_mem_of_mem_pairs hq)
  closer_at := by
    intro p hp
    obtain ⟨q, hq, rfl⟩ := List.mem_map.mp hp
    rw [BracketPair.map, Option.map_map, Option.map_map]
    exact Option.map_congr fun c hc => getElem?_of_mem_numbered (closer_mem_of_mem_pairs hq hc)
  strays_at := by
    rw [ofTokens_numbered, strayPlaces, List.map_map, List.map_map]
    refine List.map_congr_left fun s hs => ?_
    exact getElem?_of_mem_numbered ((strays_sublist _).subset (List.mem_map_of_mem hs))

theorem placedPairs_openerAt (ts : List Token) :
    (placedPairs ts).map PlacedPair.openerAt = placesOf Token.isOpener ts := by
  rw [← map_start_filter_eq_placesOf fun t ht => isOpener_original ht, ← pairs_opener, placedPairs,
    List.map_map, List.map_map]
  rfl

theorem closerAt_perm (ts : List Token) :
    ((placedPairs ts).filterMap PlacedPair.closerAt ++ strayPlaces ts).Perm
      (placesOf Token.isCloser ts) := by
  have hpairs : (placedPairs ts).filterMap PlacedPair.closerAt =
      ((ofTokens (numbered ts)).pairs.filterMap BracketPair.closer).map Token.start := by
    rw [placedPairs, List.filterMap_map, List.map_filterMap]
    rfl
  have hstrays : strayPlaces ts =
      ((ofTokens (numbered ts)).strays.map StrayCloser.closer).map Token.start := by
    rw [strayPlaces, List.map_map]
    rfl
  rw [← map_start_filter_eq_placesOf fun t ht => isCloser_original ht, hpairs, hstrays,
    ← List.map_append]
  exact (closers_perm (numbered ts)).map Token.start

theorem isLaminar_numbered (ts : List Token) : (follow (numbered ts) []).IsLaminar :=
  isLaminar_follow (pairwise_start_numbered ts) []

theorem openerAt_lt_closerAt {ts : List Token} {p : PlacedPair} (hp : p ∈ placedPairs ts) {j : Nat}
    (hj : j ∈ p.closerAt) : p.openerAt < j := by
  obtain ⟨p, hmem, rfl⟩ := List.mem_map.mp hp
  obtain ⟨c, hc, rfl⟩ := Option.map_eq_some_iff.mp hj
  exact (isLaminar_numbered ts).after p hmem c hc

/-- What opens inside a pair is closed inside it. -/
theorem exists_closerAt_lt {ts : List Token} {p q : PlacedPair} (hp : p ∈ placedPairs ts)
    (hq : q ∈ placedPairs ts) (hlt : p.openerAt < q.openerAt) {j : Nat} (hj : j ∈ p.closerAt)
    (hqj : q.openerAt < j) : ∃ k ∈ q.closerAt, k < j := by
  obtain ⟨p, hpmem, rfl⟩ := List.mem_map.mp hp
  obtain ⟨q, hqmem, rfl⟩ := List.mem_map.mp hq
  obtain ⟨c, hc, rfl⟩ := Option.map_eq_some_iff.mp hj
  have hclosed := (isLaminar_numbered ts).inside p hpmem q hqmem hlt c hc hqj
  obtain ⟨d, hd, hlt⟩ := (Option.any_eq_true _ _).mp hclosed
  exact ⟨d.start, Option.mem_map_of_mem Token.start hd, of_decide_eq_true hlt⟩

/-- No bracket is an opener and a closer. -/
theorem closerAt_ne_openerAt {ts : List Token} {p q : PlacedPair} (hp : p ∈ placedPairs ts)
    (hq : q ∈ placedPairs ts) {j : Nat} (hj : j ∈ p.closerAt) : j ≠ q.openerAt := by
  rintro rfl
  have hopener : q.openerAt ∈ placesOf Token.isOpener ts := by
    rw [← placedPairs_openerAt]
    exact List.mem_map_of_mem hq
  have hcloser : q.openerAt ∈ placesOf Token.isCloser ts :=
    (closerAt_perm ts).mem_iff.mp (List.mem_append_left _ (List.mem_filterMap.mpr ⟨p, hp, hj⟩))
  exact not_mem_placesOf_isCloser hopener hcloser

theorem depth_placedPairs {ts : List Token} {p : PlacedPair} (hp : p ∈ placedPairs ts) :
    p.pair.depth = (placedPairs ts).countP fun q =>
      q.openerAt < p.openerAt && !q.closerAt.any fun k => k < p.openerAt := by
  have hclosers : (follow (numbered ts) []).closers = [] :=
    List.length_eq_zero_iff.mp (length_closers_follow (numbered ts) [])
  obtain ⟨p, hmem, rfl⟩ := List.mem_map.mp hp
  have hdepth := (isLaminar_numbered ts).depth p hmem
  rw [hclosers, List.countP_nil, Nat.zero_add] at hdepth
  rw [placedPairs, List.countP_map]
  refine hdepth.trans (List.countP_congr fun q _ => ?_)
  rw [Function.comp_apply, Option.any_map]
  rfl

theorem fits_placedPairs {ts : List Token} {p : PlacedPair} (hp : p ∈ placedPairs ts) {c : Token}
    (hc : c ∈ p.pair.closer) : Fits p.pair.opener c := by
  obtain ⟨p, hmem, rfl⟩ := List.mem_map.mp hp
  obtain ⟨c, hcmem, rfl⟩ := Option.map_eq_some_iff.mp hc
  have hfits := (fits_follow (numbered ts) []).2 p hmem c hcmem
  rwa [Fits, ← bracketSide?_original (opener_mem_of_mem_pairs hmem),
    ← bracketSide?_original (closer_mem_of_mem_pairs hmem hcmem)] at hfits

theorem pairwise_strayPlaces (ts : List Token) : (strayPlaces ts).Pairwise (· < ·) := by
  have h := (pairwise_start_numbered ts).sublist (strays_sublist (numbered ts))
  rw [strayPlaces, List.pairwise_map]
  rwa [List.pairwise_map] at h

/-- **Nestings.** In every list of tokens, each opener has one pair, in order, and each closer
    closes one pair or is astray once. A closer stands behind its opener and fits it, pairs are
    nested or disjoint, all that opens inside a pair is closed inside it, and the depth of a pair
    counts the brackets that are open where it opens. The openers and closers are the bracket
    tokens with one of the six texts (`Token.bracketSide?_eq_some_iff`). -/
theorem isNesting_ofTokens (ts : List Token) :
    IsNesting ts (ofTokens ts) (placedPairs ts) (strayPlaces ts) where
  toPlaced := placed_ofTokens ts
  openers := placedPairs_openerAt ts
  closers := closerAt_perm ts
  strays_sorted := pairwise_strayPlaces ts
  after p hp j hj := openerAt_lt_closerAt hp hj
  fits p hp c hc := fits_placedPairs hp hc
  nested := by
    intro p hp q hq hlt j hj k hk
    by_cases hqj : q.openerAt < j
    · obtain ⟨k', hk', hlt'⟩ := exists_closerAt_lt hp hq hlt hj hqj
      rw [Option.mem_unique hk hk']
      exact Or.inr hlt'
    · have hne := closerAt_ne_openerAt hp hq hj
      omega
  inside p hp q hq hlt j hj hqj := exists_closerAt_lt hp hq hlt hj hqj
  depth p hp := depth_placedPairs hp

end Matching

end ContractScan
