import ContractScan.Proofs.Nesting

/-
  Well-nested brackets. `WellNested` is the grammar: nothing, one well-nested word after another,
  or a pair of brackets of one shape around a well-nested word. A nesting is balanced exactly
  when the brackets of its tokens spell a word of this grammar (`isBalanced_iff`).

  Between the two stands `ClosesAll`, which reads a word with a stack of the shapes still open. A
  well-nested word passes through it without a trace (`WellNested.closesAll_append`), and a word
  that closes a stack is cut at the closers of the stack into well-nested parts
  (`parts_of_closesAll`).
-/

namespace ContractScan

/-! ## The grammar -/

/-- Words of brackets in which every bracket has its partner. -/
inductive WellNested : List BracketSide → Prop
  | nil : WellNested []
  | append {v w : List BracketSide} (hv : WellNested v) (hw : WellNested w) : WellNested (v ++ w)
  | enclose {w : List BracketSide} (shape : BracketShape) (hw : WellNested w) :
      WellNested (.opens shape :: (w ++ [.closes shape]))

/-- Whether texts are the brackets of a well-nested word. -/
def SpellsWellNested (texts : List String) : Prop :=
  ∃ w, WellNested w ∧ w.map BracketSide.text = texts

theorem BracketSide.text_injective : Function.Injective BracketSide.text := by
  intro a b h
  revert h
  rcases a with ⟨⟨⟩⟩ | ⟨⟨⟩⟩ <;> rcases b with ⟨⟨⟩⟩ | ⟨⟨⟩⟩ <;> decide

theorem spellsWellNested_map {w : List BracketSide} :
    SpellsWellNested (w.map BracketSide.text) ↔ WellNested w := by
  constructor
  · rintro ⟨v, hv, h⟩
    rwa [← BracketSide.text_injective.list_map h]
  · exact fun h => ⟨w, h, rfl⟩

/-! ## Reading a word -/

/-- Whether a word closes the open brackets of a stack, the innermost first, and all of its own. -/
def ClosesAll : List BracketSide → List BracketShape → Prop
  | [], stack => stack = []
  | .opens shape :: w, stack => ClosesAll w (shape :: stack)
  | .closes _ :: _, [] => False
  | .closes shape :: w, inner :: outer => inner = shape ∧ ClosesAll w outer

theorem WellNested.closesAll_append {v : List BracketSide} (h : WellNested v)
    {w : List BracketSide} {stack : List BracketShape} :
    ClosesAll (v ++ w) stack ↔ ClosesAll w stack := by
  induction h generalizing w stack with
  | nil => exact Iff.rfl
  | append _ _ ihv ihw => rw [List.append_assoc, ihv, ihw]
  | enclose shape _ ih =>
    rw [List.cons_append, List.append_assoc, ClosesAll, ih, List.singleton_append, ClosesAll,
      and_iff_right rfl]

/-- The parts of a word between the closers of a stack, well-nested each. -/
inductive Parts : List BracketSide → List BracketShape → Prop
  | last {w : List BracketSide} (hw : WellNested w) : Parts w []
  | closes {v w : List BracketSide} {stack : List BracketShape} (shape : BracketShape)
      (hv : WellNested v) (hw : Parts w stack) : Parts (v ++ .closes shape :: w) (shape :: stack)

theorem Parts.prepend {u w : List BracketSide} {stack : List BracketShape} (hu : WellNested u)
    (h : Parts w stack) : Parts (u ++ w) stack := by
  cases h with
  | last hw => exact .last (.append hu hw)
  | closes shape hv hw =>
    rw [← List.append_assoc]
    exact .closes shape (.append hu hv) hw

theorem parts_of_closesAll {w : List BracketSide} {stack : List BracketShape}
    (h : ClosesAll w stack) : Parts w stack := by
  fun_induction ClosesAll w stack with
  | case1 stack => rw [h]; exact .last .nil
  | case2 shape w stack ih =>
    -- The new bracket is closed at the end of the first part.
    cases ih h with
    | @closes v w _ _ hv hw =>
      have := hw.prepend (hv.enclose shape)
      rwa [List.cons_append, List.append_assoc, List.singleton_append] at this
  | case3 => exact h.elim
  | case4 shape w inner outer ih =>
    obtain ⟨rfl, h⟩ := h
    exact .closes inner .nil (ih h)

theorem wellNested_iff_closesAll {w : List BracketSide} : WellNested w ↔ ClosesAll w [] := by
  constructor
  · intro h
    rw [← List.append_nil w, h.closesAll_append]
    rfl
  · intro h
    cases parts_of_closesAll h with
    | last hw => exact hw

/-! ## Nestings -/

namespace Matching

/-- Whether an outcome answers every open bracket, and leaves over no bracket of its own. -/
def Outcome.isClean (r : Outcome) : Bool :=
  r.strays.isEmpty && (r.closers.all Option.isSome && r.pairs.all BracketPair.isMatched)

theorem isClean_follow_iff (ts : List Token) (stack : List (Token × BracketShape)) :
    (follow ts stack).isClean ↔
      ClosesAll (ts.filterMap Token.bracketSide?) (stack.map Prod.snd) := by
  fun_induction follow ts stack with
  | case1 stack => cases stack <;> simp [Outcome.isClean, ClosesAll]
  | case2 t ts stack hside ih => rw [ih, List.filterMap_cons_none hside]
  | case3 t ts stack shape hside ih =>
    rw [List.filterMap_cons_some hside, ClosesAll]
    refine Iff.trans ?_ ih
    -- The answer to the new bracket moves from the answers to its pair.
    have hlen := length_closers_follow ts ((t, shape) :: stack)
    generalize follow ts ((t, shape) :: stack) = r at hlen
    obtain ⟨answer, closers, hcs⟩ := List.exists_cons_of_length_eq_add_one hlen
    cases answer <;> simp [Outcome.isClean, Outcome.afterOpener, BracketPair.isMatched, hcs]
  | case4 t ts shape hside ih =>
    rw [List.filterMap_cons_some hside]
    simp [Outcome.isClean, Outcome.afterStray, ClosesAll]
  | case5 t ts o shape outer hside ih =>
    rw [List.filterMap_cons_some hside, List.map_cons, ClosesAll, and_iff_right rfl, ← ih]
    simp [Outcome.isClean, Outcome.afterCloser]
  | case6 t ts shape hside o inner outer hne ih =>
    rw [List.filterMap_cons_some hside, List.map_cons, ClosesAll]
    simp [Outcome.isClean, Outcome.afterStray, hne]

theorem isBalanced_iff (ts : List Token) :
    (ofTokens ts).isBalanced ↔ WellNested (ts.filterMap Token.bracketSide?) := by
  have h : (follow ts []).isClean ↔ ClosesAll (ts.filterMap Token.bracketSide?) [] :=
    isClean_follow_iff ts []
  have hcs : (follow ts []).closers = [] := List.length_eq_zero_iff.mp (length_closers_follow ts [])
  rw [wellNested_iff_closesAll, ← h, Outcome.isClean, hcs]
  rfl

end Matching

end ContractScan
