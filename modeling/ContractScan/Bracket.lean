import ContractScan.Token

/-
  Brackets and their nesting. Every opener waits for its closer; a closer that does not fit the
  innermost open bracket is astray and leaves the open brackets as they are.
-/

namespace ContractScan

/-- The three shapes of brackets. -/
inductive BracketShape where
  | brace
  | square
  | round
deriving DecidableEq

namespace BracketShape

/-- Every shape. -/
def all : List BracketShape := [brace, square, round]

/-- The text of the opening bracket. -/
def opener : BracketShape → String
  | brace => "\x7b"
  | square => "["
  | round => "("

/-- The text of the closing bracket. -/
def closer : BracketShape → String
  | brace => "\x7d"
  | square => "]"
  | round => ")"

theorem exists_iff {p : BracketShape → Prop} : (∃ b, p b) ↔ p brace ∨ p square ∨ p round := by
  constructor
  · rintro ⟨b, h⟩
    cases b with
    | brace => exact .inl h
    | square => exact .inr (.inl h)
    | round => exact .inr (.inr h)
  · rintro (h | h | h)
    all_goals exact ⟨_, h⟩

/-- The shape that a text opens. -/
def ofOpener? (s : String) : Option BracketShape := all.find? fun b => b.opener = s

/-- The shape that a text closes. -/
def ofCloser? (s : String) : Option BracketShape := all.find? fun b => b.closer = s

theorem opener_of_ofOpener? {s : String} {b : BracketShape} (h : ofOpener? s = some b) :
    b.opener = s := by
  unfold ofOpener? at h
  simpa using List.find?_some h

theorem closer_of_ofCloser? {s : String} {b : BracketShape} (h : ofCloser? s = some b) :
    b.closer = s := by
  unfold ofCloser? at h
  simpa using List.find?_some h

end BracketShape

/-- What a token does to the nesting. -/
inductive BracketSide where
  | opens (shape : BracketShape)
  | closes (shape : BracketShape)
deriving DecidableEq

/-- The text of a bracket. -/
def BracketSide.text : BracketSide → String
  | opens shape => shape.opener
  | closes shape => shape.closer

/-- The side and shape of a bracket token; nothing for any other token. -/
def Token.bracketSide? (t : Token) : Option BracketSide :=
  if t.kind = .bracket then
    match BracketShape.ofOpener? t.lexeme with
    | some shape => some (.opens shape)
    | none => (BracketShape.ofCloser? t.lexeme).map .closes
  else none

/-- The tokens with a side are the bracket tokens with the text of that side. -/
theorem Token.bracketSide?_eq_some_iff {t : Token} {side : BracketSide} :
    t.bracketSide? = some side ↔ t.kind = .bracket ∧ t.lexeme = side.text := by
  constructor
  · intro h
    unfold bracketSide? at h
    split at h
    · next hk =>
      refine ⟨hk, ?_⟩
      split at h
      · next shape ho =>
        rw [← Option.some.inj h]
        exact (BracketShape.opener_of_ofOpener? ho).symm
      · obtain ⟨shape, hc, rfl⟩ := Option.map_eq_some_iff.mp h
        exact (BracketShape.closer_of_ofCloser? hc).symm
    · cases h
  · rintro ⟨hk, h⟩
    rw [bracketSide?, if_pos hk, h]
    rcases side with ⟨⟨⟩⟩ | ⟨⟨⟩⟩ <;> decide

/-- An opening bracket, its closing bracket if it has one, and the number of brackets that were
open around it. -/
structure BracketPair where
  opener : Token
  closer : Option Token
  depth : Nat
deriving DecidableEq

/-- Whether a pair has both its brackets. -/
def BracketPair.isMatched (p : BracketPair) : Bool := p.closer.isSome

/-- A closing bracket without an opener of its own, and the innermost bracket open around it. -/
structure StrayCloser where
  closer : Token
  enclosing : Option Token
deriving DecidableEq

/-- The nesting of a list of tokens: every opener in order, and the closers that are astray. -/
structure Matching where
  pairs : List BracketPair
  strays : List StrayCloser
deriving DecidableEq

namespace Matching

/-- What the rest of a list of tokens does to the brackets open before it: their closers, from
the innermost to the outermost, and the nesting of the rest itself. -/
structure Outcome where
  closers : List (Option Token)
  pairs : List BracketPair
  strays : List StrayCloser

/-- The outcome with an opener in front of the tokens: the innermost answer is its own. -/
def Outcome.afterOpener (r : Outcome) (t : Token) (depth : Nat) : Outcome :=
  ⟨r.closers.drop 1, ⟨t, r.closers.head?.join, depth⟩ :: r.pairs, r.strays⟩

/-- The outcome with a closer of the innermost open bracket in front of the tokens. -/
def Outcome.afterCloser (r : Outcome) (t : Token) : Outcome :=
  ⟨some t :: r.closers, r.pairs, r.strays⟩

/-- The outcome with a stray closer in front of the tokens. -/
def Outcome.afterStray (r : Outcome) (s : StrayCloser) : Outcome :=
  ⟨r.closers, r.pairs, s :: r.strays⟩

/-- Follows the tokens with a stack of the open brackets, the innermost first. -/
def follow : List Token → List (Token × BracketShape) → Outcome
  | [], stack => ⟨stack.map fun _ => none, [], []⟩
  | t :: ts, stack =>
    match t.bracketSide? with
    | none => follow ts stack
    | some (.opens shape) => (follow ts ((t, shape) :: stack)).afterOpener t stack.length
    | some (.closes shape) =>
      match stack with
      | [] => (follow ts []).afterStray ⟨t, none⟩
      | (o, inner) :: outer =>
        if inner = shape then (follow ts outer).afterCloser t
        else (follow ts ((o, inner) :: outer)).afterStray ⟨t, some o⟩

/-- The nesting of a list of tokens. -/
def ofTokens (ts : List Token) : Matching := ⟨(follow ts []).pairs, (follow ts []).strays⟩

/-- The openers that nothing closes. -/
def unmatchedOpeners (m : Matching) : List BracketPair := m.pairs.filter fun p => !p.isMatched

/-- Whether every bracket has its partner. -/
def isBalanced (m : Matching) : Bool := m.strays.isEmpty && m.pairs.all BracketPair.isMatched

/-- Every open bracket gets one answer. -/
theorem length_closers_follow (ts : List Token) (stack : List (Token × BracketShape)) :
    (follow ts stack).closers.length = stack.length := by
  fun_induction follow ts stack <;>
    simp_all [Outcome.afterOpener, Outcome.afterCloser, Outcome.afterStray]

end Matching

end ContractScan
