import ContractScan.Proofs.Tiling
import Mathlib.Data.List.TakeWhile

/-
  The boundaries between the tokens of a text. The first `k` tokens take a part of the text from
  its start (`charsOf_take_append_leftOver`), and what they leave of it settles all that comes
  behind them: the other tokens are those of what is left, counted on from there
  (`drop_tokensFrom`), so the next token is its first piece (`getElem?_tokenize`).

  A token of a class that has no end mark takes all it can. `IsLongestPrefix` says so of a
  property of texts, without the reader that does it.
-/

namespace ContractScan

open ContractScan.Text (byteLength byteLength_append)

/-! ## Boundaries -/

/-- The characters of tokens one after another. -/
def charsOf (ts : List Token) : List Char := ts.flatMap fun t => t.lexeme.toList

/-- What the first `k` tokens of a text leave of it; nothing where it has no more than `k`. -/
def leftOver (text : String) (k : Nat) : List Char :=
  text.toList.drop (charsOf ((tokenize text).take k)).length

theorem charsOf_append (ts us : List Token) : charsOf (ts ++ us) = charsOf ts ++ charsOf us :=
  List.flatMap_append

theorem charsOf_toToken_cons (l : Lexeme) (start byte : Nat) (ts : List Token) :
    charsOf (l.toToken start byte :: ts) = l.chars ++ charsOf ts := by
  rw [charsOf, List.flatMap_cons, Lexeme.toToken, String.toList_ofList]
  rfl

/-- The tokens behind the first `k` are those of what the first `k` leave. -/
theorem drop_tokensFrom (start byte : Nat) (cs : List Char) (k : Nat) :
    (tokensFrom start byte cs).drop k =
      tokensFrom (start + (charsOf ((tokensFrom start byte cs).take k)).length)
        (byte + byteLength (charsOf ((tokensFrom start byte cs).take k)))
        (cs.drop (charsOf ((tokensFrom start byte cs).take k)).length) := by
  induction k generalizing start byte cs with
  | zero => rfl
  | succ k ih =>
    cases cs with
    | nil => simp [tokensFrom_nil]
    | cons c r =>
      rw [tokensFrom_cons, List.drop_succ_cons, List.take_succ_cons, charsOf_toToken_cons,
        List.length_append, byteLength_append, ← Nat.add_assoc, ← Nat.add_assoc, ← List.drop_drop]
      exact ih _ _ _

theorem charsOf_take_append_leftOver (text : String) (k : Nat) :
    charsOf ((tokenize text).take k) ++ leftOver text k = text.toList := by
  have hall : charsOf ((tokenize text).take k ++ (tokenize text).drop k) = text.toList := by
    rw [List.take_append_drop]
    exact flatMap_tokensFrom 0 0 text.toList
  rw [charsOf_append] at hall
  rw [leftOver]
  conv_lhs => rw [← hall, List.drop_left]
  exact hall

/-- The token behind the first `k` is the first piece of what they leave. -/
theorem getElem?_tokenize {text : String} {k : Nat} {c : Char} {r : List Char}
    (h : leftOver text k = c :: r) :
    (tokenize text)[k]? = some ((Lexeme.first c r).toToken
      (charsOf ((tokenize text).take k)).length (byteLength (charsOf ((tokenize text).take k)))) := by
  have hdrop := drop_tokensFrom 0 0 text.toList k
  rw [← tokenize, ← leftOver, h, tokensFrom_cons, Nat.zero_add, Nat.zero_add] at hdrop
  rw [← List.head?_drop, hdrop, List.head?_cons]

theorem drop_tokenize (text : String) (k : Nat) :
    (tokenize text).drop k =
      tokensFrom (charsOf ((tokenize text).take k)).length
        (byteLength (charsOf ((tokenize text).take k))) (leftOver text k) := by
  have hdrop := drop_tokensFrom 0 0 text.toList k
  rwa [Nat.zero_add, Nat.zero_add] at hdrop

theorem leftOver_eq_nil_iff {text : String} {k : Nat} :
    leftOver text k = [] ↔ (tokenize text).length ≤ k := by
  rw [← List.drop_eq_nil_iff, drop_tokenize, tokensFrom_eq_nil]

theorem exists_token_of_leftOver {text : String} {k : Nat} {c : Char} {r : List Char}
    (h : leftOver text k = c :: r) :
    ∃ t, (tokenize text)[k]? = some t ∧ t.kind = (Lexeme.first c r).kind ∧
      t.lexeme.toList = (Lexeme.first c r).chars :=
  ⟨_, getElem?_tokenize h, rfl, String.toList_ofList⟩

theorem exists_first_of_getElem? {text : String} {k : Nat} {t : Token}
    (h : (tokenize text)[k]? = some t) :
    ∃ c r, leftOver text k = c :: r ∧ t.kind = (Lexeme.first c r).kind ∧
      t.lexeme.toList = (Lexeme.first c r).chars := by
  cases hleft : leftOver text k with
  | nil =>
    have hdrop := drop_tokensFrom 0 0 text.toList k
    rw [← tokenize, ← leftOver, hleft, tokensFrom_nil] at hdrop
    rw [← List.head?_drop, hdrop] at h
    cases h
  | cons c r =>
    rw [getElem?_tokenize hleft, Option.some.injEq] at h
    subst h
    exact ⟨c, r, rfl, rfl, String.toList_ofList⟩

/-- A token of some kind stands behind a boundary exactly where the first piece there is of that
kind. -/
theorem exists_kind_tokenize_iff {text : String} {k : Nat} {P : TokenKind → Prop} :
    (∃ t ∈ (tokenize text)[k]?, P t.kind) ↔
      ∃ c r, leftOver text k = c :: r ∧ P (Lexeme.first c r).kind := by
  constructor
  · intro h
    obtain ⟨t, ht, hkind⟩ := h
    obtain ⟨c, r, hleft, hfirst, -⟩ := exists_first_of_getElem? ht
    rw [hfirst] at hkind
    exact ⟨c, r, hleft, hkind⟩
  · intro h
    obtain ⟨c, r, hleft, hkind⟩ := h
    obtain ⟨t, ht, hfirst, -⟩ := exists_token_of_leftOver hleft
    rw [← hfirst] at hkind
    exact ⟨t, ht, hkind⟩

/-- One more token takes the first piece of what was left. -/
theorem leftOver_succ {text : String} {k : Nat} {c : Char} {r : List Char}
    (h : leftOver text k = c :: r) :
    leftOver text (k + 1) = (c :: r).drop (Lexeme.first c r).chars.length := by
  rw [leftOver, List.take_add_one, getElem?_tokenize h, Option.toList_some, charsOf_append,
    charsOf_toToken_cons, List.length_append, ← List.drop_drop, ← leftOver, h]
  simp [charsOf]

/-! ## Longest prefixes -/

/-- A prefix of a text with a property, at least as long as every other one. -/
structure IsLongestPrefix (P : List Char → Prop) (w cs : List Char) : Prop where
  isPrefix : w <+: cs
  holds : P w
  length_le : ∀ v, v <+: cs → P v → v.length ≤ w.length

theorem IsLongestPrefix.congr {P Q : List Char → Prop} {w cs : List Char}
    (h : IsLongestPrefix P w cs) (hiff : ∀ v, P v ↔ Q v) : IsLongestPrefix Q w cs where
  isPrefix := h.isPrefix
  holds := (hiff w).mp h.holds
  length_le := fun v hv hQ => h.length_le v hv ((hiff v).mpr hQ)

/-- The characters of a class at the start of a text. -/
theorem isLongestPrefix_takeWhile (p : Char → Bool) (cs : List Char) :
    IsLongestPrefix (fun w => ∀ c ∈ w, p c) (cs.takeWhile p) cs where
  isPrefix := List.takeWhile_prefix p
  holds := fun _ hc => List.mem_takeWhile_imp hc
  length_le := by
    intro v hv hclass
    obtain ⟨t, rfl⟩ := hv
    rw [List.takeWhile_append_of_pos hclass, List.length_append]
    exact Nat.le_add_right _ _

end ContractScan
