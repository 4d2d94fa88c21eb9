import ContractScan.Proofs.Boundaries
import ContractScan.Proofs.Lookahead

/-
  String literals by a grammar. Between its quotes a literal is a row of items (`Items`): single
  characters, and backslashes with what they take with them. The grammar may look as if a text
  could be read in two ways, but items that stop where none can follow are the longest ones
  (`Items.length_le`), and the reader of literals walks over items whole
  (`literalBody_items_append`). Main statement: the token behind a quote is the closed literal
  that the text has there, and if it has none, the longest row of items (`literals_exact`).
-/

namespace ContractScan

open ContractScan.Text (isLineBreak isLineBreak_iff)

namespace Lexeme

/-! ## Items -/

/-- The items of a string literal in front of the rest of a text: a character that is no quote, no
backslash and no line break; a backslash with a carriage return and a line feed; and a backslash
with any other character, if these two do not follow it. -/
inductive Items (quote : Char) (rest : List Char) : List Char → Prop
  | nil : Items quote rest []
  | plain {c : Char} {w : List Char} (hquote : c ≠ quote) (hescape : c ≠ '\\')
      (hbreak : c ≠ '\r' ∧ c ≠ '\n') (h : Items quote rest w) : Items quote rest (c :: w)
  | escapedBreak {w : List Char} (h : Items quote rest w) :
      Items quote rest ('\\' :: '\r' :: '\n' :: w)
  | escaped {c : Char} {w : List Char} (hc : ¬ ['\r', '\n'] <+: c :: (w ++ rest))
      (h : Items quote rest w) : Items quote rest ('\\' :: c :: w)

/-- A text in front of which items stop: none can start there. -/
inductive StopsItems (quote : Char) : List Char → Prop
  | close (r : List Char) : StopsItems quote (quote :: r)
  | lineBreak {c : Char} (h : isLineBreak c) (r : List Char) : StopsItems quote (c :: r)
  | backslash : StopsItems quote ['\\']
  | nil : StopsItems quote []

/-- Items in front of others leave items. -/
theorem Items.of_append {quote : Char} {rest w v u : List Char} (hw : Items quote (v ++ rest) w)
    (h : Items quote rest u) (hu : u = w ++ v) : Items quote rest v := by
  induction hw generalizing u with
  | nil => rwa [hu] at h
  | plain _ hescape _ _ ih =>
    cases h with
    | nil => cases hu
    | plain _ _ _ h => exact ih h (List.cons.inj hu).2
    | escapedBreak h => exact absurd (List.cons.inj hu).1.symm hescape
    | escaped _ h => exact absurd (List.cons.inj hu).1.symm hescape
  | escapedBreak _ ih =>
    cases h with
    | nil => cases hu
    | plain _ hescape _ h => exact absurd (List.cons.inj hu).1 hescape
    | escapedBreak h => exact ih h (List.cons.inj (List.cons.inj (List.cons.inj hu).2).2).2
    | escaped hc h =>
      obtain ⟨rfl, rfl⟩ := List.cons.inj (List.cons.inj hu).2
      exact absurd ⟨_, rfl⟩ hc
  | @escaped c w hc _ ih =>
    cases h with
    | nil => cases hu
    | plain _ hescape _ h => exact absurd (List.cons.inj hu).1 hescape
    | @escapedBreak w' h =>
      obtain ⟨rfl, htail⟩ := List.cons.inj (List.cons.inj hu).2
      have htail : '\n' :: w' = w ++ v := htail
      rw [← List.append_assoc, ← htail] at hc
      exact absurd ⟨_, rfl⟩ hc
    | escaped _ h => exact ih h (List.cons.inj (List.cons.inj hu).2).2

theorem not_stopsItems_plain {quote c : Char} {r : List Char} (hquote : c ≠ quote)
    (hescape : c ≠ '\\') (hbreak : c ≠ '\r' ∧ c ≠ '\n') : ¬ StopsItems quote (c :: r) := by
  intro h
  cases h with
  | close => exact hquote rfl
  | lineBreak h => exact (isLineBreak_iff.mp h).elim hbreak.2 hbreak.1
  | backslash => exact hescape rfl

theorem not_stopsItems_escape {quote c : Char} {r : List Char} (hquote : quote ≠ '\\') :
    ¬ StopsItems quote ('\\' :: c :: r) := by
  intro h
  cases h with
  | close => exact hquote rfl
  | lineBreak h => cases h

/-- No items start where items stop. -/
theorem Items.eq_nil_of_stops {quote : Char} {rest w : List Char} (h : Items quote rest w)
    (hstop : StopsItems quote (w ++ rest)) (hquote : quote ≠ '\\') : w = [] := by
  cases h with
  | nil => rfl
  | plain hne hescape hbreak => exact absurd hstop (not_stopsItems_plain hne hescape hbreak)
  | escapedBreak => exact absurd hstop (not_stopsItems_escape hquote)
  | escaped => exact absurd hstop (not_stopsItems_escape hquote)

/-- Items that stop are the longest ones at the start of a text. -/
theorem Items.length_le {quote : Char} {rest rest' w v : List Char} (hv : Items quote rest' v)
    (hw : Items quote rest w) (hstop : StopsItems quote rest) (hquote : quote ≠ '\\')
    (h : v ++ rest' = w ++ rest) : v.length ≤ w.length := by
  rcases List.append_eq_append_iff.mp h with ⟨u, rfl, -⟩ | ⟨u, rfl, rfl⟩
  · rw [List.length_append]
    exact Nat.le_add_right _ _
  · rw [(hw.of_append hv rfl).eq_nil_of_stops hstop hquote, List.append_nil]

/-- Every text starts with items that stop. -/
theorem exists_items (quote : Char) (cs : List Char) :
    ∃ w rest, cs = w ++ rest ∧ Items quote rest w ∧ StopsItems quote rest := by
  fun_induction literalBody quote cs with
  | case1 => exact ⟨[], [], rfl, .nil, .nil⟩
  | case2 r ih =>
    obtain ⟨w, rest, rfl, hw, hstop⟩ := ih
    exact ⟨_, rest, rfl, .escapedBreak hw, hstop⟩
  | case3 c r hne ih =>
    obtain ⟨w, rest, rfl, hw, hstop⟩ := ih
    refine ⟨_, rest, rfl, .escaped ?_ hw, hstop⟩
    rintro ⟨s, hs⟩
    injection hs with hc hs
    exact hne s hc.symm hs.symm
  | case4 r => exact ⟨[], quote :: r, rfl, .nil, .close r⟩
  | case5 c r _ _ _ hbreak => exact ⟨[], c :: r, rfl, .nil, .lineBreak hbreak r⟩
  | case6 c r _ hlone hquote hbreak ih =>
    by_cases hescape : c = '\\'
    · rw [hescape, eq_nil_of_not_escape hlone hescape]
      exact ⟨[], ['\\'], rfl, .nil, .backslash⟩
    · obtain ⟨w, rest, rfl, hw, hstop⟩ := ih
      rw [isLineBreak_iff, not_or] at hbreak
      exact ⟨_, rest, rfl, .plain hquote hescape hbreak.symm hw, hstop⟩

/-! ## The reader -/

/-- The reader walks over items and goes on behind them. -/
theorem literalBody_items_append {quote : Char} {rest w : List Char} (h : Items quote rest w) :
    literalBody quote (w ++ rest) = (literalBody quote rest).after w := by
  induction h with
  | nil => rfl
  | @plain c w hquote hescape hbreak _ ih =>
    have hline : ¬ isLineBreak c := fun h => (isLineBreak_iff.mp h).elim hbreak.2 hbreak.1
    rw [List.cons_append, literalBody_cons quote fun hc => absurd hc hescape, if_neg hquote,
      if_neg hline, ih]
    rfl
  | escapedBreak _ ih =>
    rw [List.cons_append, List.cons_append, List.cons_append, literalBody, ih]
    rfl
  | @escaped c w hc _ ih =>
    have hpair : ∀ s, c = '\r' → w ++ rest ≠ '\n' :: s := by
      rintro s rfl hs
      rw [hs] at hc
      exact hc ⟨s, rfl⟩
    rw [List.cons_append, List.cons_append, literalBody_escape quote hpair, ih]
    rfl

/-- Whether a text starts with a closed string literal: items between two quotes. -/
def IsClosedLiteral (quote : Char) (cs w : List Char) : Prop :=
  ∃ items rest, w = quote :: (items ++ [quote]) ∧ cs = w ++ rest ∧
    Items quote (quote :: rest) items

/-- Whether a text starts with an open string literal: a quote and items. -/
def IsOpenLiteral (quote : Char) (cs w : List Char) : Prop :=
  ∃ items rest, w = quote :: items ∧ cs = w ++ rest ∧ Items quote rest items

theorem ne_backslash_of_isQuote {quote : Char} (h : isQuote quote) : quote ≠ '\\' := by
  rintro rfl
  cases h

/-- A closed literal is what the reader takes. -/
theorem literal_of_isClosedLiteral {quote : Char} (hquote : isQuote quote) {s w : List Char}
    (h : IsClosedLiteral quote (quote :: s) w) : literal quote s = ⟨.string, w⟩ := by
  obtain ⟨items, rest, rfl, hs, hitems⟩ := h
  have hclose : literalBody quote (quote :: rest) = ⟨[quote], true⟩ := by
    rw [literalBody_cons quote fun h => absurd h (ne_backslash_of_isQuote hquote), if_pos rfl]
  have hbody : literalBody quote s = ⟨items ++ [quote], true⟩ := by
    have hs : s = items ++ quote :: rest := by simpa using hs
    rw [hs, literalBody_items_append hitems, hclose]
    rfl
  rw [literal, hbody]
  rfl

theorem isLongestPrefix_openLiteral {quote : Char} (hquote : isQuote quote) {items rest : List Char}
    (hitems : Items quote rest items) (hstop : StopsItems quote rest) :
    IsLongestPrefix (IsOpenLiteral quote (quote :: (items ++ rest))) (quote :: items)
      (quote :: (items ++ rest)) where
  isPrefix := List.prefix_append (quote :: items) rest
  holds := ⟨items, rest, rfl, rfl, hitems⟩
  length_le := by
    rintro v - ⟨items', rest', rfl, hsplit, hitems'⟩
    exact Nat.succ_le_succ (hitems'.length_le hitems hstop (ne_backslash_of_isQuote hquote)
      (List.cons.inj hsplit).2.symm)

/-- Where items stop in front of no quote, the reader stops too, behind a last backslash. -/
theorem literalBody_of_stops {quote : Char} (hquote : isQuote quote) {rest : List Char}
    (hstop : StopsItems quote rest) (hopen : ∀ r, rest ≠ quote :: r) :
    literalBody quote rest = ⟨if rest = ['\\'] then ['\\'] else [], false⟩ ∧
      ∀ c ∈ (rest.drop (if rest = ['\\'] then ['\\'] else []).length).head?, isLineBreak c := by
  cases hstop with
  | close r => exact absurd rfl (hopen r)
  | @lineBreak c hbreak r =>
    have hescape : c ≠ '\\' := by
      rintro rfl
      cases hbreak
    rw [literalBody_cons quote fun h => absurd h hescape, if_neg fun h => hopen r (by rw [h]),
      if_pos hbreak, if_neg fun h => hescape (List.cons.inj h).1]
    exact ⟨rfl, fun x hx => Option.some.inj hx ▸ hbreak⟩
  | backslash =>
    rw [literalBody_cons quote fun _ => rfl, if_neg (ne_backslash_of_isQuote hquote).symm]
    exact ⟨rfl, nofun⟩
  | nil => exact ⟨rfl, nofun⟩

/-- Where no closed literal starts, the reader takes the longest open one, and a backslash with
which the text ends. -/
theorem literal_of_not_isClosedLiteral {quote : Char} (hquote : isQuote quote) {s : List Char}
    (h : ∀ w, ¬ IsClosedLiteral quote (quote :: s) w) :
    ∃ v, IsLongestPrefix (IsOpenLiteral quote (quote :: s)) v (quote :: s) ∧
      literal quote s =
        ⟨.invalidString, if quote :: s = v ++ ['\\'] then v ++ ['\\'] else v⟩ ∧
      ∀ c ∈ ((quote :: s).drop (literal quote s).chars.length).head?, isLineBreak c := by
  obtain ⟨items, rest, rfl, hitems, hstop⟩ := exists_items quote s
  refine ⟨quote :: items, isLongestPrefix_openLiteral hquote hitems hstop, ?_⟩
  have hopen : ∀ r, rest ≠ quote :: r := by
    rintro r rfl
    exact h _ ⟨items, r, rfl, by simp, hitems⟩
  obtain ⟨hbody, hbehind⟩ := literalBody_of_stops hquote hstop hopen
  have hlast : quote :: (items ++ rest) = quote :: items ++ ['\\'] ↔ rest = ['\\'] := by
    rw [List.cons_append, List.cons_inj_right, List.append_cancel_left_eq]
  have hliteral : literal quote (items ++ rest) =
      ⟨.invalidString, quote :: items ++ if rest = ['\\'] then ['\\'] else []⟩ := by
    rw [literal, literalBody_items_append hitems, hbody]
    rfl
  rw [hliteral]
  refine ⟨?_, ?_⟩
  · simp only [hlast]
    split
    · rfl
    · rw [List.append_nil]
  · rwa [List.length_append, ← List.drop_drop, ← List.cons_append, List.drop_left]

end Lexeme

open Lexeme

/-- **String literals.** Behind a quote at a boundary, a token is the closed string literal that
    the text has there, and there is one such literal at most. If there is none, then the token
    is no valid literal: it is the longest open one, with a backslash at the end of the text, and
    the line or the text ends behind it. -/
theorem literals_exact (text : String) (k : Nat) {quote : Char} {s : List Char}
    (hquote : quote = '"' ∨ quote = '\'') (hleft : leftOver text k = quote :: s) :
    (∀ w, IsClosedLiteral quote (quote :: s) w →
      (∀ v, IsClosedLiteral quote (quote :: s) v → v = w) ∧
      ∃ t ∈ (tokenize text)[k]?, t.kind = .string ∧ t.lexeme.toList = w) ∧
    ((∀ w, ¬ IsClosedLiteral quote (quote :: s) w) →
      ∃ t ∈ (tokenize text)[k]?, ∃ v, t.kind = .invalidString ∧
        IsLongestPrefix (IsOpenLiteral quote (quote :: s)) v (quote :: s) ∧
        t.lexeme.toList = (if quote :: s = v ++ ['\\'] then v ++ ['\\'] else v) ∧
        ∀ c ∈ (leftOver text (k + 1)).head?, c = '\r' ∨ c = '\n') := by
  have hquote : isQuote quote := isQuote_iff.mpr (by simpa [quotes] using hquote)
  obtain ⟨t, ht, hkind, hchars⟩ := exists_token_of_leftOver hleft
  have hnext := leftOver_succ hleft
  rw [first_of_isQuote hquote] at hkind hchars hnext
  refine ⟨fun w hw => ⟨fun v hv => ?_, ⟨t, ht, ?_⟩⟩, fun hnone => ?_⟩
  · have hsame := literal_of_isClosedLiteral hquote hw
    rw [literal_of_isClosedLiteral hquote hv] at hsame
    exact (Lexeme.mk.inj hsame).2
  · rw [hkind, hchars, literal_of_isClosedLiteral hquote hw]
    exact ⟨rfl, rfl⟩
  · obtain ⟨v, hv, hliteral, hbehind⟩ := literal_of_not_isClosedLiteral hquote hnone
    rw [← hnext] at hbehind
    rw [hliteral] at hkind hchars
    exact ⟨t, ht, v, hkind, hv, hchars, fun c hc => (isLineBreak_iff.mp (hbehind c hc)).symm⟩

/-- A closed literal with escapes, and an open one that ends in a backslash. -/
def escapes : String := "\"\\\r\n\\\"\" '\\"

theorem literals_exact_escapes :
    (leftOver escapes 0 = ['"', '\\', '\r', '\n', '\\', '"', '"', ' ', '\'', '\\'] ∧
      IsClosedLiteral '"' ['"', '\\', '\r', '\n', '\\', '"', '"', ' ', '\'', '\\']
        ['"', '\\', '\r', '\n', '\\', '"', '"'] ∧
      ∃ t ∈ (tokenize escapes)[0]?, t.kind = .string ∧
        t.lexeme.toList = ['"', '\\', '\r', '\n', '\\', '"', '"']) ∧
    leftOver escapes 2 = ['\'', '\\'] ∧ (∀ w, ¬ IsClosedLiteral '\'' ['\'', '\\'] w) ∧
      ∃ t ∈ (tokenize escapes)[2]?, ∃ v, t.kind = .invalidString ∧
        IsLongestPrefix (IsOpenLiteral '\'' ['\'', '\\']) v ['\'', '\\'] ∧
        t.lexeme.toList = (if ['\'', '\\'] = v ++ ['\\'] then v ++ ['\\'] else v) ∧
        ∀ c ∈ (leftOver escapes 3).head?, c = '\r' ∨ c = '\n' := by
  have hleft : leftOver escapes 0 =
      ['"', '\\', '\r', '\n', '\\', '"', '"', ' ', '\'', '\\'] := by decide +kernel
  have hclosed : IsClosedLiteral '"' ['"', '\\', '\r', '\n', '\\', '"', '"', ' ', '\'', '\\']
      ['"', '\\', '\r', '\n', '\\', '"', '"'] :=
    ⟨['\\', '\r', '\n', '\\', '"'], [' ', '\'', '\\'], rfl, rfl,
      .escapedBreak (.escaped (by decide) .nil)⟩
  have hleft' : leftOver escapes 2 = ['\'', '\\'] := by decide +kernel
  have hopen : ∀ w, ¬ IsClosedLiteral '\'' ['\'', '\\'] w := by
    intro w hw
    have hkind := congrArg Lexeme.kind (literal_of_isClosedLiteral rfl hw)
    cases hkind
  exact ⟨⟨hleft, hclosed, ((literals_exact escapes 0 (.inl rfl) hleft).1 _ hclosed).2⟩,
    hleft', hopen, (literals_exact escapes 2 (.inr rfl) hleft').2 hopen⟩

end ContractScan
