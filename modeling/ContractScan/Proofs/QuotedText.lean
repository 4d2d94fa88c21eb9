import ContractScan.Text.Digits
import ContractScan.Text.Quoted
import ContractScan.Text.Taken
import Mathlib.Tactic.Basic

/-
  Quoted text read back. `decode` undoes the escapes of a quoted text up to its closing quote, and
  gives back the text and what follows (`decode_encode_append`). It does so for every text, so no
  two texts are quoted alike, and what follows a quoted text cannot be taken for a part of it.

  The reading takes one character at a time and remembers how far it is in an escape. An escaped
  character takes it back to where it was, with that character read (`decodeFrom_escape`).
-/

namespace ContractScan.Text.Quoted

/-! ## Reading -/

/-- How far the reading is in an escape: in none, behind the backslash, behind the letter of a code
point, or among its digits, with the value of those that were read. -/
inductive EscapeState where
  | plain
  | slash
  | letter
  | digits (value : Nat)

/-- The character that a character behind a backslash stands for. -/
def unescape? (c : Char) : Option Char :=
  if c = '"' ∨ c = '\\' then some c
  else if c = '0' then some '\x00'
  else if c = 't' then some '\t'
  else if c = 'n' then some '\n'
  else if c = 'r' then some '\r'
  else none

/-- The text up to the closing quote, and what follows that. -/
def decodeFrom : EscapeState → List Char → Taken
  | _, [] => none
  | .plain, c :: r =>
    if c = '"' then some ([], r)
    else if c = '\\' then decodeFrom .slash r
    else consChar c (decodeFrom .plain r)
  | .slash, c :: r =>
    if c = 'u' then decodeFrom .letter r
    else (unescape? c).bind fun x => consChar x (decodeFrom .plain r)
  | .letter, c :: r => if c = '\x7b' then decodeFrom (.digits 0) r else none
  | .digits n, c :: r =>
    if c = '\x7d' then consChar (Char.ofNat n) (decodeFrom .plain r)
    else (hexValue? c).bind fun d => decodeFrom (.digits (n * 16 + d)) r

/-- The text of a quoted text, and what follows the closing quote. -/
def decode : List Char → Taken
  | '"' :: r => decodeFrom .plain r
  | _ => none

/-! ## Escapes -/

theorem hexValue?_hexDigit {n : Nat} (h : n < 16) : hexValue? (hexDigit n) = some n := by
  have hall : ∀ n < 16, hexValue? (hexDigit n) = some n := by decide
  exact hall n h

theorem hexDigit_ne_brace {n : Nat} (h : n < 16) : hexDigit n ≠ '\x7d' := by
  have hall : ∀ n < 16, hexDigit n ≠ '\x7d' := by decide
  exact hall n h

theorem decodeFrom_hexDigit {d : Nat} (h : d < 16) (n : Nat) (r : List Char) :
    decodeFrom (.digits n) (hexDigit d :: r) = decodeFrom (.digits (n * 16 + d)) r := by
  rw [decodeFrom, if_neg (hexDigit_ne_brace h), hexValue?_hexDigit h]
  rfl

/-- The digits of a number are read as the number. -/
theorem decodeFrom_hex (n : Nat) (r : List Char) :
    decodeFrom (.digits 0) (hex n ++ r) = decodeFrom (.digits n) r := by
  induction n using hex.induct generalizing r with
  | case1 n hn =>
    rw [hex, if_pos hn, List.singleton_append, decodeFrom_hexDigit hn, Nat.zero_mul, Nat.zero_add]
  | case2 n hn ih =>
    rw [hex, if_neg hn, List.append_assoc, ih, List.singleton_append,
      decodeFrom_hexDigit (Nat.mod_lt n (by decide)), Nat.div_add_mod']

theorem decodeFrom_short {e c : Char} (he : e ≠ 'u') (hc : unescape? e = some c) (r : List Char) :
    decodeFrom .plain ('\\' :: e :: r) = consChar c (decodeFrom .plain r) := by
  rw [decodeFrom, if_neg (by decide), if_pos rfl, decodeFrom, if_neg he, hc]
  rfl

/-- An escape is read as the character that it stands for. -/
theorem decodeFrom_escape (c : Char) (r : List Char) :
    decodeFrom .plain (escape c ++ r) = consChar c (decodeFrom .plain r) := by
  unfold escape
  split
  · next h => subst h; exact decodeFrom_short (by decide) (by decide) r
  split
  · next h => subst h; exact decodeFrom_short (by decide) (by decide) r
  split
  · next h => subst h; exact decodeFrom_short (by decide) (by decide) r
  split
  · next h => subst h; exact decodeFrom_short (by decide) (by decide) r
  split
  · next h => subst h; exact decodeFrom_short (by decide) (by decide) r
  split
  · next h => subst h; exact decodeFrom_short (by decide) (by decide) r
  next hquote hslash _ _ _ _ =>
  split
  · -- A hidden character is written by its code point.
    have hcode : decodeFrom .plain ('\\' :: 'u' :: '\x7b' :: (hex c.toNat ++ '\x7d' :: r)) =
        decodeFrom (.digits 0) (hex c.toNat ++ '\x7d' :: r) := by
      simp [decodeFrom]
    rw [List.append_assoc, List.cons_append, List.cons_append, List.cons_append,
      List.singleton_append, hcode, decodeFrom_hex, decodeFrom, if_pos rfl, Char.ofNat_toNat]
  · rw [List.singleton_append, decodeFrom, if_neg hquote, if_neg hslash]

/-! ## Texts -/

theorem decodeFrom_escapeAll (cs r : List Char) :
    decodeFrom .plain (escapeAll cs ++ '"' :: r) = some (cs, r) := by
  induction cs with
  | nil =>
    show decodeFrom .plain ('"' :: r) = _
    rw [decodeFrom, if_pos rfl]
  | cons c cs ih =>
    rw [escapeAll, List.flatMap_cons, List.append_assoc, decodeFrom_escape, ← escapeAll, ih]
    rfl

/-- Quoted text is read back, whatever follows it. -/
theorem decode_encode_append (s : String) (r : List Char) :
    decode ((encode s).toList ++ r) = some (s.toList, r) := by
  rw [encode, String.toList_ofList, List.cons_append, List.cons_append, List.append_assoc,
    List.singleton_append]
  exact decodeFrom_escapeAll s.toList r

end ContractScan.Text.Quoted
