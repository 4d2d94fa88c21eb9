import ContractScan.Proofs.Boundaries
import ContractScan.Proofs.Separation
import ContractScan.Reader

/-
  Readers, asked for one token after another. A reader between two tokens is told by the number of
  tokens behind it (`Reader.behind`): whatever it was inside of, it has left, and it is where the
  last token ends. Asking it takes it over one token more, or leaves it at the end of the text
  (`ask_behind`), and so what a row of asks shows is known at once (`readings_exact`).

  A reader remembers nothing of the tokens behind it but how far they go: what is left of a text,
  taken by itself, has the same tokens, and a fresh reader of it shows the same as the one that
  comes from the start (`tokenize_leftOver`).
-/

namespace ContractScan

open ContractScan.Text (byteLength byteLength_append)

/-! ## Where tokens end -/

/-- The character at which the first `k` tokens of a text end. -/
def stopChar (text : String) (k : Nat) : Nat :=
  ((tokenize text).take k).getLast?.elim 0 Token.stop

/-- The byte at which the first `k` tokens of a text end. -/
def stopByte (text : String) (k : Nat) : Nat :=
  ((tokenize text).take k).getLast?.elim 0 fun t => t.span.stop

theorem take_succ_of_nil {text : String} {k : Nat} (h : leftOver text k = []) :
    (tokenize text).take (k + 1) = (tokenize text).take k := by
  have hlen := leftOver_eq_nil_iff.mp h
  rw [List.take_of_length_le hlen, List.take_of_length_le (Nat.le_succ_of_le hlen)]

theorem take_succ_of_cons {text : String} {k : Nat} {c : Char} {r : List Char}
    (h : leftOver text k = c :: r) :
    (tokenize text).take (k + 1) = (tokenize text).take k ++ [(Lexeme.first c r).toToken
      (charsOf ((tokenize text).take k)).length
      (byteLength (charsOf ((tokenize text).take k)))] := by
  rw [List.take_add_one, getElem?_tokenize h, Option.toList_some]

theorem charsOf_take_succ {text : String} {k : Nat} {c : Char} {r : List Char}
    (h : leftOver text k = c :: r) : charsOf ((tokenize text).take (k + 1)) =
      charsOf ((tokenize text).take k) ++ (Lexeme.first c r).chars := by
  rw [take_succ_of_cons h, charsOf_append, charsOf_toToken_cons]
  exact congrArg _ (List.append_nil _)

/-- Tokens end where their characters end. -/
theorem stops_eq (text : String) (k : Nat) :
    stopChar text k = (charsOf ((tokenize text).take k)).length ∧
      stopByte text k = byteLength (charsOf ((tokenize text).take k)) := by
  induction k with
  | zero => exact ⟨rfl, rfl⟩
  | succ k ih =>
    cases hleft : leftOver text k with
    | nil =>
      rw [stopChar, stopByte, take_succ_of_nil hleft]
      exact ih
    | cons c r =>
      rw [charsOf_take_succ hleft, List.length_append, byteLength_append, stopChar, stopByte,
        take_succ_of_cons hleft, List.getLast?_concat]
      exact ⟨Lexeme.stop_toToken _ _ _, rfl⟩

/-- One more token moves the end on by its piece. -/
theorem stops_succ {text : String} {k : Nat} {c : Char} {r : List Char}
    (h : leftOver text k = c :: r) :
    stopChar text (k + 1) = stopChar text k + (Lexeme.first c r).chars.length ∧
      stopByte text (k + 1) = stopByte text k + byteLength (Lexeme.first c r).chars := by
  obtain ⟨hchar, hbyte⟩ := stops_eq text k
  obtain ⟨hchar', hbyte'⟩ := stops_eq text (k + 1)
  rw [hchar, hchar', hbyte, hbyte', charsOf_take_succ h]
  exact ⟨List.length_append, byteLength_append _ _⟩

theorem drop_stopChar (text : String) (k : Nat) :
    text.toList.drop (stopChar text k) = leftOver text k := by
  rw [(stops_eq text k).1, leftOver]

theorem stopByte_add_byteLength (text : String) (k : Nat) :
    stopByte text k + byteLength (leftOver text k) = text.utf8ByteSize := by
  rw [(stops_eq text k).2, ← byteLength_append, charsOf_take_append_leftOver,
    ← utf8ByteSize_ofList, String.ofList_toList]

/-! ## One ask -/

/-- The mark that opens a mode starts a piece, and the mode gives the rest of it. -/
theorem Mode.first_of_opened? {c : Char} {r mark : List Char} {mode : Mode}
    (h : Mode.opened? (c :: r) = some (mode, mark)) :
    ∃ s, c :: r = mark ++ s ∧ mark ≠ [] ∧
      Lexeme.first c r = ⟨(mode.rest s).kind, mark ++ (mode.rest s).chars⟩ := by
  unfold Mode.opened? at h
  split at h
  · next s heq =>
    cases heq
    cases h
    exact ⟨r, rfl, List.cons_ne_nil _ _, Lexeme.first_of_isQuote rfl r⟩
  · next s heq =>
    cases heq
    cases h
    exact ⟨r, rfl, List.cons_ne_nil _ _, Lexeme.first_of_isQuote rfl r⟩
  · next s heq =>
    cases heq
    cases h
    exact ⟨s, rfl, List.cons_ne_nil _ _, Lexeme.first_slash_star s⟩
  · cases h

namespace Reader

theorem enter_of_eq_none {cs : List Char} (h : Mode.opened? cs = none) (start byte : Nat) :
    (⟨.root, [], cs, start, byte⟩ : Reader).enter = ⟨.root, [], cs, start, byte⟩ := by
  simp only [enter, h]

theorem enter_of_eq_some {cs mark : List Char} {mode : Mode}
    (h : Mode.opened? cs = some (mode, mark)) (start byte : Nat) :
    (⟨.root, [], cs, start, byte⟩ : Reader).enter =
      ⟨mode, mark, cs.drop mark.length, start, byte⟩ := by
  simp only [enter, h]

/-- At the top level the next token is the first piece of what is ahead, whatever modes it takes
the reader through. -/
theorem next_root (c : Char) (r : List Char) (start byte : Nat) :
    (⟨.root, [], c :: r, start, byte⟩ : Reader).next =
      some ((Lexeme.first c r).toToken start byte,
        ⟨.root, [], (c :: r).drop (Lexeme.first c r).chars.length,
          start + (Lexeme.first c r).chars.length,
          byte + byteLength (Lexeme.first c r).chars⟩) := by
  cases hopened : Mode.opened? (c :: r) with
  | none =>
    rw [next, enter_of_eq_none hopened, if_neg fun h => List.cons_ne_nil c r h.2]
    rfl
  | some p =>
    obtain ⟨mode, mark⟩ := p
    obtain ⟨s, hs, hne, hfirst⟩ := Mode.first_of_opened? hopened
    rw [next, enter_of_eq_some hopened, if_neg fun h => hne h.1, finish, hfirst, hs,
      List.drop_left, List.length_append, List.drop_length_add_append]

theorem next_nil (start byte : Nat) : (⟨.root, [], [], start, byte⟩ : Reader).next = none := rfl

/-- The reader behind the first `k` tokens of a text. -/
def behind (text : String) (k : Nat) : Reader :=
  ⟨.root, [], leftOver text k, stopChar text k, stopByte text k⟩

theorem ofText_eq_behind (text : String) : ofText text = behind text 0 := rfl

/-- Asked for a token, a reader goes over one token more, or stays at the end of the text. -/
theorem ask_behind (text : String) (k : Nat) :
    (behind text k).ask =
      (⟨(tokenize text)[k]?, .root, stopByte text (k + 1)⟩, behind text (k + 1)) := by
  cases hleft : leftOver text k with
  | nil =>
    have htoken : (tokenize text)[k]? = none := List.getElem?_eq_none (leftOver_eq_nil_iff.mp hleft)
    have hstay : behind text (k + 1) = behind text k := by
      rw [behind, behind, leftOver, leftOver, stopChar, stopChar, stopByte, stopByte,
        take_succ_of_nil hleft]
    have hstop : stopByte text (k + 1) = stopByte text k := congrArg Reader.byte hstay
    rw [htoken, hstay, hstop, ask, behind, hleft, next_nil]
    rfl
  | cons c r =>
    have htoken : (tokenize text)[k]? =
        some ((Lexeme.first c r).toToken (stopChar text k) (stopByte text k)) := by
      rw [getElem?_tokenize hleft, (stops_eq text k).1, (stops_eq text k).2]
    have hgoes : behind text (k + 1) =
        ⟨.root, [], (c :: r).drop (Lexeme.first c r).chars.length,
          stopChar text k + (Lexeme.first c r).chars.length,
          stopByte text k + byteLength (Lexeme.first c r).chars⟩ := by
      rw [behind, leftOver_succ hleft, (stops_succ hleft).1, (stops_succ hleft).2]
    rw [htoken, hgoes, (stops_succ hleft).2, ask, behind, hleft, next_root]
    rfl

/-! ## Asking again and again -/

theorem readings_behind (text : String) (n k : Nat) :
    (behind text k).readings n = (List.range' k n).map fun i =>
      ⟨(tokenize text)[i]?, .root, stopByte text (i + 1)⟩ := by
  induction n generalizing k with
  | zero => rfl
  | succ n ih => rw [readings, ask_behind, ih, List.range'_succ, List.map_cons]

/-! ## Readers that start further on -/

/-- A reader further on in a text. -/
def shift (chars bytes : Nat) (s : Reader) : Reader :=
  ⟨s.mode, s.mark, s.ahead, s.start + chars, s.byte + bytes⟩

theorem offset_shift (chars bytes : Nat) (s : Reader) :
    (s.shift chars bytes).offset = s.offset + bytes :=
  Nat.add_right_comm _ _ _

theorem enter_shift (chars bytes : Nat) (s : Reader) :
    (s.shift chars bytes).enter = s.enter.shift chars bytes := by
  unfold enter shift
  dsimp only
  split
  · rfl
  · rfl

theorem finish_shift (chars bytes : Nat) (s : Reader) :
    (s.shift chars bytes).finish =
      (s.finish.1.shift chars bytes, s.finish.2.shift chars bytes) := by
  rw [finish, finish, shift_toToken, shift, shift]
  dsimp only
  rw [Nat.add_right_comm s.start, Nat.add_right_comm s.byte]

theorem next_shift (chars bytes : Nat) (s : Reader) :
    (s.shift chars bytes).next =
      s.next.map fun p => (p.1.shift chars bytes, p.2.shift chars bytes) := by
  rw [next, next, enter_shift, finish_shift, shift]
  dsimp only
  split
  · rfl
  · rfl

end Reader

/-- What is seen of a reader further on in a text. -/
def Reading.shift (chars bytes : Nat) (x : Reading) : Reading :=
  ⟨x.token.map (Token.shift chars bytes), x.mode, x.offset + bytes⟩

namespace Reader

theorem ask_shift (chars bytes : Nat) (s : Reader) :
    (s.shift chars bytes).ask = (s.ask.1.shift chars bytes, s.ask.2.shift chars bytes) := by
  rw [ask, ask, next_shift]
  cases s.next with
  | none =>
    rw [Option.map_none, offset_shift]
    rfl
  | some p =>
    rw [Option.map_some]
    dsimp only
    rw [offset_shift]
    rfl

theorem readings_shift (chars bytes n : Nat) (s : Reader) :
    (s.shift chars bytes).readings n = (s.readings n).map (Reading.shift chars bytes) := by
  induction n generalizing s with
  | zero => rfl
  | succ n ih => rw [readings, readings, ask_shift, ih, List.map_cons]

/-- A reader in a text is a fresh one of what is left, moved there. -/
theorem behind_eq_shift (text : String) (k : Nat) :
    behind text k = (ofText (String.ofList (leftOver text k))).shift (stopChar text k)
      (stopByte text k) := by
  rw [behind, ofText, shift, String.toList_ofList, Nat.zero_add, Nat.zero_add]

theorem drop_readings (text : String) (k n : Nat) :
    ((ofText text).readings (k + n)).drop k = (behind text k).readings n := by
  rw [ofText_eq_behind, readings_behind, readings_behind, ← List.map_drop, List.drop_range',
    Nat.add_sub_cancel_left, Nat.zero_add, Nat.mul_one]

end Reader

/-! ## Asking a fresh reader -/

/-- Looking up one element after another, also where there is none. -/
theorem map_getElem?_range' {α : Type} (l : List α) (n : Nat) :
    (List.range' 0 n).map (fun i => l[i]?) =
      (l.take n).map some ++ List.replicate (n - l.length) none := by
  induction n with
  | zero =>
    rw [List.take_zero, Nat.zero_sub]
    rfl
  | succ n ih =>
    rw [List.range'_concat, Nat.zero_add, Nat.one_mul, List.map_append, ih, List.take_add_one,
      List.map_append, List.append_assoc, List.append_assoc, List.append_cancel_left_eq]
    cases hget : l[n]? with
    | none =>
      have hlen := List.getElem?_eq_none_iff.mp hget
      rw [Nat.succ_sub hlen, List.replicate_succ', List.map_singleton, hget]
      rfl
    | some a =>
      obtain ⟨hlt, -⟩ := List.getElem?_eq_some_iff.mp hget
      rw [Nat.sub_eq_zero_of_le (Nat.le_of_lt hlt), Nat.sub_eq_zero_of_le hlt, List.map_singleton,
        hget]
      rfl

theorem stopByte_succ_of_eq_none {text : String} {i : Nat} (h : (tokenize text)[i]? = none) :
    stopByte text (i + 1) = text.utf8ByteSize := by
  have hlen := List.getElem?_eq_none_iff.mp h
  have hall := stopByte_add_byteLength text (i + 1)
  rwa [leftOver_eq_nil_iff.mpr (Nat.le_succ_of_le hlen)] at hall

/-- **Readings.** Asked `n` times, a fresh reader gives the first `n` tokens of the text and then
    nothing. After each ask it is at the top level, and its offset is where the last token that
    it gave ends; once it gives nothing, that is the end of the text. -/
theorem readings_exact (text : String) (n : Nat) :
    ((Reader.ofText text).readings n).map Reading.token =
      ((tokenize text).take n).map some ++ List.replicate (n - (tokenize text).length) none ∧
    (∀ x ∈ (Reader.ofText text).readings n, x.mode = .root) ∧
    (∀ i, ∀ x ∈ ((Reader.ofText text).readings n)[i]?, x.offset = stopByte text (i + 1)) ∧
    ∀ x ∈ (Reader.ofText text).readings n, x.token = none → x.offset = text.utf8ByteSize := by
  rw [Reader.ofText_eq_behind, Reader.readings_behind]
  refine ⟨?_, fun x hx => ?_, fun i x hx => ?_, fun x hx htoken => ?_⟩
  · rw [List.map_map]
    exact map_getElem?_range' (tokenize text) n
  · obtain ⟨i, -, rfl⟩ := List.mem_map.mp hx
    rfl
  · rw [List.getElem?_map] at hx
    obtain ⟨j, hj, rfl⟩ := Option.map_eq_some_iff.mp hx
    obtain ⟨hlt, hj⟩ := List.getElem?_eq_some_iff.mp hj
    rw [List.getElem_range', Nat.zero_add, Nat.one_mul] at hj
    rw [hj]
  · obtain ⟨i, -, rfl⟩ := List.mem_map.mp hx
    exact stopByte_succ_of_eq_none htoken

/-- At the end of the text a reader stays where an open comment has left it. -/
example : ((Reader.ofText "'é\n/*").readings 5).map (fun x => (x.token.map Token.kind, x.offset)) =
    [(some .invalidString, 3), (some .whitespace, 4), (some .comment, 6), (none, 6), (none, 6)] := by
  decide +kernel

/-! ## Starting further on -/

/-- A token as it stands in a text without its first characters and bytes. -/
def Token.lower (chars bytes : Nat) (t : Token) : Token :=
  ⟨t.kind, t.lexeme, t.start - chars, ⟨t.span.start - bytes, t.span.stop - bytes⟩⟩

theorem lower_shift (chars bytes : Nat) (t : Token) :
    (t.shift chars bytes).lower chars bytes = t := by
  rw [Token.shift, Token.lower]
  dsimp only
  rw [Nat.add_sub_cancel, Nat.add_sub_cancel, Nat.add_sub_cancel]

theorem drop_tokenize_eq_shift (text : String) (k : Nat) :
    (tokenize text).drop k = (tokenize (String.ofList (leftOver text k))).map
      (Token.shift (stopChar text k) (stopByte text k)) := by
  obtain ⟨hchar, hbyte⟩ := stops_eq text k
  rw [drop_tokenize, ← hchar, ← hbyte, tokenize, String.toList_ofList, ← tokensFrom_shift,
    Nat.zero_add, Nat.zero_add]

theorem toByteArray_leftOver (text : String) (k : Nat) :
    (String.ofList (leftOver text k)).toByteArray =
      text.toByteArray.extract (stopByte text k) text.utf8ByteSize := by
  have hbytes := extract_utf8Encode (charsOf ((tokenize text).take k)) (leftOver text k) []
  rw [List.append_nil, charsOf_take_append_leftOver, String.utf8Encode_toList,
    ← (stops_eq text k).2, stopByte_add_byteLength] at hbytes
  rw [hbytes, String.toByteArray_ofList]

/-- **Starting at a boundary.** What the first `k` tokens leave of a text has, taken by itself, the
    other tokens, moved back by the characters and bytes of those `k`. And a reader that was asked
    `k` times goes on as a fresh one of what is left. -/
theorem tokenize_leftOver (text : String) (k : Nat) :
    ∃ rest : String,
      rest.toByteArray = text.toByteArray.extract (stopByte text k) text.utf8ByteSize ∧
      rest.toList = text.toList.drop (stopChar text k) ∧
      tokenize rest =
        ((tokenize text).drop k).map (Token.lower (stopChar text k) (stopByte text k)) ∧
      (∀ t ∈ (tokenize text).drop k,
        stopChar text k ≤ t.start ∧ stopByte text k ≤ t.span.start) ∧
      ∀ n, ((Reader.ofText text).readings (k + n)).drop k =
        ((Reader.ofText rest).readings n).map
          (Reading.shift (stopChar text k) (stopByte text k)) := by
  refine ⟨String.ofList (leftOver text k), toByteArray_leftOver text k, ?_, ?_, fun t ht => ?_,
    fun n => ?_⟩
  · rw [String.toList_ofList, drop_stopChar]
  · rw [drop_tokenize_eq_shift, List.map_map]
    exact (List.map_id'' (lower_shift _ _) _).symm
  · rw [drop_tokenize_eq_shift] at ht
    obtain ⟨u, -, rfl⟩ := List.mem_map.mp ht
    exact ⟨Nat.le_add_left _ _, Nat.le_add_left _ _⟩
  · rw [Reader.drop_readings, Reader.behind_eq_shift, Reader.readings_shift]

end ContractScan
