import ContractScan.Tokenize
import Mathlib.Data.List.Chain

/-
  The tokens of a text tile it. A token is a piece of the text: its lexeme stands at its first
  character and fills its bytes (`isPieceOf_of_mem_tokenize`). Each token starts where the one
  before it stops, in characters and in bytes at once, the first at the start of the text and
  the last up to its end, so that the lexemes one after another are the text
  (`tokenize_tiles`).

  Bytes are those of the UTF-8 encoding of the text itself; `byteLength`, by which the tokens
  are placed, counts them (`size_utf8Encode`).
-/

namespace ContractScan

open ContractScan.Text (byteLength byteLength_append)

/-! ## Bytes -/

theorem size_utf8Encode (cs : List Char) : cs.utf8Encode.size = byteLength cs := by
  induction cs with
  | nil => rfl
  | cons c cs ih =>
    rw [List.utf8Encode_cons, ByteArray.size_append, ih, List.utf8Encode_singleton,
      List.size_toByteArray, String.length_utf8EncodeChar]
    rfl

theorem utf8ByteSize_ofList (cs : List Char) : (String.ofList cs).utf8ByteSize = byteLength cs := by
  rw [← String.size_toByteArray, String.toByteArray_ofList, size_utf8Encode]

/-- The bytes between two parts of a text are those of the part in the middle. -/
theorem extract_utf8Encode (a b c : List Char) :
    (a ++ b ++ c).utf8Encode.extract (byteLength a) (byteLength a + byteLength b) =
      b.utf8Encode := by
  have h := @ByteArray.extract_append_size_add a.utf8Encode (b.utf8Encode ++ c.utf8Encode) 0
    b.utf8Encode.size
  rw [Nat.add_zero, size_utf8Encode, size_utf8Encode] at h
  rw [List.append_assoc, List.utf8Encode_append, List.utf8Encode_append, h]
  exact ByteArray.extract_append_eq_left (size_utf8Encode b).symm

theorem isValid_byteLength (a b : List Char) :
    String.Pos.Raw.IsValid (String.ofList (a ++ b)) ⟨byteLength a⟩ := by
  rw [String.Pos.Raw.isValid_ofList]
  refine ⟨a.length, ?_⟩
  rw [List.take_left, utf8ByteSize_ofList]

/-! ## Tokens as pieces of a text -/

namespace Lexeme

/-- The first piece of a text and what follows it. -/
theorem first_append_drop (c : Char) (r : List Char) :
    (first c r).chars ++ (c :: r).drop (first c r).chars.length = c :: r :=
  List.prefix_iff_eq_append.mp (first_isPrefix c r)

end Lexeme

namespace Token

/-- Whether the lexeme of a token stands in a text at the character and the bytes that the token
names. -/
def IsPieceOf (t : Token) (text : List Char) : Prop :=
  ∃ before after, text = before ++ t.lexeme.toList ++ after ∧ t.start = before.length ∧
    t.span = ⟨byteLength before, byteLength before + byteLength t.lexeme.toList⟩

/-- Whether a character of the text lies in a token. -/
def Covers (t : Token) (p : Nat) : Prop := t.start ≤ p ∧ p < t.stop

theorem IsPieceOf.chars {t : Token} {text : List Char} (h : t.IsPieceOf text) :
    (text.drop t.start).take t.lexeme.length = t.lexeme.toList := by
  obtain ⟨before, after, rfl, hstart, -⟩ := h
  rw [hstart, List.append_assoc, List.drop_left, ← String.length_toList, List.take_left]

theorem IsPieceOf.bytes {t : Token} {text : String} (h : t.IsPieceOf text.toList) :
    text.toByteArray.extract t.span.start t.span.stop = t.lexeme.toByteArray := by
  obtain ⟨before, after, htext, -, hspan⟩ := h
  rw [← String.utf8Encode_toList, htext, hspan]
  dsimp only
  rw [extract_utf8Encode, String.utf8Encode_toList]

theorem IsPieceOf.isValid {t : Token} {text : String} (h : t.IsPieceOf text.toList) :
    String.Pos.Raw.IsValid text ⟨t.span.start⟩ ∧ String.Pos.Raw.IsValid text ⟨t.span.stop⟩ := by
  obtain ⟨before, after, htext, -, hspan⟩ := h
  rw [← String.ofList_toList (s := text), htext, hspan]
  dsimp only
  refine ⟨?_, ?_⟩
  · rw [List.append_assoc]
    exact isValid_byteLength _ _
  · rw [← byteLength_append]
    exact isValid_byteLength _ _

end Token

/-- A token is the first piece of what is left of the text where it starts. -/
theorem mem_tokensFrom {start byte : Nat} {cs : List Char} {t : Token}
    (h : t ∈ tokensFrom start byte cs) :
    ∃ before c r, cs = before ++ c :: r ∧
      t = (Lexeme.first c r).toToken (start + before.length) (byte + byteLength before) := by
  fun_induction tokensFrom start byte cs with
  | case1 => simp at h
  | case2 start byte c r piece ih =>
    rcases List.mem_cons.mp h with h | h
    · exact ⟨[], c, r, rfl, h⟩
    · obtain ⟨before, c', r', hcs, ht⟩ := ih h
      refine ⟨piece.chars ++ before, c', r', ?_, ?_⟩
      · rw [List.append_assoc, ← hcs]
        exact (Lexeme.first_append_drop c r).symm
      · rw [ht, List.length_append, byteLength_append, Nat.add_assoc, Nat.add_assoc]

theorem mem_tokenize {text : String} {t : Token} (h : t ∈ tokenize text) :
    ∃ before c r, text.toList = before ++ c :: r ∧
      t = (Lexeme.first c r).toToken before.length (byteLength before) := by
  obtain ⟨before, c, r, hcs, ht⟩ := mem_tokensFrom h
  exact ⟨before, c, r, hcs, by simpa using ht⟩

/-- A token stands in the text between what comes before it and what follows. -/
theorem exists_cut_of_mem_tokenize {text : String} {t : Token} (h : t ∈ tokenize text) :
    ∃ a w b kind, text.toList = a ++ (w ++ b) ∧ w ≠ [] ∧
      t = Lexeme.toToken ⟨kind, w⟩ a.length (byteLength a) := by
  obtain ⟨a, c, r, htext, rfl⟩ := mem_tokenize h
  refine ⟨a, _, (c :: r).drop (Lexeme.first c r).chars.length, _, ?_, Lexeme.first_ne_nil c r, rfl⟩
  rw [Lexeme.first_append_drop, htext]

theorem isPieceOf_of_mem_tokenize {text : String} {t : Token} (h : t ∈ tokenize text) :
    t.IsPieceOf text.toList := by
  obtain ⟨before, c, r, htext, rfl⟩ := mem_tokenize h
  refine ⟨before, (c :: r).drop (Lexeme.first c r).chars.length, ?_, rfl, ?_⟩
  · rw [Lexeme.toToken, String.toList_ofList, List.append_assoc, Lexeme.first_append_drop, htext]
  · rw [Lexeme.toToken, String.toList_ofList]

theorem lexeme_ne_of_mem_tokenize {text : String} {t : Token} (h : t ∈ tokenize text) :
    t.lexeme ≠ "" := by
  obtain ⟨before, c, r, -, rfl⟩ := mem_tokenize h
  intro he
  have := congrArg String.toList he
  rw [Lexeme.toToken, String.toList_ofList] at this
  exact Lexeme.first_ne_nil c r this

/-! ## The order of the tokens -/

/-- Whether a token starts where another stops, in characters and in bytes. -/
def Token.Adjoins (a b : Token) : Prop := b.start = a.stop ∧ b.span.start = a.span.stop

theorem head?_tokensFrom {start byte : Nat} {cs : List Char} :
    ∀ t ∈ (tokensFrom start byte cs).head?, t.start = start ∧ t.span.start = byte := by
  intro t ht
  cases cs with
  | nil => simp [tokensFrom_nil] at ht
  | cons c r =>
    rw [tokensFrom_cons, List.head?_cons, Option.mem_some_iff] at ht
    subst ht
    exact ⟨rfl, rfl⟩

theorem isChain_tokensFrom (start byte : Nat) (cs : List Char) :
    (tokensFrom start byte cs).IsChain Token.Adjoins := by
  fun_induction tokensFrom start byte cs with
  | case1 => exact List.IsChain.nil
  | case2 start byte c r piece ih =>
    refine List.IsChain.cons ih fun t ht => ?_
    obtain ⟨hstart, hbyte⟩ := head?_tokensFrom t ht
    exact ⟨by rw [hstart, Lexeme.stop_toToken], hbyte⟩

theorem flatMap_tokensFrom (start byte : Nat) (cs : List Char) :
    (tokensFrom start byte cs).flatMap (fun t => t.lexeme.toList) = cs := by
  fun_induction tokensFrom start byte cs with
  | case1 => rfl
  | case2 start byte c r piece ih =>
    rw [List.flatMap_cons, ih, Lexeme.toToken, String.toList_ofList]
    exact Lexeme.first_append_drop c r

theorem tokensFrom_eq_nil {start byte : Nat} {cs : List Char} :
    tokensFrom start byte cs = [] ↔ cs = [] := by
  cases cs with
  | nil => simp [tokensFrom_nil]
  | cons c r => simp [tokensFrom_cons]

theorem getLast?_tokensFrom {start byte : Nat} {cs : List Char} :
    ∀ t ∈ (tokensFrom start byte cs).getLast?,
      t.stop = start + cs.length ∧ t.span.stop = byte + byteLength cs := by
  fun_induction tokensFrom start byte cs with
  | case1 => simp
  | case2 start byte c r piece ih =>
    intro t ht
    have happ : piece.chars ++ (c :: r).drop piece.chars.length = c :: r :=
      Lexeme.first_append_drop c r
    by_cases hrest : (c :: r).drop piece.chars.length = []
    · rw [hrest, List.append_nil] at happ
      rw [hrest, tokensFrom_nil, List.getLast?_singleton, Option.mem_some_iff] at ht
      subst ht
      exact ⟨by rw [Lexeme.stop_toToken, happ], by rw [← happ]; rfl⟩
    · obtain ⟨hstop, hbyte⟩ := ih t (by
        rwa [List.getLast?_cons_of_ne_nil (mt tokensFrom_eq_nil.mp hrest)] at ht)
      rw [hstop, hbyte, Nat.add_assoc, Nat.add_assoc, ← List.length_append, ← byteLength_append,
        happ]
      exact ⟨rfl, rfl⟩

/-- A token starts after the lexemes of the tokens before it. -/
theorem start_of_tokensFrom_eq {start byte : Nat} {cs : List Char} {before after : List Token}
    {t : Token} (h : tokensFrom start byte cs = before ++ t :: after) :
    t.start = start + (before.flatMap fun t => t.lexeme.toList).length := by
  revert before
  fun_induction tokensFrom start byte cs with
  | case1 => simp
  | case2 start byte c r piece =>
    rename_i ih
    intro before h
    cases before with
    | nil =>
      injection h with ht
      rw [← ht]
      rfl
    | cons b before =>
      injection h with hb hrest
      rw [ih hrest, List.flatMap_cons, List.length_append, ← hb, Lexeme.toToken,
        String.toList_ofList, Nat.add_assoc]

/-- Every character of a text lies in a token. -/
theorem exists_covers_tokensFrom {start byte p : Nat} {cs : List Char} (h : p < cs.length) :
    ∃ t ∈ tokensFrom start byte cs, t.Covers (start + p) := by
  revert p
  fun_induction tokensFrom start byte cs with
  | case1 => simp
  | case2 start byte c r piece =>
    rename_i ih
    intro p h
    have hlen : piece.chars.length + ((c :: r).drop piece.chars.length).length =
        (c :: r).length := by
      rw [← List.length_append]
      exact congrArg List.length (Lexeme.first_append_drop c r)
    by_cases hp : p < piece.chars.length
    · refine ⟨_, List.mem_cons_self, Nat.le_add_right _ _, ?_⟩
      rw [Lexeme.stop_toToken]
      omega
    · obtain ⟨t, ht, hcov⟩ := @ih (p - piece.chars.length) (by omega)
      refine ⟨t, List.mem_cons_of_mem _ ht, ?_⟩
      rwa [Nat.add_assoc, Nat.add_sub_cancel' (Nat.le_of_not_lt hp)] at hcov

/-- The first piece in which a character of a text lies. -/
theorem exists_first_covers {text : String} {p : Nat} (h : p < text.toList.length) :
    ∃ before c r i, text.toList = before ++ c :: r ∧ p = before.length + i ∧
      i < (Lexeme.first c r).chars.length ∧
      (Lexeme.first c r).toToken before.length (byteLength before) ∈ tokenize text := by
  obtain ⟨t, ht, hstart, hstop⟩ := @exists_covers_tokensFrom 0 0 p text.toList h
  obtain ⟨before, c, r, htext, rfl⟩ := mem_tokenize ht
  rw [Lexeme.stop_toToken, Nat.zero_add] at hstop
  have hstart : before.length ≤ p := by simpa [Lexeme.toToken] using hstart
  exact ⟨before, c, r, p - before.length, htext, by omega, by omega, ht⟩

theorem detokenize_tokenize (text : String) : detokenize (tokenize text) = text := by
  apply String.toList_injective
  rw [detokenize, String.toList_join, List.flatMap_map]
  exact flatMap_tokensFrom 0 0 text.toList

/-! ## The tiling -/

/-- Tokens that tile a text without gap or overlap, in characters and in bytes at once. -/
structure Tiles (text : String) (ts : List Token) : Prop where
  ne_empty : ∀ t ∈ ts, t.lexeme ≠ ""
  stop_eq : ∀ t ∈ ts, t.stop = t.start + t.lexeme.length
  head : ∀ t ∈ ts.head?, t.start = 0 ∧ t.span.start = 0
  adjoins : ts.IsChain Token.Adjoins
  last : ∀ t ∈ ts.getLast?, t.stop = text.length ∧ t.span.stop = text.utf8ByteSize
  /-- The bytes of a token start and stop between two characters of the text. -/
  isValid : ∀ t ∈ ts,
    String.Pos.Raw.IsValid text ⟨t.span.start⟩ ∧ String.Pos.Raw.IsValid text ⟨t.span.stop⟩
  bytes : ∀ t ∈ ts, text.toByteArray.extract t.span.start t.span.stop = t.lexeme.toByteArray
  chars : ∀ t ∈ ts, (text.toList.drop t.start).take t.lexeme.length = t.lexeme.toList

/-- **Lossless tiling.** The tokens of every text tile it, so their lexemes one after another
    are the text. -/
theorem tokenize_tiles (text : String) :
    Tiles text (tokenize text) ∧ detokenize (tokenize text) = text := by
  refine ⟨?_, detokenize_tokenize text⟩
  have hbytes : text.utf8ByteSize = byteLength text.toList := by
    rw [← utf8ByteSize_ofList, String.ofList_toList]
  exact {
    ne_empty := fun t ht => lexeme_ne_of_mem_tokenize ht
    stop_eq := fun _ _ => rfl
    head := head?_tokensFrom
    adjoins := isChain_tokensFrom 0 0 text.toList
    last := by
      intro t ht
      obtain ⟨hstop, hbyte⟩ := getLast?_tokensFrom t ht
      rw [hstop, hbyte, hbytes, Nat.zero_add, Nat.zero_add, String.length_toList]
      exact ⟨rfl, rfl⟩
    isValid := fun t ht => (isPieceOf_of_mem_tokenize ht).isValid
    bytes := fun t ht => (isPieceOf_of_mem_tokenize ht).bytes
    chars := fun t ht => (isPieceOf_of_mem_tokenize ht).chars }

end ContractScan
