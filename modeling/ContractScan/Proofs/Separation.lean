import ContractScan.Proofs.Lookahead
import ContractScan.Proofs.Tiling

/-
  Tokens and the text around them. A token does not need its context: its lexeme, scanned
  alone, is that one token again (`tokenize_lexeme`). And white space between two texts keeps
  their tokens apart: the tokens of both together are those of the one and then those of the
  other, moved behind it (`tokenize_append_of_whitespace`).

  Both come from the first piece of a text: cut off what follows it, or put text behind a blank
  that follows it, and the first piece is the same (`first_self`, `first_append`).
-/

namespace ContractScan

open ContractScan.Text (isBlank byteLength byteLength_append)

namespace Lexeme

/-! ## The first piece in other contexts -/

theorem exists_chars_first (c : Char) (r : List Char) : ∃ w, (first c r).chars = c :: w ∧ w <+: r :=
  (List.prefix_cons_iff.mp (first_isPrefix c r)).resolve_left (first_ne_nil c r)

theorem first_self {c : Char} {r w : List Char} (h : (first c r).chars = c :: w) :
    first c w = first c r := by
  have hclass := ofClass_first c r
  generalize first c r = l at h hclass
  apply OfClass.eq_first
  cases hclass with
  | blank hc =>
    obtain rfl : r.takeWhile isBlank = w := (List.cons.inj h).2
    have hself := OfClass.blank (r := r.takeWhile isBlank) hc
    rwa [List.takeWhile_idem] at hself
  | word hc =>
    obtain rfl : r.takeWhile isWordPart = w := (List.cons.inj h).2
    have hself := OfClass.word (r := r.takeWhile isWordPart) hc
    rwa [List.takeWhile_idem] at hself
  | number hc =>
    have hstart := startsNumber_number hc
    replace h : number (c :: r) = c :: w := h
    rw [h] at hstart ⊢
    have hself := OfClass.number hstart
    rwa [← h, number_self, h] at hself
  | literal hc =>
    obtain rfl : (literalBody c r).chars = w := (List.cons.inj h).2
    have hself := OfClass.literal (r := (literalBody c r).chars) hc
    rwa [literal, literalBody_self] at hself
  | bracket hc =>
    obtain rfl : [] = w := (List.cons.inj h).2
    exact .bracket hc
  | lineComment hc =>
    obtain ⟨s, rfl, rfl⟩ := eq_cons_of_opensLineComment hc
    obtain rfl : '/' :: restOfLine s = w := (List.cons.inj h).2
    have hself := OfClass.lineComment (c := '/') (r := '/' :: restOfLine s) rfl
    have hline : '/' :: '/' :: restOfLine s = restOfLine ('/' :: '/' :: s) := rfl
    rwa [hline, restOfLine_self] at hself
  | blockComment hc =>
    obtain ⟨s, rfl, rfl⟩ := eq_cons_of_opensBlockComment hc
    obtain rfl : '*' :: blockBody s = w := (List.cons.inj h).2
    have hself := OfClass.blockComment (c := '/') (r := '*' :: blockBody s) rfl
    rwa [List.drop_one, List.tail_cons, blockBody_self] at hself
  | operators hop hc =>
    replace h : operatorRun (c :: r) = c :: w := h
    have hpre := operatorRun_isPrefix (c :: r)
    rw [h] at hpre
    have hself := OfClass.operators hop (opensComment_of_prefix_eq_false hpre hc)
    rw [h]
    rwa [← h, operatorRun_self, h] at hself
  | invalid hblank hword hnumber hquote hbracket hoperator =>
    obtain rfl : [] = w := (List.cons.inj h).2
    have hnumber' : startsNumber [c] = false := by
      rw [← Bool.not_eq_true] at hnumber ⊢
      exact mt (fun h => startsNumber_append h r) hnumber
    exact .invalid hblank hword hnumber' hquote hbracket hoperator

theorem isNumberPart_eq_false_of_isBlank {x : Char} (h : isBlank x) : isNumberPart x = false := by
  rw [← Bool.not_eq_true]
  intro hx
  have hascii : x.toNat < 128 := by
    simp only [isNumberPart, isExponentMark, isSign, Bool.or_eq_true, beq_iff_eq] at hx
    rcases hx with ((hx | rfl) | rfl | rfl) | rfl | rfl
    · exact toNat_lt_of_isDigit hx
    all_goals decide
  rw [eq_false_of_ascii (p := isNumberPart) (q := isBlank) (by decide +kernel) hascii hx] at h
  cases h

theorem first_append {c x : Char} {r : List Char} (hne : (first c r).chars ≠ c :: r)
    (hlast : (c :: r).getLast? = some x) (hx : isBlank x) (b : List Char) :
    first c (r ++ b) = first c r := by
  have hlen : 1 < (c :: r).length := by
    cases r with
    | nil =>
      obtain ⟨w, hw, hpre⟩ := exists_chars_first c []
      rw [List.prefix_nil.mp hpre] at hw
      exact absurd hw hne
    | cons d r => simp
  have hclass := ofClass_first c r
  generalize first c r = l at hne hclass
  apply OfClass.eq_first
  cases hclass with
  | blank hc =>
    rw [← takeWhile_append_of_ne (fun h => hne (by rw [h])) b]
    exact .blank hc
  | word hc =>
    have hrest : r.takeWhile isWordPart ≠ r := fun h => hne (by rw [h]; rfl)
    rw [← takeWhile_append_of_ne hrest b]
    exact .word hc
  | number hc =>
    -- A numeric literal sees two characters further, but not past the blank.
    have hrest : (c :: r).takeWhile isNumberPart ≠ c :: r :=
      takeWhile_ne_of_getLast? hlast (isNumberPart_eq_false_of_isBlank hx)
    have happ : number (c :: (r ++ b)) = number (c :: r) := number_append hrest b
    rw [← happ]
    exact .number (startsNumber_append hc b)
  | literal hc =>
    have hrest : (literalBody c r).chars ≠ r := fun h => hne (by rw [literal, h])
    rw [literal, ← literalBody_append hrest b]
    exact .literal hc
  | bracket hc => exact .bracket hc
  | lineComment hc =>
    have happ : restOfLine (c :: (r ++ b)) = restOfLine (c :: r) := takeWhile_append_of_ne hne b
    obtain ⟨s, rfl, rfl⟩ := eq_cons_of_opensLineComment hc
    rw [← happ]
    exact .lineComment rfl
  | blockComment hc =>
    obtain ⟨s, rfl, rfl⟩ := eq_cons_of_opensBlockComment hc
    have hrest : blockBody s ≠ s := fun h => hne (by rw [List.drop_one, List.tail_cons, h]; rfl)
    have happ := OfClass.blockComment (c := '/') (r := '*' :: (s ++ b)) rfl
    rwa [List.drop_one, List.tail_cons, blockBody_append hrest b] at happ
  | operators hop hc =>
    have happ : operatorRun (c :: (r ++ b)) = operatorRun (c :: r) := operatorRun_append hne b
    have hopens : opensComment (c :: (r ++ b)) = opensComment (c :: r) := opensComment_append hlen b
    rw [← happ]
    exact .operators hop (hopens.trans hc)
  | invalid hblank hword hnumber hquote hbracket hoperator =>
    have hstart : startsNumber (c :: (r ++ b)) = startsNumber (c :: r) :=
      startsNumber_append_of_lt hlen b
    exact .invalid hblank hword (hstart.trans hnumber) hquote hbracket hoperator

end Lexeme

/-! ## Tokens scanned alone -/

theorem tokensFrom_first {c : Char} {r w : List Char} (h : (Lexeme.first c r).chars = c :: w)
    (start byte : Nat) :
    tokensFrom start byte (c :: w) = [(Lexeme.first c r).toToken start byte] := by
  rw [tokensFrom_cons, Lexeme.first_self h, h, List.drop_length, tokensFrom_nil]

/-- **Self-delimiting tokens.** The lexeme of a token, scanned alone, is one token of the same
    kind. -/
theorem tokenize_lexeme {text : String} {t : Token} (h : t ∈ tokenize text) :
    tokenize t.lexeme = [⟨t.kind, t.lexeme, 0, ⟨0, t.lexeme.utf8ByteSize⟩⟩] := by
  obtain ⟨before, c, r, -, rfl⟩ := mem_tokenize h
  obtain ⟨w, hw, -⟩ := Lexeme.exists_chars_first c r
  rw [Lexeme.toToken, tokenize, String.toList_ofList, utf8ByteSize_ofList, hw, tokensFrom_first hw,
    Lexeme.toToken, hw, Nat.zero_add]

/-- A literal that a line break ends behind an escaped one, a number without the exponent that
its `e` announces, and an operator in front of a comment. -/
def cutOffText : String := "'é\\\r\n\n1e+//"

theorem tokenize_lexeme_cutOffText :
    (⟨.invalidString, "'é\\\r\n", 0, ⟨0, 6⟩⟩ : Token) ∈ tokenize cutOffText ∧
      tokenize "'é\\\r\n" = [⟨.invalidString, "'é\\\r\n", 0, ⟨0, 6⟩⟩] := by
  have ht : (⟨.invalidString, "'é\\\r\n", 0, ⟨0, 6⟩⟩ : Token) ∈ tokenize cutOffText := by
    decide +kernel
  exact ⟨ht, tokenize_lexeme ht⟩

/-! ## Texts behind white space -/

/-- A token further on in a text. -/
def Token.shift (chars bytes : Nat) (t : Token) : Token :=
  ⟨t.kind, t.lexeme, t.start + chars, ⟨t.span.start + bytes, t.span.stop + bytes⟩⟩

theorem shift_toToken (l : Lexeme) (start byte chars bytes : Nat) :
    (l.toToken start byte).shift chars bytes = l.toToken (start + chars) (byte + bytes) := by
  rw [Token.shift, Lexeme.toToken, Lexeme.toToken]
  dsimp only
  rw [Nat.add_right_comm]

theorem tokensFrom_shift (start byte chars bytes : Nat) (cs : List Char) :
    tokensFrom (start + chars) (byte + bytes) cs =
      (tokensFrom start byte cs).map (Token.shift chars bytes) := by
  fun_induction tokensFrom start byte cs with
  | case1 => exact tokensFrom_nil _ _
  | case2 start byte c r piece ih =>
    rw [tokensFrom_cons, List.map_cons, shift_toToken, ← ih, Nat.add_right_comm start,
      Nat.add_right_comm byte]

/-- A text whose last token is white space ends in a blank. -/
theorem isBlank_getLast?_of_whitespace {start byte : Nat} {cs : List Char}
    (h : ∀ t ∈ (tokensFrom start byte cs).getLast?, t.kind = .whitespace) :
    ∀ x ∈ cs.getLast?, isBlank x := by
  fun_induction tokensFrom start byte cs with
  | case1 => simp
  | case2 start byte c r piece ih =>
    have happ : piece.chars ++ (c :: r).drop piece.chars.length = c :: r :=
      Lexeme.first_append_drop c r
    by_cases hrest : (c :: r).drop piece.chars.length = []
    · rw [hrest, tokensFrom_nil] at h
      obtain ⟨hblank, hpiece⟩ := Lexeme.first_of_kind_whitespace (h _ rfl)
      intro x hx
      rw [hrest, List.append_nil, show piece = _ from hpiece] at happ
      rw [← happ] at hx
      exact Lexeme.isBlank_of_mem_blank hblank (List.mem_of_getLast? hx)
    · rw [List.getLast?_cons_of_ne_nil (mt tokensFrom_eq_nil.mp hrest)] at h
      rw [← happ, List.getLast?_append_of_ne_nil _ hrest]
      exact ih h

theorem takeWhile_eq_nil_of_head? {p : Char → Bool} {b : List Char}
    (hb : ∀ x ∈ b.head?, p x = false) : b.takeWhile p = [] := by
  cases b with
  | nil => rfl
  | cons x b => exact List.takeWhile_cons_of_neg (by rw [hb x rfl]; exact Bool.false_ne_true)

/-- White space at the end of a text is not continued by a text that starts otherwise. -/
theorem first_append_of_blank {c : Char} {r b : List Char} (hb : ∀ x ∈ b.head?, isBlank x = false)
    (hkind : (Lexeme.first c r).kind = .whitespace) (hall : (Lexeme.first c r).chars = c :: r) :
    Lexeme.first c (r ++ b) = Lexeme.first c r := by
  obtain ⟨hblank, hpiece⟩ := Lexeme.first_of_kind_whitespace hkind
  rw [hpiece] at hall
  have hr : r.takeWhile isBlank = r := (List.cons.inj hall).2
  have happ : (r ++ b).takeWhile isBlank = r.takeWhile isBlank := by
    rw [List.takeWhile_append_of_pos (List.takeWhile_eq_self_iff.mp hr),
      takeWhile_eq_nil_of_head? hb, List.append_nil, hr]
  rw [hpiece, ← happ]
  exact (Lexeme.OfClass.blank hblank).eq_first

/-- A text behind one that ends in white space is scanned on its own. -/
theorem tokensFrom_append {b : List Char} (hb : ∀ x ∈ b.head?, isBlank x = false) {start byte : Nat}
    {cs : List Char} (h : ∀ t ∈ (tokensFrom start byte cs).getLast?, t.kind = .whitespace) :
    tokensFrom start byte (cs ++ b) =
      tokensFrom start byte cs ++ tokensFrom (start + cs.length) (byte + byteLength cs) b := by
  have hlast := isBlank_getLast?_of_whitespace h
  fun_induction tokensFrom start byte cs with
  | case1 => rfl
  | case2 start byte c r piece ih =>
    have happ : piece.chars ++ (c :: r).drop piece.chars.length = c :: r :=
      Lexeme.first_append_drop c r
    have hrest' : (c :: r ++ b).drop piece.chars.length =
        (c :: r).drop piece.chars.length ++ b := by
      conv => lhs; rw [← happ, List.append_assoc, List.drop_left]
    by_cases hrest : (c :: r).drop piece.chars.length = []
    · rw [hrest, tokensFrom_nil] at h
      have hall : piece.chars = c :: r := by rwa [hrest, List.append_nil] at happ
      have hfirst : Lexeme.first c (r ++ b) = piece := first_append_of_blank hb (h _ rfl) hall
      rw [List.cons_append, tokensFrom_cons, hfirst, ← List.cons_append, hrest', hrest,
        tokensFrom_nil, hall]
      rfl
    · have hne : piece.chars ≠ c :: r := by
        intro hall
        rw [hall, List.drop_length] at hrest
        exact hrest rfl
      obtain ⟨x, hx⟩ : ∃ x, (c :: r).getLast? = some x := ⟨_, List.getLast?_cons⟩
      have hfirst : Lexeme.first c (r ++ b) = piece :=
        Lexeme.first_append hne hx (hlast x hx) b
      rw [List.getLast?_cons_of_ne_nil (mt tokensFrom_eq_nil.mp hrest)] at h
      have hlen : (c :: r).length =
          piece.chars.length + ((c :: r).drop piece.chars.length).length := by
        rw [← List.length_append, happ]
      have hbytes : byteLength (c :: r) =
          byteLength piece.chars + byteLength ((c :: r).drop piece.chars.length) := by
        rw [← byteLength_append, happ]
      rw [List.cons_append, tokensFrom_cons, hfirst, ← List.cons_append, hrest',
        ih h (isBlank_getLast?_of_whitespace h), hlen, hbytes, Nat.add_assoc, Nat.add_assoc]
      rfl

/-- **Texts behind white space.** If a text is empty or ends in a token of white space, and
    another is empty or starts otherwise, then the tokens of both together are those of the one
    and, moved behind it, those of the other. -/
theorem tokenize_append_of_whitespace {a b : String}
    (ha : a = "" ∨ ∃ t, (tokenize a).getLast? = some t ∧ t.kind = .whitespace)
    (hb : b = "" ∨ ∃ c, b.toList.head? = some c ∧ isBlank c = false) :
    tokenize (a ++ b) = tokenize a ++ (tokenize b).map (Token.shift a.length a.utf8ByteSize) := by
  have hlast : ∀ t ∈ (tokenize a).getLast?, t.kind = .whitespace := by
    intro t ht
    rcases ha with rfl | ⟨u, hu, hkind⟩
    · rw [tokenize, String.toList_empty, tokensFrom_nil] at ht
      cases ht
    · rw [hu, Option.mem_some_iff] at ht
      rwa [← ht]
  have hhead : ∀ x ∈ b.toList.head?, isBlank x = false := by
    intro x hx
    rcases hb with rfl | ⟨c, hc, hblank⟩
    · cases hx
    · rw [hc, Option.mem_some_iff] at hx
      rwa [← hx]
  have hsize : a.utf8ByteSize = byteLength a.toList := by
    rw [← utf8ByteSize_ofList, String.ofList_toList]
  rw [tokenize, String.toList_append, tokensFrom_append hhead hlast, tokensFrom_shift, hsize,
    String.length_toList]
  rfl

theorem tokenize_append_of_whitespace_crlf :
    (∃ t, (tokenize "/*é*/ 1e\r\n").getLast? = some t ∧ t.kind = .whitespace) ∧
    (∃ c, "+5\\".toList.head? = some c ∧ isBlank c = false) ∧
    tokenize "/*é*/ 1e\r\n+5\\" =
      [⟨.comment, "/*é*/", 0, ⟨0, 6⟩⟩, ⟨.whitespace, " ", 5, ⟨6, 7⟩⟩, ⟨.number, "1", 6, ⟨7, 8⟩⟩,
        ⟨.identifier, "e", 7, ⟨8, 9⟩⟩, ⟨.whitespace, "\r\n", 8, ⟨9, 11⟩⟩,
        ⟨.operator, "+", 10, ⟨11, 12⟩⟩, ⟨.number, "5", 11, ⟨12, 13⟩⟩,
        ⟨.invalid, "\\", 12, ⟨13, 14⟩⟩] := by
  have ha : ∃ t, (tokenize "/*é*/ 1e\r\n").getLast? = some t ∧ t.kind = .whitespace :=
    ⟨⟨.whitespace, "\r\n", 8, ⟨9, 11⟩⟩, by decide +kernel, rfl⟩
  have hb : ∃ c, "+5\\".toList.head? = some c ∧ isBlank c = false := ⟨'+', rfl, rfl⟩
  have happ := tokenize_append_of_whitespace (Or.inr ha) (Or.inr hb)
  refine ⟨ha, hb, happ.trans ?_⟩
  decide +kernel

end ContractScan
