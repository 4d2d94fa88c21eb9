import ContractScan.Proofs.Lookahead

/-
  Line endings and tokens. A text whose lines end in line feeds can be written with another line
  break in their place (`LineEnding.put`). Each reader of pieces goes through the other text as
  through the first one: what it takes is the same up to the breaks (`takeWhile_put`,
  `number_put`, `literalBody_put`, `blockBody_put`, `operatorRun_put`). So the first piece is
  the same (`first_put`), and the tokens are, one by one (`tokenize_put`).
-/

namespace ContractScan

open ContractScan.Text (isBlank isLineBreak byteLength byteLength_append)
open ContractScan.Vocabulary (isOperatorChar)

/-- The line breaks other than the line feed. -/
inductive LineEnding where
  | crlf
  | cr
deriving DecidableEq

namespace LineEnding

/-- The characters of a line break. -/
def chars : LineEnding → List Char
  | crlf => ['\r', '\n']
  | cr => ['\r']

/-- A text with a line break in place of its line feeds. -/
def put (e : LineEnding) (cs : List Char) : List Char :=
  cs.flatMap fun c => if c = '\n' then e.chars else [c]

variable (e : LineEnding)

theorem chars_eq_cons : ∃ t, e.chars = '\r' :: t := by
  cases e <;> exact ⟨_, rfl⟩

theorem isLineBreak_of_mem_chars {e : LineEnding} {c : Char} (h : c ∈ e.chars) :
    isLineBreak c := by
  cases e
  · rcases List.mem_pair.mp h with rfl | rfl <;> rfl
  · rw [List.mem_singleton.mp h]
    rfl

@[simp] theorem put_nil : e.put [] = [] := rfl

@[simp] theorem put_append (a b : List Char) : e.put (a ++ b) = e.put a ++ e.put b :=
  List.flatMap_append

theorem put_lf (r : List Char) : e.put ('\n' :: r) = e.chars ++ e.put r := rfl

theorem put_cons {c : Char} (h : c ≠ '\n') (r : List Char) : e.put (c :: r) = c :: e.put r := by
  rw [put, List.flatMap_cons, if_neg h]
  rfl

theorem put_of_not_mem {cs : List Char} (h : '\n' ∉ cs) : e.put cs = cs := by
  induction cs with
  | nil => rfl
  | cons c r ih =>
    rw [List.mem_cons, not_or] at h
    rw [put_cons e (Ne.symm h.1), ih h.2]

theorem put_eq_nil {cs : List Char} : e.put cs = [] ↔ cs = [] := by
  cases cs with
  | nil => simp
  | cons c r =>
    by_cases hc : c = '\n'
    · obtain ⟨t, ht⟩ := e.chars_eq_cons
      simp [hc, put_lf, ht]
    · simp [put_cons e hc]

/-- A text with other line breaks goes on as the text does, as far as it has no breaks. -/
theorem prefix_put_iff {a : List Char} (ha : ∀ x ∈ a, isLineBreak x = false) {cs : List Char} :
    a <+: e.put cs ↔ a <+: cs := by
  induction a generalizing cs with
  | nil => simp
  | cons x a ih =>
    have hx : isLineBreak x = false := ha x List.mem_cons_self
    cases cs with
    | nil => simp
    | cons c r =>
      by_cases hc : c = '\n'
      · obtain ⟨t, ht⟩ := e.chars_eq_cons
        have hlf : x ≠ '\n' := by rintro rfl; cases hx
        have hcr : x ≠ '\r' := by rintro rfl; cases hx
        simp [hc, put_lf, ht, hlf, hcr]
      · rw [put_cons e hc, List.cons_prefix_cons, List.cons_prefix_cons,
          ih fun y hy => ha y (List.mem_cons_of_mem x hy)]

theorem head?_put_ne (cs : List Char) : (e.put cs).head? ≠ some '\n' := by
  cases cs with
  | nil => simp
  | cons c r =>
    by_cases hc : c = '\n'
    · obtain ⟨t, ht⟩ := e.chars_eq_cons
      simp [hc, put_lf, ht]
    · simp [put_cons e hc, hc]

/-! ## Readers -/

/-- A class of characters that does not tell line breaks apart. -/
theorem takeWhile_put {p : Char → Bool} (hp : p '\r' = p '\n') (cs : List Char) :
    (e.put cs).takeWhile p = e.put (cs.takeWhile p) := by
  induction cs with
  | nil => rfl
  | cons c r ih =>
    by_cases hc : c = '\n'
    · subst hc
      rw [put_lf]
      by_cases h : p '\n'
      · rw [List.takeWhile_cons_of_pos h, put_lf, ← ih, List.takeWhile_append_of_pos]
        intro x hx
        rcases Text.isLineBreak_iff.mp (isLineBreak_of_mem_chars hx) with rfl | rfl
        · exact h
        · exact hp.trans h
      · obtain ⟨t, ht⟩ := e.chars_eq_cons
        rw [List.takeWhile_cons_of_neg h, ht, List.cons_append,
          List.takeWhile_cons_of_neg (hp ▸ h)]
        rfl
    · rw [put_cons e hc, List.takeWhile_cons, List.takeWhile_cons, ih]
      split
      · rw [put_cons e hc]
      · rfl

theorem takeWhile_put_of_false {p : Char → Bool} (hlf : p '\n' = false) (hcr : p '\r' = false)
    (cs : List Char) : (e.put cs).takeWhile p = cs.takeWhile p := by
  rw [takeWhile_put e (hcr.trans hlf.symm), put_of_not_mem]
  intro h
  have := List.mem_takeWhile_imp h
  rw [hlf] at this
  cases this

open Lexeme

theorem number_put (cs : List Char) : number (e.put cs) = number cs := by
  rw [← number_takeWhile, takeWhile_put_of_false e rfl rfl, number_takeWhile]

theorem startsNumber_iff_prefix {cs : List Char} :
    startsNumber cs ↔ ∃ d, d.isDigit ∧ ([d] <+: cs ∨ ['.', d] <+: cs) := by
  rw [startsNumber_iff]
  constructor
  · rintro (⟨d, r, rfl, hd⟩ | ⟨d, r, rfl, hd⟩)
    · exact ⟨d, hd, Or.inl ⟨r, rfl⟩⟩
    · exact ⟨d, hd, Or.inr ⟨r, rfl⟩⟩
  · rintro ⟨d, hd, ⟨r, rfl⟩ | ⟨r, rfl⟩⟩
    · exact Or.inl ⟨d, r, rfl, hd⟩
    · exact Or.inr ⟨d, r, rfl, hd⟩

theorem startsNumber_put (cs : List Char) : startsNumber (e.put cs) = startsNumber cs := by
  have hdigit {d : Char} (h : d.isDigit) : isLineBreak d = false := by
    rw [← Bool.not_eq_true, Text.isLineBreak_iff]
    rintro (rfl | rfl) <;> cases h
  rw [Bool.eq_iff_iff, startsNumber_iff_prefix, startsNumber_iff_prefix]
  refine exists_congr fun d => and_congr_right fun h => ?_
  have hdot : ∀ x ∈ ['.', d], isLineBreak x = false := by
    intro x hx
    rcases List.mem_pair.mp hx with rfl | rfl
    · rfl
    · exact hdigit h
  rw [prefix_put_iff e (by simp [hdigit h]), prefix_put_iff e hdot]

theorem opensLineComment_put (cs : List Char) :
    opensLineComment (e.put cs) = opensLineComment cs := by
  rw [Bool.eq_iff_iff, opensLineComment_iff, opensLineComment_iff,
    prefix_put_iff e (by simp [isLineBreak])]

theorem opensBlockComment_put (cs : List Char) :
    opensBlockComment (e.put cs) = opensBlockComment cs := by
  rw [Bool.eq_iff_iff, opensBlockComment_iff, opensBlockComment_iff,
    prefix_put_iff e (by simp [isLineBreak])]

theorem opensComment_put (cs : List Char) : opensComment (e.put cs) = opensComment cs := by
  rw [opensComment, opensComment, opensLineComment_put, opensBlockComment_put]

theorem restOfLine_put (cs : List Char) : restOfLine (e.put cs) = restOfLine cs :=
  takeWhile_put_of_false e rfl rfl cs

theorem operatorRun_put (cs : List Char) : operatorRun (e.put cs) = operatorRun cs := by
  induction cs with
  | nil => rfl
  | cons c r ih =>
    by_cases hc : c = '\n'
    · obtain ⟨t, ht⟩ := e.chars_eq_cons
      subst hc
      rw [put_lf, ht, List.cons_append, operatorRun, operatorRun]
      rfl
    · have hopens := e.opensComment_put (c :: r)
      rw [put_cons e hc] at hopens ⊢
      rw [operatorRun, operatorRun, hopens, ih]

theorem blockBody_put (cs : List Char) : blockBody (e.put cs) = e.put (blockBody cs) := by
  fun_induction blockBody cs with
  | case1 => rfl
  | case2 r =>
    rw [put_cons e (by decide), put_cons e (by decide)]
    rfl
  | case3 c r hne ih =>
    by_cases hc : c = '\n'
    · subst hc
      rw [put_lf, put_lf, ← ih]
      cases e <;> simp [chars, blockBody]
    · rw [put_cons e hc, put_cons e hc, blockBody, ih]
      -- The star and slash that close a comment stand side by side in both texts.
      intro s hstar hs
      have hslash : ['/'] <+: e.put r := ⟨s, hs.symm⟩
      rw [prefix_put_iff e (by simp [isLineBreak])] at hslash
      obtain ⟨t, ht⟩ := hslash
      exact hne t hstar ht.symm

theorem literalBody_put {quote : Char} (hq : isLineBreak quote = false) {cs : List Char}
    (hcs : '\r' ∉ cs) :
    literalBody quote (e.put cs) =
      ⟨e.put (literalBody quote cs).chars, (literalBody quote cs).closed⟩ := by
  fun_induction literalBody quote cs with
  | case1 => rfl
  | case2 r ih => simp at hcs
  | case3 c r hne ih =>
    simp only [List.mem_cons, not_or] at hcs
    have hslash (s : List Char) : e.put ('\\' :: s) = '\\' :: e.put s := e.put_cons (by decide) s
    rw [Body.after, put_append, hslash, hslash]
    by_cases hc : c = '\n'
    · subst hc
      rw [put_lf, put_lf, put_nil, List.append_nil]
      cases e with
      | crlf =>
        show literalBody quote ('\\' :: '\r' :: '\n' :: LineEnding.crlf.put r) = _
        rw [literalBody, ih hcs.2.2]
        rfl
      | cr =>
        have hhead := LineEnding.cr.head?_put_ne r
        show literalBody quote ('\\' :: '\r' :: LineEnding.cr.put r) = _
        rw [literalBody_escape quote, ih hcs.2.2]
        · rfl
        · rintro s - hs
          rw [hs] at hhead
          exact hhead rfl
    · rw [put_cons e hc, put_cons e hc, literalBody_escape quote fun s h => absurd h.symm hcs.2.1,
        ih hcs.2.2]
      rfl
  | case4 r h1 h2 =>
    have hlf : quote ≠ '\n' := by rintro rfl; cases hq
    rw [put_cons e hlf, put_cons e hlf, literalBody_cons quote, if_pos rfl]
    · rfl
    · intro hc
      rw [eq_nil_of_not_escape h2 hc]
      rfl
  | case5 c r h1 h2 hquote hbreak =>
    have hlf : c = '\n' := by
      refine (Text.isLineBreak_iff.mp hbreak).resolve_right ?_
      rintro rfl
      exact hcs List.mem_cons_self
    obtain ⟨t, ht⟩ := e.chars_eq_cons
    have hcr : '\r' ≠ quote := by rintro rfl; cases hq
    rw [hlf, put_lf, ht, List.cons_append, literalBody_cons quote fun h => absurd h (by decide),
      if_neg hcr, if_pos (show isLineBreak '\r' from rfl)]
    rfl
  | case6 c r h1 h2 hquote hbreak ih =>
    have hlf : c ≠ '\n' := by rintro rfl; exact hbreak rfl
    rw [put_cons e hlf, literalBody_cons quote, if_neg hquote, if_neg hbreak,
      ih fun h => hcs (List.mem_cons_of_mem c h), Body.after, Body.after, put_append,
      put_cons e hlf]
    · rfl
    · intro hc
      rw [eq_nil_of_not_escape h2 hc]
      rfl

/-! ## Pieces -/

/-- White space is the same up to line breaks, also where it starts with one. -/
theorem ofClass_put_blank {c c' : Char} {r r' : List Char} (hc : isBlank c)
    (hput : e.put (c :: r) = c' :: r') :
    OfClass c' r' ⟨.whitespace, e.put (c :: r.takeWhile isBlank)⟩ := by
  have hc' : isBlank c' := by
    by_cases hlf : c = '\n'
    · obtain ⟨t, ht⟩ := e.chars_eq_cons
      rw [hlf, put_lf, ht, List.cons_append] at hput
      rw [← (List.cons.inj hput).1]
      rfl
    · rw [put_cons e hlf] at hput
      rwa [← (List.cons.inj hput).1]
  have htake := takeWhile_put e (p := isBlank) rfl (c :: r)
  rw [hput, List.takeWhile_cons_of_pos hc, List.takeWhile_cons_of_pos hc'] at htake
  rw [← htake]
  exact .blank hc'

/-- The first piece is the same up to line breaks. -/
theorem first_put {c c' : Char} {r r' : List Char} (hcs : '\r' ∉ c :: r)
    (hput : e.put (c :: r) = c' :: r') :
    first c' r' = ⟨(first c r).kind, e.put (first c r).chars⟩ := by
  have hclass := ofClass_first c r
  generalize first c r = l at hclass
  apply OfClass.eq_first
  -- Only white space starts with a line break.
  by_cases hblank : isBlank c
  · rw [← hclass.eq_first, (OfClass.blank hblank).eq_first]
    exact ofClass_put_blank e hblank hput
  have hlf : c ≠ '\n' := by rintro rfl; exact hblank rfl
  rw [put_cons e hlf] at hput
  obtain ⟨rfl, rfl⟩ := List.cons.inj hput
  have hself {p : Char → Bool} (hp : p '\n' = false) {a : List Char} (ha : ∀ x ∈ a, p x) :
      e.put a = a := by
    refine put_of_not_mem e fun h => ?_
    have := ha _ h
    rw [hp] at this
    cases this
  cases hclass with
  | blank hc => exact absurd hc hblank
  | word hc =>
    have hword := OfClass.word (r := e.put r) hc
    rw [takeWhile_put_of_false e rfl rfl] at hword
    rwa [classified, hself (p := isWordPart) rfl fun x hx => isWordPart_of_mem_word hc hx]
  | number hc =>
    have hnumber := e.number_put (c :: r)
    have hstarts := e.startsNumber_put (c :: r)
    rw [put_cons e hlf] at hnumber hstarts
    have h := OfClass.number (hstarts.trans hc)
    rw [hnumber] at h
    rwa [hself (p := isNumberPart) rfl fun x hx => isNumberPart_of_mem_number hx]
  | literal hc =>
    have hbreak : isLineBreak c = false := by
      rw [← Bool.not_eq_true]
      exact fun h => hblank (Text.isBlank_of_isLineBreak h)
    have hbody := e.literalBody_put hbreak fun h => hcs (List.mem_cons_of_mem c h)
    have h := OfClass.literal (r := e.put r) hc
    rw [literal, hbody] at h
    rwa [literal, put_cons e hlf]
  | bracket hc =>
    rw [put_cons e hlf]
    exact .bracket hc
  | lineComment hc =>
    have hopens := e.opensLineComment_put (c :: r)
    have hrest := e.restOfLine_put (c :: r)
    rw [put_cons e hlf] at hopens hrest
    have h := OfClass.lineComment (hopens.trans hc)
    rw [hrest] at h
    have hline (x : Char) (hx : x ∈ restOfLine (c :: r)) : !isLineBreak x :=
      List.mem_takeWhile_imp (p := fun c => !isLineBreak c) hx
    rwa [hself (p := fun x => !isLineBreak x) rfl hline]
  | blockComment hc =>
    obtain ⟨s, rfl, rfl⟩ := eq_cons_of_opensBlockComment hc
    have hstar : e.put ('*' :: s) = '*' :: e.put s := put_cons e (by decide) s
    have h := OfClass.blockComment (c := '/') (r := '*' :: e.put s) rfl
    rw [List.drop_one, List.tail_cons, e.blockBody_put] at h
    have hchars : e.put ('/' :: '*' :: blockBody s) = '/' :: '*' :: e.put (blockBody s) := by
      rw [put_cons e hlf, put_cons e (by decide)]
    rw [hstar]
    show OfClass '/' _ ⟨.comment, e.put ('/' :: '*' :: blockBody s)⟩
    rwa [hchars]
  | operators hop hc =>
    have hopens := e.opensComment_put (c :: r)
    have hrun := e.operatorRun_put (c :: r)
    rw [put_cons e hlf] at hopens hrun
    have h := OfClass.operators hop (hopens.trans hc)
    rw [hrun] at h
    have hself := hself (p := isOperatorChar) (a := operatorRun (c :: r)) rfl
      fun x hx => isOperatorChar_of_mem_operatorRun hx
    rwa [classified, hself]
  | invalid hblank hword hnumber hquote hbracket hoperator =>
    have hstarts := e.startsNumber_put (c :: r)
    rw [put_cons e hlf] at hstarts
    rw [put_cons e hlf]
    exact .invalid hblank hword (hstarts.trans hnumber) hquote hbracket hoperator

/-! ## Tokens -/

/-- A text with a line break in place of its line feeds. -/
def putText (text : String) : String := String.ofList (e.put text.toList)

/-- A token of a text where it lies in the text with other line breaks. -/
def putToken (text : String) (t : Token) : Token :=
  ⟨t.kind, e.putText t.lexeme, (e.put (text.toList.take t.start)).length,
    ⟨byteLength (e.put (text.toList.take t.start)),
      byteLength (e.put (text.toList.take t.stop))⟩⟩

@[simp] theorem putToken_kind (text : String) (t : Token) : (e.putToken text t).kind = t.kind := rfl

@[simp] theorem putToken_lexeme (text : String) (t : Token) :
    (e.putToken text t).lexeme = e.putText t.lexeme := rfl

theorem putToken_toToken {text : String} {a w b : List Char} (htext : text.toList = a ++ (w ++ b))
    (kind : TokenKind) :
    e.putToken text (Lexeme.toToken ⟨kind, w⟩ a.length (byteLength a)) =
      Lexeme.toToken ⟨kind, e.put w⟩ (e.put a).length (byteLength (e.put a)) := by
  have hstart : text.toList.take a.length = a := by rw [htext, List.take_left]
  have hstop : text.toList.take (a.length + w.length) = a ++ w := by
    rw [htext, ← List.append_assoc, ← List.length_append, List.take_left]
  rw [putToken, stop_toToken]
  simp only [toToken, putText, String.toList_ofList, hstart, hstop, put_append, byteLength_append]

theorem tokensFrom_put {text : String} (hcr : '\r' ∉ text.toList) (a cs : List Char)
    (htext : text.toList = a ++ cs) :
    tokensFrom (e.put a).length (byteLength (e.put a)) (e.put cs) =
      (tokensFrom a.length (byteLength a) cs).map (e.putToken text) := by
  match cs with
  | [] =>
    rw [put_nil, tokensFrom_nil, tokensFrom_nil]
    rfl
  | c :: r =>
    have hcs : '\r' ∉ c :: r := fun h => hcr (htext ▸ List.mem_append_right a h)
    obtain ⟨c', r', hput⟩ := List.exists_cons_of_ne_nil
      (mt (put_eq_nil e).mp (List.cons_ne_nil c r))
    have hfirst := e.first_put hcs hput
    have hcut := first_append_drop c r
    have hdec := length_drop_first_lt c r
    rw [hput, tokensFrom_cons, tokensFrom_cons, hfirst, ← hput, List.map_cons]
    generalize first c r = piece at hcut hdec ⊢
    generalize (c :: r).drop piece.chars.length = rest at hcut hdec ⊢
    rw [← hcut] at htext
    have hrest : (e.put (c :: r)).drop (e.put piece.chars).length = e.put rest := by
      rw [← hcut, put_append, List.drop_left]
    have ih := tokensFrom_put hcr (a ++ piece.chars) rest (by rw [htext, List.append_assoc])
    rw [put_append, List.length_append, List.length_append, byteLength_append,
      byteLength_append] at ih
    rw [hrest, ih, e.putToken_toToken htext piece.kind]
termination_by cs.length
decreasing_by exact hdec

/-- The tokens of a text with other line breaks are those of the text, one by one. -/
theorem tokenize_put {text : String} (hcr : '\r' ∉ text.toList) :
    tokenize (e.putText text) = (tokenize text).map (e.putToken text) := by
  rw [tokenize, putText, String.toList_ofList]
  exact e.tokensFrom_put hcr [] text.toList rfl

end LineEnding

end ContractScan
