import ContractScan.Proofs.Delimiters

/-
  How far the readers of pieces look ahead. Each reader takes a piece from the start of a text
  by what it finds there. Two facts hold of each of them:

  * A piece taken by itself is read to its end (`number_self`, `literalBody_self`,
    `blockBody_self`, `operatorRun_self`). Nothing behind a piece belongs to it.
  * If a text holds more than its piece, then what follows the text does not change the piece
    (`literalBody_append`, `blockBody_append`, `operatorRun_append`). A numeric literal may see
    two characters further, so it asks for a character that is no part of one (`number_append`).
-/

namespace ContractScan

open ContractScan.Text (isBlank isLineBreak)
open ContractScan.Vocabulary (isOperatorChar)

/-! ## Runs of a class of characters -/

theorem takeWhile_takeWhile_of_imp {p q : Char → Bool} (h : ∀ c, p c → q c) (cs : List Char) :
    (cs.takeWhile q).takeWhile p = cs.takeWhile p := by
  rw [List.takeWhile_takeWhile]
  congr 1
  funext c
  have := h c
  cases hp : p c <;> simp_all

theorem takeWhile_append_of_ne {p : Char → Bool} {a : List Char} (h : a.takeWhile p ≠ a)
    (b : List Char) : (a ++ b).takeWhile p = a.takeWhile p := by
  rw [List.takeWhile_append, if_neg]
  exact fun hlen => h (List.IsPrefix.eq_of_length (List.takeWhile_prefix p) hlen)

theorem takeWhile_ne_of_getLast? {p : Char → Bool} {a : List Char} {x : Char}
    (h : a.getLast? = some x) (hx : p x = false) : a.takeWhile p ≠ a := by
  intro heq
  rw [List.takeWhile_eq_self_iff] at heq
  rw [heq x (List.mem_of_getLast? h)] at hx
  cases hx

theorem drop_takeWhile {p : Char → Bool} {a cs : List Char} (ha : a <+: cs) (h : ∀ c ∈ a, p c) :
    (cs.takeWhile p).drop a.length = (cs.drop a.length).takeWhile p := by
  obtain ⟨b, rfl⟩ := ha
  rw [List.takeWhile_append_of_pos h, List.drop_left, List.drop_left]

namespace Lexeme

/-! ## Numeric literals -/

theorem isDigit_of_mem_digits {c : Char} {cs : List Char} (h : c ∈ digits cs) : c.isDigit :=
  List.mem_takeWhile_imp h

theorem digits_self (cs : List Char) : digits (digits cs) = digits cs := List.takeWhile_idem

theorem digits_append {d t : List Char} (hd : ∀ c ∈ d, c.isDigit)
    (ht : ∀ c ∈ t.head?, c.isDigit = false) : digits (d ++ t) = d := by
  rw [digits, List.takeWhile_append_of_pos hd]
  cases t with
  | nil => simp
  | cons c t => rw [List.takeWhile_cons_of_neg (by simp [ht c rfl]), List.append_nil]

theorem digits_cons_of_ne_nil {c : Char} {r : List Char} (h : digits (c :: r) ≠ []) :
    c.isDigit ∧ digits (c :: r) = c :: digits r := by
  by_cases hc : c.isDigit
  · exact ⟨hc, List.takeWhile_cons_of_pos hc⟩
  · exact absurd (List.takeWhile_cons_of_neg hc) h

theorem head?_fraction {c : Char} {cs : List Char} (h : c ∈ (fraction cs).head?) : c = '.' := by
  unfold fraction at h
  split at h
  · split at h
    · cases h
    · exact (Option.some.inj h).symm
  · cases h

theorem head?_exponent {c : Char} {cs : List Char} (h : c ∈ (exponent cs).head?) :
    isExponentMark c := by
  unfold exponent at h
  split at h
  · split at h
    · next he =>
      split at h <;> split at h
      · cases h
      · rwa [← Option.some.inj h]
      · cases h
      · rwa [← Option.some.inj h]
    · cases h
  · cases h

theorem isExponentMark_iff {c : Char} : isExponentMark c ↔ c = 'e' ∨ c = 'E' := by
  rw [isExponentMark, Bool.or_eq_true, beq_iff_eq, beq_iff_eq]

theorem eq_false_of_isExponentMark {p : Char → Bool} (hp : ['e', 'E'].all fun c => !p c) {c : Char}
    (h : isExponentMark c) : p c = false := by
  simp only [List.all_cons, List.all_nil, Bool.and_true, Bool.and_eq_true, Bool.not_eq_true'] at hp
  rcases isExponentMark_iff.mp h with rfl | rfl
  · exact hp.1
  · exact hp.2

theorem exponent_self (cs : List Char) : exponent (exponent cs) = exponent cs := by
  fun_cases exponent cs with
  | case1 => rfl
  | case2 e s r he hs hd => simp [exponent, he, hs, digits_self, hd]
  | case3 => rfl
  | case4 e s r he hs hd =>
    obtain ⟨hdigit, hcons⟩ := digits_cons_of_ne_nil hd
    have hself := digits_self (s :: r)
    rw [hcons] at hself ⊢
    simp [exponent, he, hs, hself]
  | case5 => rfl
  | case6 => rfl

theorem fraction_of_isExponentMark {t : List Char} (ht : ∀ c ∈ t.head?, isExponentMark c) :
    fraction t = [] := by
  unfold fraction
  split
  · have : isExponentMark '.' := ht '.' rfl
    cases this
  · rfl

theorem fraction_append {t : List Char} (ht : ∀ c ∈ t.head?, isExponentMark c) (cs : List Char) :
    fraction (fraction cs ++ t) = fraction cs := by
  fun_cases fraction cs with
  | case1 => exact fraction_of_isExponentMark ht
  | case2 r hr =>
    have hdigits : digits (digits r ++ t) = digits r :=
      digits_append (fun _ hc => isDigit_of_mem_digits hc) fun c hc =>
        eq_false_of_isExponentMark (by decide) (ht c hc)
    rw [List.cons_append, fraction, hdigits, if_neg hr]
  | case3 => exact fraction_of_isExponentMark ht

theorem number_of_parts {d t u : List Char} (hd : ∀ c ∈ d, c.isDigit) :
    number (d ++ (fraction t ++ exponent u)) = d ++ (fraction t ++ exponent u) := by
  have hexp : ∀ c ∈ (exponent u).head?, isExponentMark c := fun c hc => head?_exponent hc
  have htail : ∀ c ∈ (fraction t ++ exponent u).head?, c.isDigit = false := by
    intro c hc
    cases hf : fraction t with
    | nil =>
      rw [hf] at hc
      exact eq_false_of_isExponentMark (by decide) (hexp c hc)
    | cons e f =>
      have he : e = '.' := head?_fraction (show e ∈ (fraction t).head? by rw [hf]; rfl)
      rw [hf, List.cons_append, List.head?_cons, Option.mem_some_iff] at hc
      rw [← hc, he]
      rfl
  rw [number, digits_append hd htail, List.drop_left, fraction_append hexp, List.drop_left,
    exponent_self]

theorem number_self (cs : List Char) : number (number cs) = number cs :=
  number_of_parts fun _ hc => isDigit_of_mem_digits hc

/-! A numeric literal is read off the characters at the start of a text that it may hold. -/

theorem digits_takeWhile (cs : List Char) : digits (cs.takeWhile isNumberPart) = digits cs :=
  takeWhile_takeWhile_of_imp (fun c h => by simp [isNumberPart, h]) cs

theorem fraction_takeWhile (cs : List Char) :
    fraction (cs.takeWhile isNumberPart) = fraction cs := by
  cases cs with
  | nil => rfl
  | cons c r =>
    by_cases hc : c = '.'
    · subst hc
      have hpart : isNumberPart '.' := rfl
      rw [List.takeWhile_cons_of_pos hpart, fraction, fraction, digits_takeWhile]
    · have hnil : fraction (c :: r) = [] := by simp [fraction, hc]
      have hnil' : fraction (c :: r.takeWhile isNumberPart) = [] := by simp [fraction, hc]
      rw [hnil, List.takeWhile_cons]
      split
      · exact hnil'
      · rfl

theorem exponent_takeWhile (cs : List Char) :
    exponent (cs.takeWhile isNumberPart) = exponent cs := by
  match cs with
  | [] => rfl
  | [e] =>
    rw [List.takeWhile_cons]
    split <;> rfl
  | e :: s :: r =>
    by_cases he : isExponentMark e
    · have hpart : isNumberPart e := by simp [isNumberPart, he]
      have hdigits := digits_takeWhile (s :: r)
      rw [List.takeWhile_cons_of_pos hpart]
      by_cases hs : isNumberPart s
      · rw [List.takeWhile_cons_of_pos hs] at hdigits ⊢
        simp only [exponent, he, hdigits, digits_takeWhile]
      · rw [List.takeWhile_cons_of_neg hs] at hdigits ⊢
        have hsign : isSign s = false := by
          simp only [isNumberPart, Bool.or_eq_true, not_or, Bool.not_eq_true] at hs
          exact hs.2
        have hnil : digits (s :: r) = [] := hdigits.symm
        simp [exponent, he, hsign, hnil]
    · have hnil : ∀ t, exponent (e :: t) = [] := by
        intro t
        cases t <;> simp [exponent, he]
      rw [hnil, List.takeWhile_cons]
      split
      · exact hnil _
      · rfl

theorem number_takeWhile (cs : List Char) : number (cs.takeWhile isNumberPart) = number cs := by
  have hdigits := drop_takeWhile (digits_isPrefix cs) fun c hc => isNumberPart_of_mem_digits hc
  rw [number, number, digits_takeWhile, hdigits]
  generalize cs.drop (digits cs).length = t
  have hfraction := drop_takeWhile (fraction_isPrefix t) fun c hc => isNumberPart_of_mem_fraction hc
  rw [fraction_takeWhile, hfraction, exponent_takeWhile]

theorem number_append {a : List Char} (h : a.takeWhile isNumberPart ≠ a) (b : List Char) :
    number (a ++ b) = number a := by
  rw [← number_takeWhile (a ++ b), takeWhile_append_of_ne h, number_takeWhile]

theorem startsNumber_append {a : List Char} (h : startsNumber a) (b : List Char) :
    startsNumber (a ++ b) := by
  rcases startsNumber_iff.mp h with ⟨d, r, rfl, hd⟩ | ⟨d, r, rfl, hd⟩
  · exact startsNumber_iff.mpr (Or.inl ⟨d, r ++ b, rfl, hd⟩)
  · exact startsNumber_iff.mpr (Or.inr ⟨d, r ++ b, rfl, hd⟩)

/-- What follows two characters does not decide whether a numeric literal starts at the first. -/
theorem startsNumber_append_of_lt {a : List Char} (h : 1 < a.length) (b : List Char) :
    startsNumber (a ++ b) = startsNumber a := by
  match a, h with
  | c :: d :: r, _ =>
    by_cases hdot : c = '.'
    · subst hdot
      rfl
    · rw [List.cons_append, startsNumber_cons hdot, startsNumber_cons hdot]

theorem startsNumber_number {cs : List Char} (h : startsNumber cs) : startsNumber (number cs) := by
  rcases startsNumber_iff.mp h with ⟨d, r, rfl, hd⟩ | ⟨d, r, rfl, hd⟩
  · have hdigits : digits (d :: r) = d :: digits r := List.takeWhile_cons_of_pos hd
    obtain ⟨s, hs⟩ : ∃ s, number (d :: r) = d :: s := by
      rw [number, hdigits, List.cons_append]
      exact ⟨_, rfl⟩
    exact startsNumber_iff.mpr (Or.inl ⟨d, s, hs, hd⟩)
  · have hdigits : digits (d :: r) = d :: digits r := List.takeWhile_cons_of_pos hd
    have hnone : digits ('.' :: d :: r) = [] := rfl
    have hfraction : fraction ('.' :: d :: r) = '.' :: d :: digits r := by
      rw [fraction, hdigits, if_neg (List.cons_ne_nil _ _)]
    obtain ⟨s, hs⟩ : ∃ s, number ('.' :: d :: r) = '.' :: d :: s := by
      rw [number, hnone, List.nil_append, List.length_nil, List.drop_zero, hfraction,
        List.cons_append, List.cons_append]
      exact ⟨_, rfl⟩
    exact startsNumber_iff.mpr (Or.inr ⟨d, s, hs, hd⟩)

/-! ## String literals -/

theorem literalBody_escape (quote : Char) {c : Char} {r : List Char}
    (h : ∀ s, c = '\r' → r ≠ '\n' :: s) :
    literalBody quote ('\\' :: c :: r) = (literalBody quote r).after ['\\', c] := by
  rw [literalBody]
  exact fun s hc hr => h s hc hr

/-- A character that takes no other one with it. -/
theorem literalBody_cons (quote : Char) {c : Char} {r : List Char} (h : c = '\\' → r = []) :
    literalBody quote (c :: r) =
      if c = quote then ⟨[c], true⟩
      else if isLineBreak c then ⟨[], false⟩
      else (literalBody quote r).after [c] := by
  rw [literalBody]
  · rintro s hc hr
    rw [h hc] at hr
    cases hr
  · rintro d s hc hr
    rw [h hc] at hr
    cases hr

/-- A backslash that takes no character with it is the last character. -/
theorem eq_nil_of_not_escape {c : Char} {r : List Char} (h : ∀ d s, c = '\\' → r ≠ d :: s)
    (hc : c = '\\') : r = [] := by
  cases r with
  | nil => rfl
  | cons d r => exact absurd rfl (h d r hc)

theorem Body.ne_of_after_ne {w r : List Char} {body : Body}
    (h : (body.after w).chars ≠ w ++ r) : body.chars ≠ r :=
  fun hr => h (by rw [Body.after, hr])

theorem literalBody_self (quote : Char) (cs : List Char) :
    literalBody quote (literalBody quote cs).chars = literalBody quote cs := by
  fun_induction literalBody quote cs with
  | case1 => rfl
  | case2 r ih =>
    rw [Body.after, List.cons_append, List.cons_append, List.cons_append, List.nil_append,
      literalBody, ih, Body.after]
    rfl
  | case3 c r hne ih =>
    have hne' : ∀ s, c = '\r' → (literalBody quote r).chars ≠ '\n' :: s := by
      intro s hc hs
      obtain ⟨t, ht⟩ := literalBody_isPrefix quote r
      rw [hs] at ht
      exact hne _ hc ht.symm
    rw [Body.after, List.cons_append, List.cons_append, List.nil_append,
      literalBody_escape quote hne', ih, Body.after]
    rfl
  | case4 r => rw [literalBody_cons quote fun _ => rfl, if_pos rfl]
  | case5 => rfl
  | case6 c r h1 h2 hq hb ih =>
    have hc : c = '\\' → (literalBody quote r).chars = [] := by
      intro hc
      rw [eq_nil_of_not_escape h2 hc]
      rfl
    rw [Body.after, List.singleton_append, literalBody_cons quote hc, if_neg hq, if_neg hb, ih,
      Body.after]
    rfl

theorem literalBody_append {quote : Char} {a : List Char} (h : (literalBody quote a).chars ≠ a)
    (b : List Char) : literalBody quote (a ++ b) = literalBody quote a := by
  fun_induction literalBody quote a with
  | case1 => exact absurd rfl h
  | case2 r ih =>
    have hr : (literalBody quote r).chars ≠ r := Body.ne_of_after_ne h
    rw [List.cons_append, List.cons_append, List.cons_append, literalBody, ih hr]
  | case3 c r hne ih =>
    have hr : (literalBody quote r).chars ≠ r := Body.ne_of_after_ne h
    have hne' : ∀ s, c = '\r' → r ++ b ≠ '\n' :: s := by
      intro s hc hs
      cases r with
      | nil => exact hr rfl
      | cons d r =>
        injection hs with hd
        exact hne r hc (by rw [hd])
    rw [List.cons_append, List.cons_append, literalBody_escape quote hne', ih hr]
  | case4 r h1 h2 =>
    have hc : quote ≠ '\\' := fun hc => h (by rw [eq_nil_of_not_escape h2 hc])
    rw [List.cons_append, literalBody_cons quote fun h => absurd h hc, if_pos rfl]
  | case5 c r h1 h2 hq hb =>
    have hc : c ≠ '\\' := by
      rintro rfl
      cases hb
    rw [List.cons_append, literalBody_cons quote fun h => absurd h hc, if_neg hq, if_pos hb]
  | case6 c r h1 h2 hq hb ih =>
    have hr : (literalBody quote r).chars ≠ r := Body.ne_of_after_ne h
    have hc : c ≠ '\\' := fun hc => hr (by rw [eq_nil_of_not_escape h2 hc]; rfl)
    rw [List.cons_append, literalBody_cons quote fun h => absurd h hc, if_neg hq, if_neg hb, ih hr]

/-! ## Comments -/

theorem restOfLine_self (cs : List Char) : restOfLine (restOfLine cs) = restOfLine cs :=
  List.takeWhile_idem

theorem eq_cons_of_opensLineComment {c : Char} {r : List Char} (h : opensLineComment (c :: r)) :
    ∃ s, c = '/' ∧ r = '/' :: s := by
  obtain ⟨s, hs⟩ := opensLineComment_iff.mp h
  injection hs with hc hr
  exact ⟨s, hc.symm, hr.symm⟩

theorem eq_cons_of_opensBlockComment {c : Char} {r : List Char} (h : opensBlockComment (c :: r)) :
    ∃ s, c = '/' ∧ r = '*' :: s := by
  obtain ⟨s, hs⟩ := opensBlockComment_iff.mp h
  injection hs with hc hr
  exact ⟨s, hc.symm, hr.symm⟩

theorem blockBody_self (cs : List Char) : blockBody (blockBody cs) = blockBody cs := by
  fun_induction blockBody cs with
  | case1 => rfl
  | case2 r => rfl
  | case3 c r hne ih =>
    rw [blockBody, ih]
    intro s hc hs
    obtain ⟨t, ht⟩ := blockBody_isPrefix r
    rw [hs] at ht
    exact hne _ hc ht.symm

theorem blockBody_append {a : List Char} (h : blockBody a ≠ a) (b : List Char) :
    blockBody (a ++ b) = blockBody a := by
  fun_induction blockBody a with
  | case1 => exact absurd rfl h
  | case2 r => rfl
  | case3 c r hne ih =>
    have hr : blockBody r ≠ r := fun hr => h (by rw [hr])
    rw [List.cons_append, blockBody, ih hr]
    intro s hc hs
    cases r with
    | nil => exact hr rfl
    | cons d r =>
      injection hs with hd
      exact hne r hc (by rw [hd])

/-! ## Runs of operators -/

theorem opensComment_of_prefix_eq_false {a cs : List Char} (h : a <+: cs)
    (hcs : opensComment cs = false) : opensComment a = false := by
  rw [← Bool.not_eq_true, opensComment_iff] at hcs ⊢
  exact mt (fun ha => ha.imp (fun ha => ha.trans h) fun ha => ha.trans h) hcs

theorem operatorRun_self (cs : List Char) : operatorRun (operatorRun cs) = operatorRun cs := by
  induction cs with
  | nil => rfl
  | cons c r ih =>
    rw [operatorRun]
    split
    · next h =>
      rw [Bool.and_eq_true, Bool.not_eq_true'] at h
      have hpre : c :: operatorRun r <+: c :: r :=
        (List.prefix_cons_inj c).mpr (operatorRun_isPrefix r)
      rw [operatorRun, h.1, opensComment_of_prefix_eq_false hpre h.2, ih]
      rfl
    · rfl

/-- What follows two characters decides nothing about comments at the first. -/
theorem opensComment_append {a : List Char} (h : 1 < a.length) (b : List Char) :
    opensComment (a ++ b) = opensComment a := by
  match a, h with
  | c :: d :: r, _ =>
    rw [Bool.eq_iff_iff, opensComment_iff, opensComment_iff]
    simp

theorem operatorRun_append {a : List Char} (h : operatorRun a ≠ a) (b : List Char) :
    operatorRun (a ++ b) = operatorRun a := by
  induction a with
  | nil => exact absurd rfl h
  | cons c r ih =>
    rw [operatorRun] at h ⊢
    rw [List.cons_append, operatorRun]
    by_cases hc : isOperatorChar c
    · cases r with
      | nil =>
        have hopens : opensComment [c] = false := by
          rw [← Bool.not_eq_true, opensComment_iff]
          simp
        rw [hc, hopens] at h
        exact absurd rfl h
      | cons d r =>
        have hopens : opensComment (c :: (d :: r ++ b)) = opensComment (c :: d :: r) :=
          opensComment_append (a := c :: d :: r) (by simp) b
        rw [hopens]
        split
        · next hrun =>
          rw [if_pos hrun] at h
          rw [ih fun hr => h (by rw [hr])]
        · rfl
    · simp [hc]

end Lexeme

end ContractScan
