import ContractScan.Lines

/-
  Where the lines of a text are cut. `CutIntoLines` says it by a grammar: a line is text without
  breaks and then one break, a line feed, the pair of both, or a carriage return that no line
  feed follows; the last line has no break. `splitLines` is the one cut of that grammar
  (`cutIntoLines_iff`).

  The lines of a text that goes on are those above its last line, and then those of its last line
  with what follows (`splitLines_append`), except where the seam parts a carriage return from its
  line feed (`SeamInBreak`). So the place of a character tells the lines above it and the
  characters before it in its own line (`locate_splitLines_append`).
-/

namespace ContractScan

open ContractScan.Text (isLineBreak)

/-! ## The grammar of lines -/

/-- A line break in front of the rest of a text. -/
inductive IsBreak : List Char → List Char → Prop
  | crlf (rest : List Char) : IsBreak ['\r', '\n'] rest
  | lf (rest : List Char) : IsBreak ['\n'] rest
  | cr {rest : List Char} (h : rest.head? ≠ some '\n') : IsBreak ['\r'] rest

/-- The lines that a text is cut into, each with its break. -/
inductive CutIntoLines : List Char → List (List Char) → Prop
  | last {l : List Char} (hl : ∀ c ∈ l, isLineBreak c = false) : CutIntoLines l [l]
  | line {l brk rest : List Char} {ls : List (List Char)}
      (hl : ∀ c ∈ l, isLineBreak c = false) (hbrk : IsBreak brk rest)
      (h : CutIntoLines rest ls) : CutIntoLines (l ++ (brk ++ rest)) ((l ++ brk) :: ls)

theorem IsBreak.isLineBreak {brk rest : List Char} (h : IsBreak brk rest) :
    ∀ c ∈ brk, Text.isLineBreak c := by
  cases h <;> simp [Text.isLineBreak]

theorem IsBreak.ne_nil {brk rest : List Char} (h : IsBreak brk rest) : brk ≠ [] := by
  cases h <;> exact List.cons_ne_nil _ _

/-- Text without breaks in front of a text goes on its first line. -/
theorem CutIntoLines.prepend {l cs m : List Char} {ls : List (List Char)}
    (hl : ∀ c ∈ l, isLineBreak c = false) (h : CutIntoLines cs (m :: ls)) :
    CutIntoLines (l ++ cs) ((l ++ m) :: ls) := by
  have hall {a : List Char} (ha : ∀ c ∈ a, isLineBreak c = false) :
      ∀ c ∈ l ++ a, isLineBreak c = false := by
    intro c hc
    rcases List.mem_append.mp hc with hc | hc
    · exact hl c hc
    · exact ha c hc
  cases h with
  | last ha => exact .last (hall ha)
  | line ha hbrk h =>
    rw [← List.append_assoc l, ← List.append_assoc l]
    exact .line (hall ha) hbrk h

/-! ## The cut of the grammar -/

theorem splitLines_lf (r : List Char) : splitLines ('\n' :: r) = ['\n'] :: splitLines r := by
  simp [splitLines, isLineBreak]

theorem splitLines_cr {r : List Char} (h : r.head? ≠ some '\n') :
    splitLines ('\r' :: r) = ['\r'] :: splitLines r := by
  cases r with
  | nil => rfl
  | cons c r =>
    have hc : c ≠ '\n' := fun e => h (by rw [e]; rfl)
    rw [splitLines]
    · simp [isLineBreak]
    · rintro r' - h'
      injection h' with h'
      exact hc h'

theorem splitLines_cons {c : Char} (h : isLineBreak c = false) (r : List Char) :
    splitLines (c :: r) = consFirst c (splitLines r) := by
  rw [splitLines]
  · simp [h]
  · rintro r' rfl -
    simp [isLineBreak] at h

theorem splitLines_append_of_break {brk rest : List Char} (h : IsBreak brk rest) :
    splitLines (brk ++ rest) = brk :: splitLines rest := by
  cases h with
  | crlf => rfl
  | lf => exact splitLines_lf rest
  | cr h => exact splitLines_cr h

theorem splitLines_append_of_forall {l cs m : List Char} {ls : List (List Char)}
    (hl : ∀ c ∈ l, isLineBreak c = false) (h : splitLines cs = m :: ls) :
    splitLines (l ++ cs) = (l ++ m) :: ls := by
  induction l with
  | nil => exact h
  | cons c l ih =>
    rw [List.cons_append, splitLines_cons (hl c List.mem_cons_self),
      ih fun x hx => hl x (List.mem_cons_of_mem _ hx)]
    rfl

theorem CutIntoLines.eq_splitLines {cs : List Char} {ls : List (List Char)}
    (h : CutIntoLines cs ls) : ls = splitLines cs := by
  induction h with
  | @last l hl =>
    have h : splitLines (l ++ []) = [l ++ []] := splitLines_append_of_forall hl rfl
    rw [List.append_nil] at h
    exact h.symm
  | line hl hbrk _ ih =>
    rw [splitLines_append_of_forall hl (splitLines_append_of_break hbrk), ih]

theorem cutIntoLines_splitLines (cs : List Char) : CutIntoLines cs (splitLines cs) := by
  fun_induction splitLines cs with
  | case1 => exact .last (by simp)
  | case2 r ih => exact .line (l := []) (by simp) (.crlf r) ih
  | case3 c r hne hc ih =>
    rcases Text.isLineBreak_iff.mp hc with rfl | rfl
    · exact .line (l := []) (by simp) (.lf r) ih
    · refine .line (l := []) (by simp) (.cr fun h => ?_) ih
      obtain ⟨r', rfl⟩ := List.head?_eq_some_iff.mp h
      exact hne r' rfl rfl
  | case4 c r _ hc ih =>
    cases hs : splitLines r with
    | nil => exact absurd hs (splitLines_ne_nil r)
    | cons m ls =>
      rw [hs] at ih
      exact CutIntoLines.prepend (l := [c]) (by simpa using hc) ih

/-- The lines of a text are its one cut by the grammar. -/
theorem cutIntoLines_iff {cs : List Char} {ls : List (List Char)} :
    CutIntoLines cs ls ↔ ls = splitLines cs := by
  constructor
  · exact CutIntoLines.eq_splitLines
  · rintro rfl
    exact cutIntoLines_splitLines cs

theorem length_splitLines_le (cs : List Char) : (splitLines cs).length ≤ cs.length + 1 := by
  have h := cutIntoLines_splitLines cs
  generalize splitLines cs = ls at h
  induction h with
  | last => simp
  | line _ hbrk _ ih =>
    have : 0 < (List.length _) := List.length_pos_iff.mpr hbrk.ne_nil
    rw [List.length_cons, List.length_append, List.length_append]
    omega

/-- A line is text without breaks and then its break. -/
theorem exists_of_mem_splitLines {cs l : List Char} (h : l ∈ splitLines cs) :
    ∃ a b, l = a ++ b ∧ (∀ c ∈ a, isLineBreak c = false) ∧ ∀ c ∈ b, isLineBreak c := by
  have hcut := cutIntoLines_splitLines cs
  generalize splitLines cs = ls at h hcut
  induction hcut with
  | @last a ha =>
    rw [List.mem_singleton.mp h]
    exact ⟨a, [], (List.append_nil a).symm, ha, by simp⟩
  | @line a brk rest ls ha hbrk _ ih =>
    rcases List.mem_cons.mp h with rfl | h
    · exact ⟨a, brk, rfl, ha, hbrk.isLineBreak⟩
    · exact ih h

/-! ## Characters of lines -/

/-- The characters above a line. -/
def charsAbove (ls : List (List Char)) (line : Nat) : Nat := (ls.take line).flatten.length

theorem charsAbove_succ {ls : List (List Char)} {i : Nat} {l : List Char} (h : ls[i]? = some l) :
    charsAbove ls (i + 1) = charsAbove ls i + l.length := by
  unfold charsAbove
  rw [List.take_add_one, h, Option.toList_some, List.flatten_append, List.flatten_singleton,
    List.length_append]

theorem charsAbove_mono (ls : List (List Char)) {i j : Nat} (h : i ≤ j) :
    charsAbove ls i ≤ charsAbove ls j := by
  obtain ⟨s, hs⟩ := List.take_prefix_take_left h (l := ls)
  unfold charsAbove
  rw [← hs, List.flatten_append, List.length_append]
  exact Nat.le_add_right _ _

theorem charsAbove_length (above below : List (List Char)) :
    charsAbove (above ++ below) above.length = above.flatten.length := by
  rw [charsAbove, List.take_left]

/-- What follows a character of a line: the rest of the line and the lines below it. -/
theorem drop_flatten_of_line {ls : List (List Char)} {i k : Nat} {l : List Char}
    (hl : ls[i]? = some l) (hk : k ≤ l.length) :
    ls.flatten.drop (charsAbove ls i + k) = l.drop k ++ (ls.drop (i + 1)).flatten := by
  obtain ⟨hi, rfl⟩ := List.getElem?_eq_some_iff.mp hl
  have happ : ls = ls.take i ++ ls[i] :: ls.drop (i + 1) := by
    rw [← List.drop_eq_getElem_cons hi, List.take_append_drop]
  have hflat : ls.flatten = (ls.take i).flatten ++ (ls[i] ++ (ls.drop (i + 1)).flatten) := by
    conv => lhs; rw [happ]
    rw [List.flatten_append, List.flatten_cons]
  rw [hflat, charsAbove, List.drop_length_add_append, List.drop_append_of_le_length hk]

/-- The characters of the lines are those of the text, in order. -/
theorem getElem?_flatten_of_line {ls : List (List Char)} {i k : Nat} {l : List Char}
    (hl : ls[i]? = some l) (hk : k < l.length) : ls.flatten[charsAbove ls i + k]? = l[k]? := by
  have h := congrArg List.head? (drop_flatten_of_line hl (Nat.le_of_lt hk))
  rw [List.head?_drop] at h
  rw [h, List.drop_eq_getElem_cons hk, List.cons_append, List.head?_cons,
    List.getElem?_eq_getElem hk]

/-! ## Going on after a text -/

/-- The lines of a text above its last one. -/
def linesAbove (a : List Char) : List (List Char) := (splitLines a).dropLast

/-- The last line of a text. -/
def lineSoFar (a : List Char) : List Char := (splitLines a).getLast (splitLines_ne_nil a)

/-- Whether the seam of two texts parts a carriage return from its line feed. -/
def SeamInBreak (a b : List Char) : Prop := a.getLast? = some '\r' ∧ b.head? = some '\n'

theorem linesAbove_append_lineSoFar (a : List Char) :
    linesAbove a ++ [lineSoFar a] = splitLines a :=
  List.dropLast_concat_getLast (splitLines_ne_nil a)

theorem flatten_linesAbove (a : List Char) : (linesAbove a).flatten ++ lineSoFar a = a := by
  have := congrArg List.flatten (linesAbove_append_lineSoFar a)
  rwa [flatten_splitLines, List.flatten_append, List.flatten_singleton] at this

theorem length_linesAbove_add (a : List Char) :
    (linesAbove a).flatten.length + (lineSoFar a).length = a.length := by
  rw [← List.length_append, flatten_linesAbove]

theorem linesAbove_of_forall {l : List Char} (hl : ∀ c ∈ l, isLineBreak c = false) :
    linesAbove l = [] ∧ lineSoFar l = l := by
  have h := (CutIntoLines.last hl).eq_splitLines
  simp only [linesAbove, lineSoFar, ← h]
  exact ⟨rfl, rfl⟩

theorem linesAbove_of_line {l brk rest : List Char} (hl : ∀ c ∈ l, isLineBreak c = false)
    (hbrk : IsBreak brk rest) :
    linesAbove (l ++ (brk ++ rest)) = (l ++ brk) :: linesAbove rest ∧
      lineSoFar (l ++ (brk ++ rest)) = lineSoFar rest := by
  have h := (CutIntoLines.line hl hbrk (cutIntoLines_splitLines rest)).eq_splitLines
  simp only [linesAbove, lineSoFar, ← h]
  exact ⟨List.dropLast_cons_of_ne_nil (splitLines_ne_nil rest),
    List.getLast_cons (splitLines_ne_nil rest)⟩

theorem not_isLineBreak_lineSoFar (a : List Char) :
    ∀ c ∈ lineSoFar a, isLineBreak c = false := by
  have h := cutIntoLines_splitLines a
  generalize splitLines a = ls at h
  induction h with
  | last hl => rwa [(linesAbove_of_forall hl).2]
  | line hl hbrk _ ih => rwa [(linesAbove_of_line hl hbrk).2]

theorem IsBreak.append {brk rest b : List Char} (h : IsBreak brk rest)
    (hs : ¬ SeamInBreak (brk ++ rest) b) : IsBreak brk (rest ++ b) := by
  cases h with
  | crlf => exact .crlf _
  | lf => exact .lf _
  | cr h =>
    refine .cr fun hhead => ?_
    cases rest with
    | nil => exact hs ⟨rfl, hhead⟩
    | cons c rest => exact h hhead

theorem SeamInBreak.append_left {a b : List Char} (h : SeamInBreak a b) (l : List Char) :
    SeamInBreak (l ++ a) b := by
  obtain ⟨ha, hb⟩ := h
  exact ⟨by rw [List.getLast?_append, ha]; rfl, hb⟩

theorem splitLines_append {a b : List Char} (hs : ¬ SeamInBreak a b) :
    splitLines (a ++ b) = linesAbove a ++ splitLines (lineSoFar a ++ b) := by
  have h := cutIntoLines_splitLines a
  generalize splitLines a = ls at h
  induction h with
  | last hl =>
    obtain ⟨habove, hlast⟩ := linesAbove_of_forall hl
    rw [habove, hlast, List.nil_append]
  | @line l brk rest ls hl hbrk _ ih =>
    obtain ⟨habove, hlast⟩ := linesAbove_of_line hl hbrk
    have hbrk' : IsBreak brk (rest ++ b) := hbrk.append fun h => hs (h.append_left l)
    rw [List.append_assoc, List.append_assoc,
      splitLines_append_of_forall hl (splitLines_append_of_break hbrk'), habove, hlast,
      ih fun h => hs ((h.append_left brk).append_left l)]
    rfl

/-- The last line of a text goes on with what follows. -/
theorem exists_line_of_append {a b : List Char} (hs : ¬ SeamInBreak a b) :
    ∃ m, (splitLines (a ++ b))[(linesAbove a).length]? = some (lineSoFar a ++ m) := by
  cases hb : splitLines b with
  | nil => exact absurd hb (splitLines_ne_nil b)
  | cons m ms =>
    refine ⟨m, ?_⟩
    rw [splitLines_append hs, splitLines_append_of_forall (not_isLineBreak_lineSoFar a) hb,
      List.getElem?_append_right (Nat.le_refl _), Nat.sub_self]
    rfl

/-! ## Places -/

theorem eq_nil_of_splitLines_eq {b : List Char} {ms : List (List Char)}
    (h : splitLines b = [] :: ms) : ms = [] := by
  have hcut := cutIntoLines_splitLines b
  rw [h] at hcut
  generalize hm : ([] : List Char) :: ms = ls at hcut
  cases hcut with
  | last => injection hm
  | line hl hbrk =>
    injection hm with hm
    have := (List.append_eq_nil_iff.mp hm.symm).2
    subst this
    cases hbrk

theorem locate_append {ls : List (List Char)} {x m : List Char} {ms : List (List Char)}
    (h : m = [] → ms = []) :
    LineIndex.locate (ls ++ (x ++ m) :: ms) (ls.flatten.length + x.length) =
      ⟨ls.length, x.length⟩ := by
  induction ls with
  | nil =>
    cases ms with
    | nil => simp [LineIndex.locate]
    | cons m' ms =>
      have hm : 0 < m.length := List.length_pos_iff.mpr fun e => List.cons_ne_nil _ _ (h e)
      simp [LineIndex.locate, hm]
  | cons l ls ih =>
    have hlt : ¬ l.length + ls.flatten.length + x.length < l.length := by omega
    have hsub : l.length + ls.flatten.length + x.length - l.length =
        ls.flatten.length + x.length := by omega
    rw [List.cons_append, List.flatten_cons, List.length_append, LineIndex.locate]
    · rw [if_neg hlt, hsub, ih]
      rfl
    · simp

/-- The place of a character: the lines above it, and the characters before it in its line. -/
theorem locate_splitLines_append {a b : List Char} (hs : ¬ SeamInBreak a b) :
    LineIndex.locate (splitLines (a ++ b)) a.length =
      ⟨(linesAbove a).length, (lineSoFar a).length⟩ := by
  cases hb : splitLines b with
  | nil => exact absurd hb (splitLines_ne_nil b)
  | cons m ms =>
    have hm : m = [] → ms = [] := by
      rintro rfl
      exact eq_nil_of_splitLines_eq hb
    rw [splitLines_append hs, splitLines_append_of_forall (not_isLineBreak_lineSoFar a) hb,
      ← length_linesAbove_add a]
    exact locate_append hm

theorem LineIndex.position_of_append {a b : List Char} {text : String}
    (htext : text.toList = a ++ b) (hs : ¬ SeamInBreak a b) :
    (LineIndex.ofText text).position a.length =
      ⟨(linesAbove a).length, (lineSoFar a).length⟩ := by
  rw [LineIndex.position, LineIndex.ofText, htext]
  exact locate_splitLines_append hs

end ContractScan
