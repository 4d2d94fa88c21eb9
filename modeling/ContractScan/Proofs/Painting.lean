import ContractScan.Editor.Wire
import ContractScan.Proofs.LineCut
import Mathlib.Tactic.ByContra

/-
  Segments as marks on characters. A segment `Marks` the characters of a line that its column
  and its length span in units of UTF-16. `Paints` runs over a text character by character,
  each with the class that is to colour it or with none, and holds of a list of segments when
  they mark exactly the coloured characters, each run once and one run after another.

  Of segments that paint a text: a unit of a character is covered by one segment of its class,
  or by none where it has no class (`Paints.filter_covers`); and each segment lies before those
  that follow it in the list (`Paints.pairwise_before`).
-/

namespace ContractScan.Editor

open ContractScan.Text (unitLength unitsOf unitsOf_pos unitLength_append)

/-! ## Units -/

theorem length_le_unitLength (cs : List Char) : cs.length ≤ unitLength cs := by
  induction cs with
  | nil => exact Nat.le_refl _
  | cons c cs ih =>
    have := unitsOf_pos c
    simp only [unitLength, List.length_cons]
    omega

theorem unitLength_le_of_prefix {a b : List Char} (h : a <+: b) : unitLength a ≤ unitLength b := by
  obtain ⟨s, rfl⟩ := h
  rw [unitLength_append]
  exact Nat.le_add_right _ _

theorem unitLength_le_of_length_le {a b l : List Char} (ha : a <+: l) (hb : b <+: l)
    (h : a.length ≤ b.length) : unitLength a ≤ unitLength b :=
  unitLength_le_of_prefix (List.prefix_of_prefix_length_le ha hb h)

theorem unitLength_lt_of_length_lt {a b l : List Char} (ha : a <+: l) (hb : b <+: l)
    (h : a.length < b.length) : unitLength a < unitLength b := by
  obtain ⟨s, rfl⟩ := List.prefix_of_prefix_length_le ha hb (Nat.le_of_lt h)
  have hs := length_le_unitLength s
  rw [List.length_append] at h
  rw [unitLength_append]
  omega

theorem unitLength_take_succ {l : List Char} {k : Nat} {c : Char} (h : l[k]? = some c) :
    unitLength (l.take (k + 1)) = unitLength (l.take k) + unitsOf c := by
  rw [List.take_add_one, h, Option.toList_some, unitLength_append]
  rfl

theorem length_take_of_getElem? {l : List Char} {k : Nat} {c : Char} (h : l[k]? = some c) :
    (l.take k).length = k ∧ (l.take (k + 1)).length = k + 1 := by
  obtain ⟨hk, -⟩ := List.getElem?_eq_some_iff.mp h
  rw [List.length_take, List.length_take]
  omega

/-- Where a part of a line from its start stops, told by a unit of one of its characters. -/
theorem unitLength_le_iff_of_prefix {a l : List Char} (ha : a <+: l) {k u : Nat} {c : Char}
    (hc : l[k]? = some c) (hu : unitLength (l.take k) ≤ u)
    (hu' : u < unitLength (l.take k) + unitsOf c) : unitLength a ≤ u ↔ a.length ≤ k := by
  obtain ⟨hk, hk'⟩ := length_take_of_getElem? hc
  rw [← unitLength_take_succ hc] at hu'
  constructor
  · intro hle
    by_contra hlt
    have := unitLength_le_of_length_le (List.take_prefix (k + 1) l) ha (by omega)
    omega
  · intro hle
    have := unitLength_le_of_length_le ha (List.take_prefix k l) (by omega)
    omega

/-! ## Marks -/

namespace Segment

/-- Whether a unit of a line lies in a segment. -/
def covers (s : Segment) (line unit : Nat) : Bool :=
  s.line == line && (s.column ≤ unit && unit < s.column + s.length)

/-- Whether a segment lies before another: on an earlier line, or earlier on the same. -/
def Before (s t : Segment) : Prop :=
  s.line < t.line ∨ s.line = t.line ∧ s.column + s.length ≤ t.column

/-- Whether a segment marks a number of characters of some lines from a given one on. They lie
together on its line, and their units are those of the segment. -/
def Marks (s : Segment) (ls : List (List Char)) (p n : Nat) : Prop :=
  ∃ pre mid post, ls[s.line]? = some (pre ++ mid ++ post) ∧ s.column = unitLength pre ∧
    s.length = unitLength mid ∧ p = charsAbove ls s.line + pre.length ∧ n = mid.length

theorem covers_iff {s : Segment} {line unit : Nat} :
    s.covers line unit ↔ s.line = line ∧ s.column ≤ unit ∧ unit < s.column + s.length := by
  simp [covers]

theorem Marks.length_pos {s : Segment} {ls : List (List Char)} {p n : Nat} (h : s.Marks ls p n)
    (hn : 0 < n) : 0 < s.length := by
  obtain ⟨pre, mid, post, -, -, hlen, -, rfl⟩ := h
  rw [hlen]
  exact Nat.lt_of_lt_of_le hn (length_le_unitLength mid)

/-- The marked characters lie on the line of the segment. -/
theorem Marks.bounds {s : Segment} {ls : List (List Char)} {p n : Nat} (h : s.Marks ls p n) :
    charsAbove ls s.line ≤ p ∧ p + n ≤ charsAbove ls (s.line + 1) := by
  obtain ⟨pre, mid, post, hl, -, -, rfl, rfl⟩ := h
  rw [charsAbove_succ hl, List.length_append, List.length_append]
  omega

theorem Marks.before {s t : Segment} {ls : List (List Char)} {p n q m : Nat}
    (hs : s.Marks ls p n) (ht : t.Marks ls q m) (hn : 0 < n) (hm : 0 < m) (h : p + n ≤ q) :
    s.Before t := by
  obtain ⟨hs1, hs2⟩ := hs.bounds
  obtain ⟨ht1, ht2⟩ := ht.bounds
  rcases Nat.lt_trichotomy s.line t.line with hlt | heq | hgt
  · exact Or.inl hlt
  · refine Or.inr ⟨heq, ?_⟩
    obtain ⟨pre, mid, post, hl, hcol, hlen, rfl, rfl⟩ := hs
    obtain ⟨pre', mid', post', hl', hcol', -, rfl, rfl⟩ := ht
    rw [heq, hl'] at hl
    have hline := Option.some.inj hl
    rw [heq] at h
    rw [hcol, hlen, hcol', ← unitLength_append]
    refine unitLength_le_of_length_le ⟨post, rfl⟩ ⟨mid' ++ post', ?_⟩ ?_
    · rw [← hline, List.append_assoc]
    · rw [List.length_append]
      omega
  · have : charsAbove ls (t.line + 1) ≤ charsAbove ls s.line := charsAbove_mono ls hgt
    omega

/-- A segment covers the units of the characters that it marks, and no others. -/
theorem Marks.covers_iff {s : Segment} {ls : List (List Char)} {p n i k u : Nat} {l : List Char}
    {c : Char} (h : s.Marks ls p n) (hl : ls[i]? = some l) (hc : l[k]? = some c)
    (hu : unitLength (l.take k) ≤ u) (hu' : u < unitLength (l.take k) + unitsOf c) :
    s.covers i u ↔ p ≤ charsAbove ls i + k ∧ charsAbove ls i + k < p + n := by
  have hbounds := h.bounds
  have hsucc := charsAbove_succ hl
  obtain ⟨hk, -⟩ := List.getElem?_eq_some_iff.mp hc
  obtain ⟨pre, mid, post, hsl, hcol, hlen, hp, hn⟩ := h
  rw [Segment.covers_iff, hcol, hlen, ← unitLength_append]
  by_cases hline : s.line = i
  · subst hline
    obtain rfl := Option.some.inj (hsl.symm.trans hl)
    have hpre := unitLength_le_iff_of_prefix (a := pre)
      ⟨mid ++ post, by rw [List.append_assoc]⟩ hc hu hu'
    have hmid := unitLength_le_iff_of_prefix (a := pre ++ mid) ⟨post, rfl⟩ hc hu hu'
    rw [List.length_append] at hmid
    omega
  · -- The characters of other lines lie above or below the marked ones.
    rcases Nat.lt_or_gt_of_ne hline with hlt | hgt
    · have : charsAbove ls (s.line + 1) ≤ charsAbove ls i := charsAbove_mono ls hlt
      omega
    · have : charsAbove ls (i + 1) ≤ charsAbove ls s.line := charsAbove_mono ls hgt
      omega

end Segment

/-! ## Paint -/

/-- Whether segments mark exactly the characters of a text that have a class, which starts at
a given character of some lines. -/
inductive Paints (ls : List (List Char)) : Nat → List (Option HighlightKind) → List Segment → Prop
  | done (p : Nat) : Paints ls p [] []
  | skip {p : Nat} {ks : List (Option HighlightKind)} {ss : List Segment}
      (h : Paints ls (p + 1) ks ss) : Paints ls p (none :: ks) ss
  | mark {p n : Nat} {s : Segment} {ks : List (Option HighlightKind)} {ss : List Segment}
      (hs : s.Marks ls p n) (hn : 0 < n) (h : Paints ls (p + n) ks ss) :
      Paints ls p (List.replicate n (some s.kind) ++ ks) (s :: ss)

namespace Paints

variable {ls : List (List Char)} {p : Nat} {ks : List (Option HighlightKind)} {ss : List Segment}

theorem skip_replicate {n : Nat} (h : Paints ls (p + n) ks ss) :
    Paints ls p (List.replicate n none ++ ks) ss := by
  induction n generalizing p with
  | zero => exact h
  | succ n ih =>
    rw [List.replicate_succ, List.cons_append]
    refine .skip (ih ?_)
    rwa [Nat.add_assoc, Nat.add_comm 1 n]

theorem append {ks' : List (Option HighlightKind)} {ss' : List Segment} (h : Paints ls p ks ss)
    (h' : Paints ls (p + ks.length) ks' ss') : Paints ls p (ks ++ ks') (ss ++ ss') := by
  induction h with
  | done => exact h'
  | skip _ ih =>
    refine .skip (ih ?_)
    rwa [List.length_cons, Nat.add_comm _ 1, ← Nat.add_assoc] at h'
  | mark hs hn _ ih =>
    rw [List.append_assoc]
    refine .mark hs hn (ih ?_)
    rwa [List.length_append, List.length_replicate, ← Nat.add_assoc] at h'

/-- Every segment marks characters of the text. -/
theorem exists_marks (h : Paints ls p ks ss) :
    ∀ s ∈ ss, ∃ q n, p ≤ q ∧ 0 < n ∧ s.Marks ls q n := by
  induction h with
  | done => simp
  | skip _ ih =>
    intro s hs
    obtain ⟨q, n, hq, hn, hm⟩ := ih s hs
    exact ⟨q, n, Nat.le_of_succ_le hq, hn, hm⟩
  | @mark p n s ks ss hs hn _ ih =>
    intro t ht
    rcases List.mem_cons.mp ht with rfl | ht
    · exact ⟨p, n, Nat.le_refl _, hn, hs⟩
    · obtain ⟨q, m, hq, hm, hmarks⟩ := ih t ht
      exact ⟨q, m, by omega, hm, hmarks⟩

theorem pairwise_before (h : Paints ls p ks ss) : ss.Pairwise Segment.Before := by
  induction h with
  | done => exact List.Pairwise.nil
  | skip _ ih => exact ih
  | mark hs hn h ih =>
    refine List.Pairwise.cons (fun t ht => ?_) ih
    obtain ⟨q, m, hq, hm, hmarks⟩ := h.exists_marks t ht
    exact hs.before hmarks hn hm hq

/-- The segments that cover a unit of a character: one of its class, or none. -/
theorem filter_covers (h : Paints ls p ks ss) {i k u : Nat} {l : List Char} {c : Char}
    (hl : ls[i]? = some l) (hc : l[k]? = some c) (hu : unitLength (l.take k) ≤ u)
    (hu' : u < unitLength (l.take k) + unitsOf c) :
    (ss.filter fun s => s.covers i u).map Segment.kind =
      if charsAbove ls i + k < p then []
      else (ks[charsAbove ls i + k - p]?.getD none).toList := by
  induction h with
  | done p => simp
  | @skip p ks ss _ ih =>
    rw [ih]
    rcases Nat.lt_trichotomy (charsAbove ls i + k) p with hlt | heq | hgt
    · rw [if_pos hlt, if_pos (by omega)]
    · rw [if_pos (by omega), if_neg (by omega), heq, Nat.sub_self]
      rfl
    · rw [if_neg (by omega), if_neg (by omega), show charsAbove ls i + k - p =
        charsAbove ls i + k - (p + 1) + 1 by omega, List.getElem?_cons_succ]
  | @mark p n s ks ss hs hn _ ih =>
    have hcov := hs.covers_iff hl hc hu hu'
    rcases Nat.lt_or_ge (charsAbove ls i + k) p with hlt | hge
    · have hno : s.covers i u = false := by
        rw [← Bool.not_eq_true, hcov]
        omega
      rw [List.filter_cons_of_neg (by rw [hno]; exact Bool.false_ne_true), ih, if_pos hlt,
        if_pos (by omega)]
    · rw [if_neg (by omega)]
      rcases Nat.lt_or_ge (charsAbove ls i + k) (p + n) with hlt | hge'
      · rw [List.filter_cons, if_pos (hcov.mpr ⟨hge, hlt⟩), List.map_cons, ih, if_pos hlt,
          List.getElem?_append_left (by rw [List.length_replicate]; omega),
          List.getElem?_replicate_of_lt (by omega)]
        rfl
      · have hno : s.covers i u = false := by
          rw [← Bool.not_eq_true, hcov]
          omega
        rw [List.filter_cons_of_neg (by rw [hno]; exact Bool.false_ne_true), ih,
          if_neg (by omega),
          List.getElem?_append_right (by rw [List.length_replicate]; omega),
          List.length_replicate, Nat.sub_sub]

end Paints

end ContractScan.Editor
