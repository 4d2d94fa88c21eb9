import ContractScan.Fold.Region
import ContractScan.Proofs.Positions
import Mathlib.Data.List.Infix
import Mathlib.Data.List.TakeWhile

/-
  Region markers left over. Which markers find no partner is told by counting, without a stack:
  a region stays open when the start markers outnumber the end markers in every stretch of lines
  from its own on (`LeftOpen`), and an end marker is astray when the end markers outnumber the
  start markers in every stretch up to it (`Astray`). The pairing leaves over exactly these
  (`unclosed_ofIndex`, `strayEnds_ofIndex`).
-/

namespace ContractScan

open ContractScan.Text (trim trimStart trimEnd isBlank isLineBreak)

/-- The marker that a line is, if it is one. -/
def markerOf? (line : List Char) : Option RegionMarker := RegionMarker.ofTrimmed? (trim line)

/-- How many of the lines are a marker of a kind. -/
def markerCount (k : RegionMarker) (ls : List (List Char)) : Nat :=
  ls.countP fun l => markerOf? l = some k

/-- Whether a line starts a region that no later line closes. -/
def LeftOpen (ls : List (List Char)) (n : Nat) : Prop :=
  ls[n]?.bind markerOf? = some .opens ∧
    ∀ p ∈ (ls.drop n).inits, p ≠ [] → markerCount .closes p < markerCount .opens p

/-- Whether a line ends a region where none is open. -/
def Astray (ls : List (List Char)) (n : Nat) : Prop :=
  ls[n]?.bind markerOf? = some .closes ∧
    ∀ s ∈ (ls.take (n + 1)).tails, s ≠ [] → markerCount .opens s < markerCount .closes s

instance (ls : List (List Char)) : DecidablePred (LeftOpen ls) :=
  fun _ => inferInstanceAs (Decidable (_ ∧ _))

instance (ls : List (List Char)) : DecidablePred (Astray ls) :=
  fun _ => inferInstanceAs (Decidable (_ ∧ _))

/-! ## Lines and markers -/

theorem markerCount_cons (k : RegionMarker) (l : List Char) (ls : List (List Char)) :
    markerCount k (l :: ls) = markerCount k ls + if markerOf? l = some k then 1 else 0 := by
  simp only [markerCount, List.countP_cons, decide_eq_true_eq]

theorem markerCount_concat (k : RegionMarker) (ls : List (List Char)) (l : List Char) :
    markerCount k (ls ++ [l]) = markerCount k ls + if markerOf? l = some k then 1 else 0 := by
  simp only [markerCount, List.countP_append, List.countP_singleton, decide_eq_true_eq]

theorem markerLinesFrom_cons (n : Nat) (l : List Char) (ls : List (List Char)) :
    markerLinesFrom n (l :: ls) =
      ((markerOf? l).map (MarkerLine.mk n)).toList ++ markerLinesFrom (n + 1) ls := by
  rw [markerLinesFrom]
  unfold markerOf?
  cases RegionMarker.ofTrimmed? (trim l) <;> rfl

theorem markerLinesFrom_append (n : Nat) (ls ms : List (List Char)) :
    markerLinesFrom n (ls ++ ms) = markerLinesFrom n ls ++ markerLinesFrom (n + ls.length) ms := by
  induction ls generalizing n with
  | nil => rfl
  | cons l ls ih =>
    rw [List.cons_append, markerLinesFrom_cons, markerLinesFrom_cons, ih, List.append_assoc,
      List.length_cons, Nat.add_assoc n 1, Nat.add_comm 1]

theorem forall_mem_inits_cons {l : List Char} {ls : List (List Char)}
    {P : List (List Char) → Prop} :
    (∀ p ∈ (l :: ls).inits, P p) ↔ P [] ∧ ∀ p ∈ ls.inits, P (l :: p) := by
  simp

theorem forall_mem_tails_concat {l : List Char} {ls : List (List Char)}
    {P : List (List Char) → Prop} :
    (∀ s ∈ (ls ++ [l]).tails, P s) ↔ P [] ∧ ∀ s ∈ ls.tails, P (s ++ [l]) := by
  simp only [List.mem_tails, List.suffix_concat_iff]
  grind

/-! ## Regions left open -/

/-- How many of the regions open above a list of lines it closes. -/
def closedBy : List (List Char) → Nat
  | [] => 0
  | l :: ls =>
    match markerOf? l with
    | some .opens => closedBy ls - 1
    | some .closes => closedBy ls + 1
    | none => closedBy ls

theorem closedBy_le_iff {ls : List (List Char)} {d : Nat} :
    closedBy ls ≤ d ↔ ∀ p ∈ ls.inits, markerCount .closes p ≤ markerCount .opens p + d := by
  induction ls generalizing d with
  | nil => simp [closedBy, markerCount]
  | cons l ls ih =>
    have hnil : markerCount .closes [] ≤ markerCount .opens [] + d := Nat.zero_le _
    rw [forall_mem_inits_cons, closedBy, and_iff_right hnil]
    simp only [markerCount_cons]
    split
    · next hl =>
      rw [Nat.sub_le_iff_le_add, ih, hl]
      exact forall₂_congr fun p _ => by simp; omega
    · next hl =>
      rw [hl]
      cases d with
      | zero =>
        refine ⟨fun h => absurd h (Nat.not_succ_le_zero _), fun h => ?_⟩
        exact absurd (h [] (by simp)) (by simp [markerCount])
      | succ d =>
        rw [Nat.succ_le_succ_iff, ih]
        exact forall₂_congr fun p _ => by simp; omega
    · next hl =>
      rw [ih, hl]
      exact forall₂_congr fun p _ => by simp

theorem leftOpen_zero {l : List Char} {ls : List (List Char)} :
    LeftOpen (l :: ls) 0 ↔ markerOf? l = some .opens ∧ closedBy ls = 0 := by
  rw [← Nat.le_zero, closedBy_le_iff, LeftOpen, List.drop_zero, forall_mem_inits_cons]
  refine and_congr_right fun hl => ?_
  have hl : markerOf? l = some .opens := hl
  rw [and_iff_right (fun h => absurd rfl h)]
  refine forall₂_congr fun p _ => ?_
  rw [imp_iff_right (List.cons_ne_nil l p), markerCount_cons, markerCount_cons, hl, if_pos rfl,
    if_neg (by decide)]
  exact Nat.lt_succ_iff

/-- The pairing leaves open what is not closed of the regions open above, and then the regions
that the lines themselves leave open. -/
theorem unclosed_follow (n : Nat) (ls : List (List Char)) (stack : List Nat) :
    (RegionPairing.follow (markerLinesFrom n ls) stack).unclosed =
      (stack.drop (closedBy ls)).reverse ++
        ((List.range ls.length).filter (LeftOpen ls)).map (n + ·) := by
  induction ls generalizing n stack with
  | nil => simp [markerLinesFrom, RegionPairing.follow, closedBy]
  | cons l ls ih =>
    have hsucc : ((List.range ls.length).map Nat.succ).filter (LeftOpen (l :: ls)) =
        ((List.range ls.length).filter (LeftOpen ls)).map Nat.succ := by
      rw [List.filter_map]
      rfl
    have hshift : (((List.range ls.length).filter (LeftOpen ls)).map Nat.succ).map (n + ·) =
        ((List.range ls.length).filter (LeftOpen ls)).map (n + 1 + ·) := by
      rw [List.map_map]
      refine List.map_congr_left fun i _ => ?_
      show n + (i + 1) = n + 1 + i
      omega
    rw [List.length_cons, List.range_succ_eq_map, List.filter_cons, hsucc, markerLinesFrom_cons,
      closedBy]
    simp only [decide_eq_true_eq, leftOpen_zero]
    split
    · next hl =>
      rw [hl]
      simp only [Option.map_some, Option.toList_some, List.singleton_append, RegionPairing.follow,
        ih, true_and]
      cases closedBy ls with
      | zero => simp [hshift]
      | succ k => simp [hshift]
    · next hl =>
      rw [hl]
      cases stack with
      | nil =>
        simp [RegionPairing.follow, RegionPairing.withStray, ih, hshift]
      | cons s stack =>
        simp [RegionPairing.follow, RegionPairing.withRegion, ih, hshift]
    · next hl =>
      rw [hl]
      simp [ih, hshift]

theorem unclosed_ofIndex (ix : LineIndex) :
    (RegionPairing.ofIndex ix).unclosed = (List.range ix.lineCount).filter (LeftOpen ix.lines) := by
  have h := unclosed_follow 0 ix.lines []
  simpa [RegionPairing.ofIndex, LineIndex.lineCount] using h

/-! ## End markers astray -/

/-- The pairing of lines with one more line below them. -/
def RegionPairing.below (p : RegionPairing) (n : Nat) : Option RegionMarker → RegionPairing
  | none => p
  | some .opens => ⟨p.regions, p.strayEnds, p.unclosed ++ [n]⟩
  | some .closes =>
    match p.unclosed.reverse with
    | [] => ⟨p.regions, p.strayEnds ++ [n], []⟩
    | s :: stack => ⟨p.regions ++ [(s, n)], p.strayEnds, stack.reverse⟩

/-- Following more marker lines goes on with the regions left open so far. -/
theorem follow_append (ms ns : List MarkerLine) (stack : List Nat) :
    RegionPairing.follow (ms ++ ns) stack =
      let p := RegionPairing.follow ms stack
      let q := RegionPairing.follow ns p.unclosed.reverse
      ⟨p.regions ++ q.regions, p.strayEnds ++ q.strayEnds, q.unclosed⟩ := by
  fun_induction RegionPairing.follow ms stack with
  | case1 stack => simp
  | case2 n ms stack ih => exact ih
  | case3 n ms s stack ih =>
    rw [List.cons_append, RegionPairing.follow, ih]
    rfl
  | case4 n ms ih =>
    rw [List.cons_append, RegionPairing.follow, ih]
    rfl

theorem follow_concat (ls : List (List Char)) (l : List Char) :
    RegionPairing.follow (markerLinesFrom 0 (ls ++ [l])) [] =
      (RegionPairing.follow (markerLinesFrom 0 ls) []).below ls.length (markerOf? l) := by
  rw [markerLinesFrom_append, follow_append, markerLinesFrom_cons, Nat.zero_add]
  generalize RegionPairing.follow (markerLinesFrom 0 ls) [] = p
  cases markerOf? l with
  | none => simp [markerLinesFrom, RegionPairing.follow, RegionPairing.below]
  | some k =>
    cases k with
    | opens => simp [markerLinesFrom, RegionPairing.follow, RegionPairing.below]
    | closes =>
      rw [RegionPairing.below]
      cases hs : p.unclosed.reverse <;>
        simp [hs, markerLinesFrom, RegionPairing.follow, RegionPairing.withRegion,
          RegionPairing.withStray]

/-- The regions that a list of lines leaves open, as the pairing counts them. -/
theorem length_unclosed_le_iff {ls : List (List Char)} {d : Nat} :
    (RegionPairing.follow (markerLinesFrom 0 ls) []).unclosed.length ≤ d ↔
      ∀ s ∈ ls.tails, markerCount .opens s ≤ markerCount .closes s + d := by
  induction ls using List.reverseRecOn generalizing d with
  | nil => simp [markerLinesFrom, RegionPairing.follow, markerCount]
  | append_singleton ls l ih =>
    have hnil : markerCount .opens [] ≤ markerCount .closes [] + d := Nat.zero_le _
    rw [forall_mem_tails_concat, and_iff_right hnil, follow_concat]
    simp only [markerCount_concat]
    generalize RegionPairing.follow (markerLinesFrom 0 ls) [] = p at ih ⊢
    cases hl : markerOf? l with
    | none =>
      rw [RegionPairing.below, ih]
      exact forall₂_congr fun s _ => by simp
    | some k =>
      cases k with
      | opens =>
        have hlen : (p.below ls.length (some .opens)).unclosed.length = p.unclosed.length + 1 := by
          simp [RegionPairing.below]
        rw [hlen]
        cases d with
        | zero =>
          refine ⟨fun h => absurd h (Nat.not_succ_le_zero _), fun h => ?_⟩
          exact absurd (h [] (by simp)) (by simp [markerCount])
        | succ d =>
          rw [Nat.succ_le_succ_iff, ih]
          exact forall₂_congr fun p _ => by simp; omega
      | closes =>
        have hlen : (p.below ls.length (some .closes)).unclosed.length = p.unclosed.length - 1 := by
          have hrev : p.unclosed.length = p.unclosed.reverse.length := List.length_reverse.symm
          rw [hrev, RegionPairing.below]
          cases p.unclosed.reverse <;> simp
        rw [hlen, Nat.sub_le_iff_le_add, ih]
        exact forall₂_congr fun p _ => by simp; omega

theorem astray_append {ls ms : List (List Char)} {n : Nat} (h : n < ls.length) :
    Astray (ls ++ ms) n ↔ Astray ls n := by
  rw [Astray, Astray, List.getElem?_append_left h, List.take_append_of_le_length h]

theorem astray_length {ls : List (List Char)} {l : List Char} :
    Astray (ls ++ [l]) ls.length ↔ markerOf? l = some .closes ∧
      (RegionPairing.follow (markerLinesFrom 0 ls) []).unclosed = [] := by
  rw [← List.length_eq_zero_iff, ← Nat.le_zero, length_unclosed_le_iff, Astray,
    List.take_of_length_le (by simp), forall_mem_tails_concat, List.getElem?_concat_length]
  refine and_congr_right fun hl => ?_
  have hl : markerOf? l = some .closes := hl
  rw [and_iff_right (fun h => absurd rfl h)]
  refine forall₂_congr fun s _ => ?_
  rw [imp_iff_right (List.concat_ne_nil l s), markerCount_concat, markerCount_concat, hl,
    if_pos rfl, if_neg (by decide)]
  exact Nat.lt_succ_iff

theorem strayEnds_follow (ls : List (List Char)) :
    (RegionPairing.follow (markerLinesFrom 0 ls) []).strayEnds =
      (List.range ls.length).filter (Astray ls) := by
  induction ls using List.reverseRecOn with
  | nil => rfl
  | append_singleton ls l ih =>
    have hrange : (List.range ls.length).filter (Astray (ls ++ [l])) =
        (List.range ls.length).filter (Astray ls) :=
      List.filter_congr fun n hn => by rw [decide_eq_decide, astray_append (List.mem_range.mp hn)]
    rw [List.length_append, List.length_singleton, List.range_succ, List.filter_append, hrange,
      ← ih, follow_concat, List.filter_singleton]
    simp only [astray_length]
    generalize RegionPairing.follow (markerLinesFrom 0 ls) [] = p
    cases hl : markerOf? l with
    | none => simp [RegionPairing.below]
    | some k =>
      cases k with
      | opens => simp [RegionPairing.below]
      | closes =>
        rw [RegionPairing.below]
        cases hs : p.unclosed.reverse with
        | nil => simp [List.reverse_eq_nil_iff.mp hs]
        | cons s stack =>
          have hne : p.unclosed ≠ [] := fun h => by simp [h] at hs
          simp [hne]

theorem strayEnds_ofIndex (ix : LineIndex) :
    (RegionPairing.ofIndex ix).strayEnds = (List.range ix.lineCount).filter (Astray ix.lines) :=
  strayEnds_follow ix.lines

/-! ## Places of markers -/

theorem trimEnd_isPrefix (cs : List Char) : trimEnd cs <+: cs := by
  rw [← List.reverse_suffix, trimEnd, List.reverse_reverse]
  exact List.dropWhile_suffix isBlank

theorem trim_append_of_blank {a b : List Char} (hb : ∀ c ∈ b, isBlank c) :
    trim (a ++ b) = trim a := by
  have hnil : b.dropWhile isBlank = [] := List.dropWhile_eq_nil_iff.mpr hb
  rw [trim, trim, trimStart, trimStart, List.dropWhile_append, hnil]
  split
  · next h => rw [List.isEmpty_iff.mp h]
  · rw [trimEnd, List.reverse_append, List.dropWhile_append_of_pos, ← trimEnd]
    exact fun c hc => hb c (List.mem_reverse.mp hc)

theorem trim_subset (cs : List Char) : ∀ c ∈ trim cs, c ∈ cs := fun _ hc =>
  (List.dropWhile_suffix isBlank).subset ((trimEnd_isPrefix _).subset hc)

/-- The trimmed text of a line has no line breaks. -/
theorem not_isLineBreak_trim {cs l : List Char} (h : l ∈ splitLines cs) :
    ∀ c ∈ trim l, isLineBreak c = false := by
  obtain ⟨a, b, rfl, ha, hb⟩ := exists_of_mem_splitLines h
  rw [trim_append_of_blank fun c hc => Text.isBlank_of_isLineBreak (hb c hc)]
  exact fun c hc => ha c (trim_subset a c hc)

/-- A text around one of its lines, where the range of a marker would lie. -/
theorem exists_around_marker (text : String) (n : Nat) :
    ∃ rest, text.toList = ((LineIndex.ofText text).above n ++
      ((LineIndex.ofText text).lineText n).takeWhile isBlank) ++
        (trim ((LineIndex.ofText text).lineText n) ++ rest) := by
  obtain ⟨s, hs⟩ := trimEnd_isPrefix (trimStart ((LineIndex.ofText text).lineText n))
  have hline : (LineIndex.ofText text).lineText n =
      ((LineIndex.ofText text).lineText n).takeWhile isBlank ++
        (trim ((LineIndex.ofText text).lineText n) ++ s) := by
    rw [trim, hs]
    exact List.takeWhile_append_dropWhile.symm
  have htext : text.toList = (LineIndex.ofText text).above n ++
      ((LineIndex.ofText text).lineText n ++
        ((LineIndex.ofText text).lines.drop (n + 1)).flatten) := by
    have hflat : text.toList = (LineIndex.ofText text).lines.flatten := (flatten_splitLines _).symm
    conv =>
      lhs
      rw [hflat, ← List.take_append_drop n (LineIndex.ofText text).lines,
        List.drop_eq_getElem?_toList_append, List.flatten_append, List.flatten_append]
    rw [LineIndex.above, LineIndex.lineText]
    cases (LineIndex.ofText text).lines[n]? <;> simp
  refine ⟨s ++ ((LineIndex.ofText text).lines.drop (n + 1)).flatten, ?_⟩
  conv => lhs; rw [htext, hline]
  simp only [List.append_assoc]

theorem exists_of_ofTrimmed? {cs : List Char} {k : RegionMarker}
    (h : RegionMarker.ofTrimmed? cs = some k) : ∃ r, cs = '/' :: '/' :: r := by
  unfold RegionMarker.ofTrimmed? at h
  split at h
  · exact ⟨_, rfl⟩
  · cases h

theorem exists_of_markerOf? {l : List Char} {k : RegionMarker} (h : markerOf? l = some k) :
    ∃ r, l = l.takeWhile isBlank ++ '/' :: '/' :: r := by
  obtain ⟨r, hr⟩ := exists_of_ofTrimmed? h
  obtain ⟨s, hs⟩ := trimEnd_isPrefix (trimStart l)
  rw [← trim, hr] at hs
  refine ⟨r ++ s, ?_⟩
  conv => lhs; rw [← List.takeWhile_append_dropWhile (p := isBlank) (l := l)]
  exact congrArg _ hs.symm

/-- A marker starts with the slashes of its comment, on its own line. -/
theorem markerRange_start {ix : LineIndex} {n : Nat} {k : RegionMarker}
    (h : ix.lines[n]?.bind markerOf? = some k) :
    ∃ p, (markerRange ix n).start = ix.position p ∧ (ix.position p).line = n ∧
      ∃ r, ix.text.drop p = '/' :: '/' :: r := by
  obtain ⟨l, hl, hk⟩ := Option.bind_eq_some_iff.mp h
  obtain ⟨r, hr⟩ := exists_of_markerOf? hk
  generalize hlead : l.takeWhile isBlank = lead at hr
  have htext : ix.lineText n = l := by rw [LineIndex.lineText, hl]; rfl
  have hlt : lead.length < l.length := by
    rw [hr, List.length_append, List.length_cons]
    omega
  refine ⟨ix.charStart n + lead.length, ?_, ?_, r ++ (ix.lines.drop (n + 1)).flatten, ?_⟩
  · rw [markerRange, htext, hlead]
  · exact congrArg Position.line (LineIndex.locate_of_line hl hlt)
  · have hdrop := drop_flatten_of_line hl (Nat.le_of_lt hlt)
    rw [hr, List.drop_left] at hdrop
    exact hdrop

end ContractScan
