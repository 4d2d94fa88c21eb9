import ContractScan.Proofs.Folds
import ContractScan.Proofs.RegionMarkers
import ContractScan.Proofs.WellNested
import Mathlib.Data.List.Sort

/-
  Folds by region markers. `RegionMarker.Spells` says what a marker is made of, and is what the
  recognition of markers accepts (`ofTrimmed?_eq_some_iff`). A region runs from a start marker to
  an end marker with balanced markers between them (`IsRegion`); the folds are the regions, each
  once and in order, and every marker is an end of one fold or the subject of one finding
  (`regionFolds_exact`).

  Balanced markers are well nested, like brackets of one shape. They pass through the pairing
  without a trace (`regions_sublist_follow_append`), and what lies between the markers of a pair is
  balanced because it closes the stack down to the first of them (`exists_of_mem_regions`).
-/

namespace ContractScan

open ContractScan.Text (isBlank isWordChar wordEndsBefore trim)

namespace RegionMarker

/-! ## Markers -/

/-- Whether a text is a marker: two slashes, blanks, an optional hash sign and the word of the
marker, behind which the text ends or goes on with no character of a word. -/
def Spells (k : RegionMarker) (cs : List Char) : Prop :=
  ∃ blanks hash rest, cs = '/' :: '/' :: (blanks ++ (hash ++ (k.word ++ rest))) ∧
    (∀ c ∈ blanks, isBlank c) ∧ (hash = [] ∨ hash = ['#']) ∧
      ∀ c ∈ rest.head?, isWordChar c = false

theorem wordEndsBefore_iff {cs : List Char} :
    wordEndsBefore cs ↔ ∀ c ∈ cs.head?, isWordChar c = false := by
  cases cs <;> simp [wordEndsBefore]

theorem startsWith_iff {word cs : List Char} :
    startsWith word cs ↔ ∃ rest, cs = word ++ rest ∧ ∀ c ∈ rest.head?, isWordChar c = false := by
  rw [startsWith, Bool.and_eq_true, List.isPrefixOf_iff_prefix, wordEndsBefore_iff]
  constructor
  · rintro ⟨⟨rest, rfl⟩, hend⟩
    rw [List.drop_left] at hend
    exact ⟨rest, rfl, hend⟩
  · rintro ⟨rest, rfl, hend⟩
    rw [List.drop_left]
    exact ⟨List.prefix_append word rest, hend⟩

theorem exists_hash (cs : List Char) :
    ∃ hash, (hash = [] ∨ hash = ['#']) ∧ cs = hash ++ dropHash cs := by
  unfold dropHash
  split
  · exact ⟨['#'], .inr rfl, rfl⟩
  · exact ⟨[], .inl rfl, rfl⟩

/-- The words of markers start with a letter. -/
theorem exists_word_eq (k : RegionMarker) :
    ∃ c w, k.word = c :: w ∧ isBlank c = false ∧ c ≠ '#' := by
  cases k with
  | opens => exact ⟨'r', _, rfl, by decide, by decide⟩
  | closes => exact ⟨'e', _, rfl, by decide, by decide⟩

theorem dropHash_append_word {hash : List Char} (hhash : hash = [] ∨ hash = ['#'])
    (k : RegionMarker) (rest : List Char) :
    dropHash (hash ++ (k.word ++ rest)) = k.word ++ rest := by
  obtain ⟨c, w, hw, -, hc⟩ := exists_word_eq k
  rcases hhash with rfl | rfl
  · rw [hw, List.nil_append, List.cons_append, dropHash]
    exact fun r h => hc (List.cons.inj h).1
  · rfl

theorem dropWhile_isBlank_word {blanks hash : List Char} (hblanks : ∀ c ∈ blanks, isBlank c)
    (hhash : hash = [] ∨ hash = ['#']) (k : RegionMarker) (rest : List Char) :
    (blanks ++ (hash ++ (k.word ++ rest))).dropWhile isBlank = hash ++ (k.word ++ rest) := by
  obtain ⟨c, w, hw, hc, -⟩ := exists_word_eq k
  rw [List.dropWhile_append_of_pos hblanks]
  rcases hhash with rfl | rfl
  · rw [hw, List.nil_append, List.cons_append, List.dropWhile_cons_of_neg (by simp [hc])]
  · exact List.dropWhile_cons_of_neg (by decide)

theorem spells_of_ofTrimmed? {cs : List Char} {k : RegionMarker} (h : ofTrimmed? cs = some k) :
    k.Spells cs := by
  unfold ofTrimmed? at h
  split at h
  · next r =>
    obtain ⟨hash, hhash, hr⟩ := exists_hash (r.dropWhile isBlank)
    have hword : startsWith k.word (dropHash (r.dropWhile isBlank)) := by
      dsimp only at h
      split at h
      · next hopens => exact Option.some.inj h ▸ hopens
      · split at h
        · next hcloses => exact Option.some.inj h ▸ hcloses
        · cases h
    obtain ⟨rest, hrest, hend⟩ := startsWith_iff.mp hword
    refine ⟨r.takeWhile isBlank, hash, rest, ?_, fun c hc => List.mem_takeWhile_imp hc, hhash, hend⟩
    rw [← hrest, ← hr, List.takeWhile_append_dropWhile]
  · cases h

theorem ofTrimmed?_of_spells {cs : List Char} {k : RegionMarker} (h : k.Spells cs) :
    ofTrimmed? cs = some k := by
  obtain ⟨blanks, hash, rest, rfl, hblanks, hhash, hend⟩ := h
  have hword : startsWith k.word (k.word ++ rest) := startsWith_iff.mpr ⟨rest, rfl, hend⟩
  simp only [ofTrimmed?, dropWhile_isBlank_word hblanks hhash, dropHash_append_word hhash]
  cases k with
  | opens => rw [if_pos hword]
  | closes =>
    rw [if_neg, if_pos hword]
    rw [startsWith_iff]
    rintro ⟨rest', h, -⟩
    cases h

/-- The recognition of markers accepts what is spelled as one. -/
theorem ofTrimmed?_eq_some_iff {cs : List Char} {k : RegionMarker} :
    ofTrimmed? cs = some k ↔ k.Spells cs :=
  ⟨spells_of_ofTrimmed?, ofTrimmed?_of_spells⟩

/-- What a marker does to the nesting: regions nest like brackets of one shape. -/
def side : RegionMarker → BracketSide
  | opens => .opens .brace
  | closes => .closes .brace

/-- Markers are balanced when they are well nested. -/
def Balanced (ks : List RegionMarker) : Prop := WellNested (ks.map side)

end RegionMarker

/-! ## Regions -/

/-- Whether a region goes from one line to another: the first is a start marker, the last an end
marker below it, and the markers between them are balanced. -/
def IsRegion (ls : List (List Char)) (first last : Nat) : Prop :=
  ∃ above start between stop below, ls = above ++ start :: (between ++ stop :: below) ∧
    first = above.length ∧ last = above.length + (between.length + 1) ∧
    markerOf? start = some .opens ∧ markerOf? stop = some .closes ∧
    RegionMarker.Balanced (between.filterMap markerOf?)

/-- The lines that are markers of a kind. -/
def markersOfKind (k : RegionMarker) (ls : List (List Char)) : List Nat :=
  (List.range ls.length).filter fun n => ls[n]?.bind markerOf? = some k

namespace RegionPairing

/-- The sides of marker lines. -/
def sides (ms : List MarkerLine) : List BracketSide := ms.map fun m => m.marker.side

/-- Markers that close the regions on top of a stack leave the pairing of what follows as it is. -/
theorem regions_sublist_follow_append {ms ns : List MarkerLine} {inner stack : List Nat}
    (h : ClosesAll (sides ms) (inner.map fun _ => .brace)) :
    (follow ns stack).regions.Sublist (follow (ms ++ ns) (inner ++ stack)).regions := by
  induction ms generalizing inner with
  | nil =>
    rw [List.map_eq_nil_iff.mp h]
    exact List.Sublist.refl _
  | cons m ms ih =>
    obtain ⟨n, k⟩ := m
    cases k with
    | opens => exact @ih (n :: inner) h
    | closes =>
      cases inner with
      | nil => exact h.elim
      | cons s inner => exact (ih h.2).cons (s, n)

/-- Behind a start marker and balanced markers, an end marker ends its region. -/
theorem mem_regions_of_balanced {above between below : List MarkerLine} {s e : Nat}
    (h : WellNested (sides between)) (stack : List Nat) :
    (s, e) ∈ (follow (above ++ ⟨s, .opens⟩ :: (between ++ ⟨e, .closes⟩ :: below)) stack).regions := by
  have hinner : ClosesAll (sides between) (([] : List Nat).map fun _ => .brace) :=
    wellNested_iff_closesAll.mp h
  rw [follow_append]
  refine List.mem_append_right _ ?_
  exact (regions_sublist_follow_append hinner).subset List.mem_cons_self

/-- A region starts in front of balanced markers, or it was open before and its end marker stands
behind markers that close all regions above it on the stack. -/
theorem exists_of_mem_regions {ms : List MarkerLine} {stack : List Nat} {s e : Nat}
    (h : (s, e) ∈ (follow ms stack).regions) :
    (∃ above between below, ms = above ++ ⟨s, .opens⟩ :: (between ++ ⟨e, .closes⟩ :: below) ∧
      WellNested (sides between)) ∨
    ∃ inner outer between below, stack = inner ++ s :: outer ∧
      ms = between ++ ⟨e, .closes⟩ :: below ∧
      ClosesAll (sides between) (inner.map fun _ => .brace) := by
  fun_induction follow ms stack with
  | case1 => cases h
  | case2 n ms stack ih =>
    rcases ih h with ⟨above, between, below, rfl, hw⟩ | ⟨inner, outer, between, below, hst, rfl, hw⟩
    · exact Or.inl ⟨⟨n, .opens⟩ :: above, between, below, rfl, hw⟩
    · cases inner with
      | nil =>
        obtain ⟨rfl, -⟩ := List.cons.inj hst
        exact Or.inl ⟨[], between, below, rfl, wellNested_iff_closesAll.mpr hw⟩
      | cons t inner =>
        obtain ⟨rfl, rfl⟩ := List.cons.inj hst
        exact Or.inr ⟨inner, outer, ⟨n, .opens⟩ :: between, below, rfl, rfl, hw⟩
  | case3 n ms t stack ih =>
    rcases List.mem_cons.mp h with heq | h
    · obtain ⟨rfl, rfl⟩ := Prod.mk.inj heq
      exact Or.inr ⟨[], stack, [], ms, rfl, rfl, rfl⟩
    · rcases ih h with ⟨above, between, below, rfl, hw⟩ | ⟨inner, outer, between, below, rfl, rfl, hw⟩
      · exact Or.inl ⟨⟨n, .closes⟩ :: above, between, below, rfl, hw⟩
      · exact Or.inr ⟨t :: inner, outer, ⟨n, .closes⟩ :: between, below, rfl, rfl, rfl, hw⟩
  | case4 n ms ih =>
    rcases ih h with ⟨above, between, below, rfl, hw⟩ | ⟨inner, outer, between, below, hst, -⟩
    · exact Or.inl ⟨⟨n, .closes⟩ :: above, between, below, rfl, hw⟩
    · cases inner <;> cases hst

/-- The lines of the markers of a kind. -/
def linesOfKind (k : RegionMarker) (ms : List MarkerLine) : List Nat :=
  (ms.filter fun m => m.marker = k).map MarkerLine.line

/-- Every region that is open or opened is closed or left open. -/
theorem starts_perm_follow (ms : List MarkerLine) (stack : List Nat) :
    ((follow ms stack).regions.map Prod.fst ++ (follow ms stack).unclosed).Perm
      (stack ++ linesOfKind .opens ms) := by
  fun_induction follow ms stack with
  | case1 stack => simp [linesOfKind]
  | case2 n ms stack ih =>
    rw [linesOfKind, List.filter_cons_of_pos (by rfl), List.map_cons]
    exact ih.trans List.perm_middle.symm
  | case3 n ms s stack ih =>
    rw [linesOfKind, List.filter_cons_of_neg (by simp)]
    exact ih.cons s
  | case4 n ms ih =>
    rw [linesOfKind, List.filter_cons_of_neg (by simp)]
    exact ih

/-- Every end marker ends a region or is astray. -/
theorem ends_perm_follow (ms : List MarkerLine) (stack : List Nat) :
    ((follow ms stack).regions.map Prod.snd ++ (follow ms stack).strayEnds).Perm
      (linesOfKind .closes ms) := by
  fun_induction follow ms stack with
  | case1 stack => exact List.Perm.refl _
  | case2 n ms stack ih =>
    rw [linesOfKind, List.filter_cons_of_neg (by simp)]
    exact ih
  | case3 n ms s stack ih =>
    rw [linesOfKind, List.filter_cons_of_pos (by rfl), List.map_cons]
    exact ih.cons n
  | case4 n ms ih =>
    rw [linesOfKind, List.filter_cons_of_pos (by rfl), List.map_cons]
    exact List.perm_middle.trans (ih.cons n)

end RegionPairing

/-! ## Lines of markers -/

theorem map_marker_markerLinesFrom (n : Nat) (ls : List (List Char)) :
    (markerLinesFrom n ls).map MarkerLine.marker = ls.filterMap markerOf? := by
  induction ls generalizing n with
  | nil => rfl
  | cons l ls ih =>
    rw [markerLinesFrom_cons, List.map_append, ih, List.filterMap_cons]
    cases markerOf? l <;> rfl

theorem sides_markerLinesFrom (n : Nat) (ls : List (List Char)) :
    RegionPairing.sides (markerLinesFrom n ls) =
      (ls.filterMap markerOf?).map RegionMarker.side := by
  rw [← map_marker_markerLinesFrom n, List.map_map]
  rfl

/-- A marker line stands where its line stands. -/
theorem exists_of_markerLinesFrom_eq {n k : Nat} {ls : List (List Char)} {m : RegionMarker}
    {above below : List MarkerLine} (h : markerLinesFrom n ls = above ++ ⟨k, m⟩ :: below) :
    ∃ ls₁ l ls₂, ls = ls₁ ++ l :: ls₂ ∧ k = n + ls₁.length ∧ markerOf? l = some m ∧
      above = markerLinesFrom n ls₁ ∧ below = markerLinesFrom (k + 1) ls₂ := by
  induction ls generalizing n above with
  | nil => cases above <;> cases h
  | cons l ls ih =>
    rw [markerLinesFrom_cons] at h
    cases hl : markerOf? l with
    | none =>
      rw [hl] at h
      obtain ⟨ls₁, l', ls₂, rfl, hk, hl', rfl, rfl⟩ := ih h
      refine ⟨l :: ls₁, l', ls₂, rfl, by rw [List.length_cons]; omega, hl', ?_, rfl⟩
      rw [markerLinesFrom_cons, hl]
      rfl
    | some m' =>
      rw [hl] at h
      cases above with
      | nil =>
        obtain ⟨hm, rfl⟩ := List.cons.inj h
        obtain ⟨rfl, rfl⟩ := MarkerLine.mk.inj hm
        exact ⟨[], l, ls, rfl, rfl, hl, rfl, rfl⟩
      | cons a above =>
        obtain ⟨rfl, hrest⟩ := List.cons.inj h
        obtain ⟨ls₁, l', ls₂, rfl, hk, hl', rfl, rfl⟩ := ih hrest
        refine ⟨l :: ls₁, l', ls₂, rfl, by rw [List.length_cons]; omega, hl', ?_, rfl⟩
        rw [markerLinesFrom_cons, hl]
        rfl

theorem markerLinesFrom_eq_filterMap (n : Nat) (ls : List (List Char)) :
    markerLinesFrom n ls =
      (ls.zipIdx n).filterMap fun l => (markerOf? l.1).map (MarkerLine.mk l.2) := by
  induction ls generalizing n with
  | nil => rfl
  | cons l ls ih =>
    rw [markerLinesFrom_cons, ih, List.zipIdx_cons, List.filterMap_cons]
    cases markerOf? l <;> rfl

theorem mem_markerLines_iff {ls : List (List Char)} {n : Nat} {k : RegionMarker} :
    ⟨n, k⟩ ∈ markerLinesFrom 0 ls ↔ ls[n]?.bind markerOf? = some k := by
  rw [markerLinesFrom_eq_filterMap]
  simp [List.mem_zipIdx_iff_getElem?, Option.bind_eq_some_iff]

theorem linesOfKind_markerLines (k : RegionMarker) (ls : List (List Char)) :
    RegionPairing.linesOfKind k (markerLinesFrom 0 ls) = markersOfKind k ls := by
  have hsorted : (RegionPairing.linesOfKind k (markerLinesFrom 0 ls)).Pairwise (· < ·) :=
    (List.pairwise_lt_range' 1).sublist
      ((List.filter_sublist.map MarkerLine.line).trans (lines_markerLinesFrom 0 ls))
  refine hsorted.eq_of_mem_iff (List.pairwise_lt_range.filter _) fun n => ?_
  have hlines : n ∈ RegionPairing.linesOfKind k (markerLinesFrom 0 ls) ↔
      ⟨n, k⟩ ∈ markerLinesFrom 0 ls := by
    simp only [RegionPairing.linesOfKind, List.mem_map, List.mem_filter, decide_eq_true_eq]
    constructor
    · rintro ⟨m, ⟨hm, rfl⟩, rfl⟩
      exact hm
    · exact fun h => ⟨⟨n, k⟩, ⟨h, rfl⟩, rfl⟩
  rw [hlines, mem_markerLines_iff, markersOfKind, List.mem_filter, List.mem_range, decide_eq_true_eq]
  refine (and_iff_right_of_imp fun h => ?_).symm
  obtain ⟨l, hl, -⟩ := Option.bind_eq_some_iff.mp h
  exact (List.getElem?_eq_some_iff.mp hl).1

theorem mem_regions_iff {ix : LineIndex} {first last : Nat} :
    (first, last) ∈ (RegionPairing.ofIndex ix).regions ↔ IsRegion ix.lines first last := by
  rw [RegionPairing.ofIndex]
  constructor
  · intro h
    rcases RegionPairing.exists_of_mem_regions h with h | ⟨inner, _, _, _, hstack, -⟩
    · obtain ⟨above, between, below, heq, hw⟩ := h
      obtain ⟨ls₁, start, rest, hls, hfirst, hstart, rfl, hrest⟩ := exists_of_markerLinesFrom_eq heq
      obtain ⟨ls₂, stop, ls₃, rfl, hlast, hstop, rfl, -⟩ := exists_of_markerLinesFrom_eq hrest.symm
      rw [sides_markerLinesFrom] at hw
      exact ⟨ls₁, start, ls₂, stop, ls₃, hls, by omega, by omega, hstart, hstop, hw⟩
    · cases inner <;> cases hstack
  · rintro ⟨above, start, between, stop, below, hls, rfl, rfl, hstart, hstop, hw⟩
    have hw : WellNested (RegionPairing.sides (markerLinesFrom (above.length + 1) between)) := by
      rwa [sides_markerLinesFrom]
    rw [hls, markerLinesFrom_append, markerLinesFrom_cons, hstart, markerLinesFrom_append,
      markerLinesFrom_cons, hstop, Nat.zero_add, Nat.add_assoc, Nat.add_comm 1]
    exact RegionPairing.mem_regions_of_balanced hw []

/-! ## Folds and findings -/

/-- The lines that the findings of a kind are about. -/
def subjects (k : DiagnosticKind) (ds : List Diagnostic) : List Nat :=
  (ds.filter fun d => d.kind = k).map fun d => d.range.start.line

theorem mem_regionFolds {ix : LineIndex} {f : Fold} :
    f ∈ regionFolds ix ↔ f.kind = .regionMarker ∧ IsRegion ix.lines f.startLine f.endLine := by
  rw [regionFolds, (Fold.sort_perm _).mem_iff, List.mem_map]
  constructor
  · rintro ⟨⟨s, e⟩, h, rfl⟩
    exact ⟨rfl, mem_regions_iff.mp h⟩
  · rintro ⟨hkind, h⟩
    refine ⟨(f.startLine, f.endLine), mem_regions_iff.mpr h, ?_⟩
    rw [← hkind]

theorem map_regionFolds_perm (ix : LineIndex) (line : Fold → Nat) :
    ((regionFolds ix).map line).Perm
      ((RegionPairing.ofIndex ix).regions.map fun r => line ⟨r.1, r.2, .regionMarker⟩) := by
  refine ((Fold.sort_perm _).map line).trans ?_
  rw [List.map_map]
  exact List.Perm.refl _

theorem starts_perm (ix : LineIndex) :
    ((regionFolds ix).map Fold.startLine ++ (RegionPairing.ofIndex ix).unclosed).Perm
      (markersOfKind .opens ix.lines) := by
  rw [← linesOfKind_markerLines]
  exact ((map_regionFolds_perm ix Fold.startLine).append_right _).trans
    (RegionPairing.starts_perm_follow _ [])

theorem ends_perm (ix : LineIndex) :
    ((regionFolds ix).map Fold.endLine ++ (RegionPairing.ofIndex ix).strayEnds).Perm
      (markersOfKind .closes ix.lines) := by
  rw [← linesOfKind_markerLines]
  exact ((map_regionFolds_perm ix Fold.endLine).append_right _).trans
    (RegionPairing.ends_perm_follow _ [])

/-- The finding about a marker starts in its line. -/
theorem line_markerRange {ix : LineIndex} {k : RegionMarker} {n : Nat}
    (h : n ∈ markersOfKind k ix.lines) : (markerRange ix n).start.line = n := by
  obtain ⟨p, hp, hline, -⟩ := markerRange_start (of_decide_eq_true (List.mem_filter.mp h).2)
  rw [hp, hline]

theorem map_line_markerRange {ix : LineIndex} {k : RegionMarker} {ns : List Nat}
    (h : ∀ n ∈ ns, n ∈ markersOfKind k ix.lines) :
    ns.map (fun n => (markerRange ix n).start.line) = ns := by
  conv => rhs; rw [← List.map_id ns]
  exact List.map_congr_left fun n hn => line_markerRange (h n hn)

/-- The findings about markers are one for each marker without a partner. -/
theorem subjects_regions (ix : LineIndex) (k : DiagnosticKind) :
    subjects k (Diagnostic.regions ix) =
      match k with
      | .unterminatedRegion =>
        (RegionPairing.ofIndex ix).unclosed.map fun n => (markerRange ix n).start.line
      | .unmatchedEndRegion =>
        (RegionPairing.ofIndex ix).strayEnds.map fun n => (markerRange ix n).start.line
      | _ => [] := by
  rw [subjects, Diagnostic.regions, List.filter_append, List.filter_map, List.filter_map,
    List.map_append, List.map_map, List.map_map]
  cases k <;> simp [Function.comp_def, Diagnostic.ofStrayEnd, Diagnostic.ofUnclosed,
    Diagnostic.ofKind]

theorem subjects_unterminatedRegion (ix : LineIndex) :
    subjects .unterminatedRegion (Diagnostic.regions ix) =
      (RegionPairing.ofIndex ix).unclosed := by
  rw [subjects_regions]
  exact map_line_markerRange fun n hn => (starts_perm ix).mem_iff.mp (List.mem_append_right _ hn)

theorem subjects_unmatchedEndRegion (ix : LineIndex) :
    subjects .unmatchedEndRegion (Diagnostic.regions ix) =
      (RegionPairing.ofIndex ix).strayEnds := by
  rw [subjects_regions]
  exact map_line_markerRange fun n hn => (ends_perm ix).mem_iff.mp (List.mem_append_right _ hn)

theorem pairwise_startLine_regionFolds (ix : LineIndex) :
    (regionFolds ix).Pairwise fun a b => a.startLine < b.startLine := by
  have hsorted : (regionFolds ix).Pairwise fun a b => a.inOrder b :=
    Fold.pairwise_inOrder_sort _
  have hnodup : ((regionFolds ix).map Fold.startLine).Nodup :=
    List.Nodup.of_append_left ((starts_perm ix).nodup_iff.mpr (List.nodup_range.filter _))
  refine (hsorted.and (List.pairwise_map.mp hnodup)).imp fun ⟨hle, hne⟩ => ?_
  rw [Fold.inOrder_iff] at hle
  omega

/-- **Folds by region markers.** A line is a marker when its trimmed text is spelled as one. The
    folds of a text are its regions, each once and in the order of their first lines. Every start
    marker is the first line of one fold or the subject of one finding that its region is not
    closed, and every end marker is the last line of one fold or the subject of one finding that no
    region is open. -/
theorem regionFolds_exact (text : String) :
    let ix := LineIndex.ofText text
    let folds := regionFolds ix
    (∀ l k, markerOf? l = some k ↔ k.Spells (trim l)) ∧
    folds.Pairwise (fun a b => a.startLine < b.startLine) ∧
    (∀ f, f ∈ folds ↔ f.kind = .regionMarker ∧ IsRegion ix.lines f.startLine f.endLine) ∧
    (folds.map Fold.startLine ++ subjects .unterminatedRegion (Diagnostic.regions ix)).Perm
      (markersOfKind .opens ix.lines) ∧
    (folds.map Fold.endLine ++ subjects .unmatchedEndRegion (Diagnostic.regions ix)).Perm
      (markersOfKind .closes ix.lines) := by
  intro ix folds
  rw [subjects_unterminatedRegion, subjects_unmatchedEndRegion]
  exact ⟨fun l k => RegionMarker.ofTrimmed?_eq_some_iff, pairwise_startLine_regionFolds ix,
    fun f => mem_regionFolds, starts_perm ix, ends_perm ix⟩

end ContractScan
