import ContractScan.Editor.FoldingRange
import ContractScan.Proofs.Folds
import ContractScan.Proofs.Positions
import Mathlib.Algebra.Group.Nat.Defs

/-
  The folding ranges that go to an editor. Of the block comments and the folds of a scan, in this
  order, a range goes out exactly when it is the first with its lines (`mem_ofScan_iff`): the
  sort keeps the order of ranges with the same lines, and then all but the first are dropped.

  So the kind with which the lines of a fold go out is settled by what else has these lines. A
  comment comes first; and since a fold by indentation stands in front of a region, the kind of
  the region is lost where both have the same lines (`range_of_fold`). As to lines alone, what goes
  out is each span of lines of a fold or of a block comment, once, and nothing else
  (`ranges_exact`).
-/

namespace ContractScan.Editor

namespace FoldingRange

/-! ## Lines -/

/-- Whether the lines of a range lie before those of another: by first line, then by last line. -/
def Before (a b : FoldingRange) : Prop :=
  a.startLine < b.startLine ∨ a.startLine = b.startLine ∧ a.endLine < b.endLine

theorem sameLines_iff {a b : FoldingRange} :
    a.sameLines b ↔ a.startLine = b.startLine ∧ a.endLine = b.endLine := by
  simp only [sameLines, Bool.and_eq_true, beq_iff_eq]

theorem inOrder_iff {a b : FoldingRange} : a.inOrder b ↔ a.Before b ∨ a.sameLines b := by
  simp only [inOrder, Before, sameLines_iff, Bool.or_eq_true, Bool.and_eq_true, decide_eq_true_eq,
    beq_iff_eq]
  omega

theorem inOrder_trans (a b c : FoldingRange) (hab : a.inOrder b) (hbc : b.inOrder c) :
    a.inOrder c := by
  rw [inOrder_iff, sameLines_iff, Before] at *
  omega

theorem inOrder_total (a b : FoldingRange) : a.inOrder b || b.inOrder a := by
  rw [Bool.or_eq_true, inOrder_iff, inOrder_iff, sameLines_iff, sameLines_iff, Before, Before]
  omega

theorem before_of_inOrder_of_before {a b c : FoldingRange} (hab : a.inOrder b) (hbc : b.Before c) :
    a.Before c := by
  rw [inOrder_iff, sameLines_iff] at hab
  unfold Before at *
  omega

theorem not_sameLines_of_before {a b : FoldingRange} (h : a.Before b) : a.sameLines b = false := by
  rw [← Bool.not_eq_true, sameLines_iff]
  unfold Before at h
  omega

theorem sameLines_self (a : FoldingRange) : a.sameLines a := sameLines_iff.mpr ⟨rfl, rfl⟩

theorem sameLines_comm (a b : FoldingRange) : a.sameLines b = b.sameLines a := by
  rw [Bool.eq_iff_iff, sameLines_iff, sameLines_iff, eq_comm, eq_comm (a := a.endLine)]

theorem sameLines_congr {a b : FoldingRange} (h : a.sameLines b) : a.sameLines = b.sameLines := by
  obtain ⟨hstart, hend⟩ := sameLines_iff.mp h
  funext x
  rw [sameLines, sameLines, hstart, hend]

/-! ## Keeping the first -/

theorem keepFirst_sublist (rs : List FoldingRange) : (keepFirst rs).Sublist rs := by
  fun_induction keepFirst rs with
  | case1 => exact List.nil_sublist _
  | case2 r rs h ih => exact (List.nil_sublist rs).cons_cons r
  | case3 r rs s rest h _ ih =>
    rw [h] at ih
    exact ((List.sublist_cons_self s rest).trans ih).cons_cons r
  | case4 r rs s rest h _ ih =>
    rw [h] at ih
    exact ih.cons_cons r

/-- Behind a range those with other lines are kept. -/
theorem keepFirst_cons {r : FoldingRange} {rs : List FoldingRange}
    (hrest : (keepFirst rs).Pairwise Before) (hfirst : ∀ s ∈ keepFirst rs, r.inOrder s) :
    keepFirst (r :: rs) = r :: (keepFirst rs).filter fun s => !r.sameLines s := by
  rw [keepFirst]
  cases hk : keepFirst rs with
  | nil => rfl
  | cons s rest =>
    rw [hk, List.pairwise_cons] at hrest
    rw [hk] at hfirst
    have hothers : rest.filter (fun x => !r.sameLines x) = rest := by
      refine List.filter_eq_self.mpr fun x hx => ?_
      rw [not_sameLines_of_before
        (before_of_inOrder_of_before (hfirst s List.mem_cons_self) (hrest.1 x hx))]
      rfl
    rw [List.filter_cons, hothers]
    by_cases hsame : r.sameLines s <;> simp [hsame]

/-- The ranges that are kept lie strictly in order. -/
theorem pairwise_before_keepFirst {rs : List FoldingRange}
    (h : rs.Pairwise fun a b => a.inOrder b) : (keepFirst rs).Pairwise Before := by
  induction rs with
  | nil => exact List.Pairwise.nil
  | cons r rs ih =>
    obtain ⟨hr, hrs⟩ := List.pairwise_cons.mp h
    have hfirst : ∀ s ∈ keepFirst rs, r.inOrder s := fun s hs =>
      hr s ((keepFirst_sublist rs).subset hs)
    rw [keepFirst_cons (ih hrs) hfirst]
    refine List.Pairwise.cons (fun s hs => ?_) ((ih hrs).filter _)
    obtain ⟨hs, hne⟩ := List.mem_filter.mp hs
    exact (inOrder_iff.mp (hfirst s hs)).resolve_right (by simpa using hne)

/-- A range is kept when it is the first with its lines. -/
theorem mem_keepFirst_iff {rs : List FoldingRange} (h : rs.Pairwise fun a b => a.inOrder b)
    {r : FoldingRange} : r ∈ keepFirst rs ↔ rs.find? r.sameLines = some r := by
  induction rs with
  | nil => simp [keepFirst]
  | cons s rs ih =>
    obtain ⟨hs, hrs⟩ := List.pairwise_cons.mp h
    rw [keepFirst_cons (pairwise_before_keepFirst hrs) fun x hx =>
      hs x ((keepFirst_sublist rs).subset hx), List.mem_cons, List.mem_filter, ih hrs,
      List.find?_cons, sameLines_comm s r]
    cases hsame : r.sameLines s with
    | true => simp [eq_comm]
    | false =>
      have hne : r ≠ s := by
        rintro rfl
        rw [sameLines_self] at hsame
        cases hsame
      simp [hne]

/-- The sort keeps the order of the ranges with the same lines. -/
theorem filter_mergeSort (rs : List FoldingRange) (r : FoldingRange) :
    (rs.mergeSort inOrder).filter r.sameLines = rs.filter r.sameLines := by
  have hsorted : (rs.filter r.sameLines).Pairwise fun a b => a.inOrder b := by
    refine List.pairwise_of_forall_mem_list fun a ha b hb => ?_
    have ha := sameLines_iff.mp (List.mem_filter.mp ha).2
    have hb := sameLines_iff.mp (List.mem_filter.mp hb).2
    exact inOrder_iff.mpr (.inr (sameLines_iff.mpr ⟨ha.1.symm.trans hb.1, ha.2.symm.trans hb.2⟩))
  have hsub := (List.sublist_mergeSort inOrder_trans inOrder_total hsorted
    List.filter_sublist).filter r.sameLines
  simp only [List.filter_filter, Bool.and_self] at hsub
  refine (hsub.eq_of_length ?_).symm
  exact ((List.mergeSort_perm rs inOrder).filter r.sameLines).length_eq.symm

/-- The ranges of a scan lie strictly in order. -/
theorem pairwise_before_ofScan (s : Scan) : (ofScan s).Pairwise Before :=
  pairwise_before_keepFirst (List.pairwise_mergeSort inOrder_trans inOrder_total _)

/-- A range goes out when it is the first with its lines, comments in front of folds. -/
theorem mem_ofScan_iff {s : Scan} {r : FoldingRange} :
    r ∈ ofScan s ↔
      (commentRanges s ++ s.outline.folds.map ofFold).find? r.sameLines = some r := by
  rw [ofScan, mem_keepFirst_iff (List.pairwise_mergeSort inOrder_trans inOrder_total _),
    ← List.head?_filter, filter_mergeSort, List.head?_filter]

/-- The range with the lines of another is the first of them. -/
theorem mem_ofScan_and_sameLines_iff {s : Scan} {first : FoldingRange}
    (h : (commentRanges s ++ s.outline.folds.map ofFold).find? first.sameLines = some first)
    {r : FoldingRange} : r ∈ ofScan s ∧ first.sameLines r ↔ r = first := by
  rw [mem_ofScan_iff]
  constructor
  · rintro ⟨hr, hsame⟩
    rw [← sameLines_congr hsame, h] at hr
    exact (Option.some.inj hr).symm
  · rintro rfl
    exact ⟨h, sameLines_self r⟩

theorem mem_of_mem_ofScan {s : Scan} {r : FoldingRange} (h : r ∈ ofScan s) :
    r ∈ commentRanges s ++ s.outline.folds.map ofFold :=
  List.mem_of_find?_eq_some (mem_ofScan_iff.mp h)

/-- Of all ranges with the same lines one goes out. -/
theorem exists_mem_ofScan_iff {s : Scan} {first last : Nat} :
    (∃ r ∈ ofScan s, r.startLine = first ∧ r.endLine = last) ↔
      ∃ r ∈ commentRanges s ++ s.outline.folds.map ofFold,
        r.startLine = first ∧ r.endLine = last := by
  constructor
  · rintro ⟨r, hr, hlines⟩
    exact ⟨r, mem_of_mem_ofScan hr, hlines⟩
  · rintro ⟨x, hx, rfl, rfl⟩
    cases hfind : (commentRanges s ++ s.outline.folds.map ofFold).find? x.sameLines with
    | none => exact absurd (sameLines_self x) (List.find?_eq_none.mp hfind x hx)
    | some r =>
      have hsame := List.find?_some hfind
      rw [sameLines_congr hsame] at hfind
      obtain ⟨hstart, hend⟩ := sameLines_iff.mp hsame
      exact ⟨r, mem_ofScan_iff.mpr hfind, hstart.symm, hend.symm⟩

/-- Where a comment has the lines of a range, the range is one of a comment. -/
theorem mem_commentRanges_of_mem_ofScan {s : Scan} {r x : FoldingRange} (h : r ∈ ofScan s)
    (hx : x ∈ commentRanges s) (hsame : r.sameLines x) : r ∈ commentRanges s := by
  have hfind := mem_ofScan_iff.mp h
  rw [List.find?_append] at hfind
  cases hcomment : (commentRanges s).find? r.sameLines with
  | none => exact absurd hsame (List.find?_eq_none.mp hcomment x hx)
  | some y =>
    rw [hcomment, Option.some_or] at hfind
    exact Option.some.inj hfind ▸ List.mem_of_find?_eq_some hcomment

end FoldingRange

/-! ## Comments and folds -/

section
variable {text : String} (hcount : (LineIndex.ofText text).lineCount ≤ 2 ^ 32)
include hcount

/-- The numbers of lines fit into 32 bits. -/
theorem word_lineOf (c : Nat) :
    word ((LineIndex.ofText text).lineOf c) = (LineIndex.ofText text).lineOf c :=
  word_of_lt (Nat.lt_of_lt_of_le (LineIndex.lineOf_lt text c) hcount)

theorem mem_commentRanges_iff (o : ScanOptions) {r : FoldingRange} :
    r ∈ commentRanges (Scan.ideal text o) ↔ ∃ t ∈ tokenize text, t.isBlockComment ∧
      (LineIndex.ofText text).lineOf t.start < (LineIndex.ofText text).lineOf (t.stop - 1) ∧
      ⟨(LineIndex.ofText text).lineOf t.start, (LineIndex.ofText text).lineOf (t.stop - 1),
        some .comment⟩ = r := by
  simp only [commentRanges, List.mem_filterMap, List.mem_filter, and_assoc,
    FoldingRange.ofComment?, Scan.ideal, word_lineOf hcount, Option.ite_none_right_eq_some,
    Option.some.injEq]

theorem ofFold_eq {f : Fold} (hf : f.Spans (LineIndex.ofText text).lineCount) :
    FoldingRange.ofFold f = ⟨f.startLine, f.endLine, RangeKind.ofFoldKind? f.kind⟩ := by
  obtain ⟨hlt, hlast⟩ := hf
  rw [FoldingRange.ofFold, word_of_lt (by omega), word_of_lt (by omega)]

end

/-- Whether a block comment goes from the first to the last line of a fold. -/
def commentCovers (s : Scan) (f : Fold) : Bool :=
  s.tokens.any fun t => t.isBlockComment && s.index.lineOf t.start = f.startLine &&
    s.index.lineOf (t.stop - 1) = f.endLine

theorem commentCovers_iff {s : Scan} {f : Fold} :
    commentCovers s f ↔ ∃ t ∈ s.tokens, t.isBlockComment ∧
      s.index.lineOf t.start = f.startLine ∧ s.index.lineOf (t.stop - 1) = f.endLine := by
  simp only [commentCovers, List.any_eq_true, Bool.and_eq_true, decide_eq_true_eq, and_assoc]

/-- What is found where all that can be found is the same. -/
theorem find?_eq_some_of_forall {α : Type} {p : α → Bool} {xs : List α} {x : α} (hx : x ∈ xs)
    (hp : p x) (h : ∀ y ∈ xs, p y → y = x) : xs.find? p = some x := by
  cases hfind : xs.find? p with
  | none => exact absurd hp (List.find?_eq_none.mp hfind x hx)
  | some y => rw [h y (List.mem_of_find?_eq_some hfind) (List.find?_some hfind)]

/-- What is found first in a list in order stands in front of all that can be found. -/
theorem rel_of_find?_eq_some {α : Type} {R : α → α → Prop} {p : α → Bool} {xs : List α} {x : α}
    (hsorted : xs.Pairwise R) (h : xs.find? p = some x) {y : α} (hy : y ∈ xs) (hp : p y) :
    y = x ∨ R x y := by
  obtain ⟨-, before, after, rfl, hbefore⟩ := List.find?_eq_some_iff_append.mp h
  rcases List.mem_append.mp hy with hy | hy
  · have hno := hbefore y hy
    rw [hp] at hno
    cases hno
  · rcases List.mem_cons.mp hy with rfl | hy
    · exact Or.inl rfl
    · exact Or.inr ((List.pairwise_cons.mp (List.pairwise_append.mp hsorted).2.1).1 y hy)

section
variable {text : String} (hcount : (LineIndex.ofText text).lineCount ≤ 2 ^ 32) (o : ScanOptions)
  {f : Fold} (kind : Option RangeKind)
include hcount

/-- The comments with the lines of a fold all go out as one range. -/
theorem find?_commentRanges (hf : f.startLine < f.endLine) :
    (commentRanges (Scan.ideal text o)).find?
        (FoldingRange.mk f.startLine f.endLine kind).sameLines =
      if commentCovers (Scan.ideal text o) f then some ⟨f.startLine, f.endLine, some .comment⟩
      else none := by
  split
  · next hcovers =>
    obtain ⟨t, ht, hblock, hstart, hend⟩ := commentCovers_iff.mp hcovers
    have hstart : (LineIndex.ofText text).lineOf t.start = f.startLine := hstart
    have hend : (LineIndex.ofText text).lineOf (t.stop - 1) = f.endLine := hend
    refine find?_eq_some_of_forall ?_ (FoldingRange.sameLines_iff.mpr ⟨rfl, rfl⟩)
      fun r hr hsame => ?_
    · rw [← hstart, ← hend]
      exact (mem_commentRanges_iff hcount o).mpr ⟨t, ht, hblock, by omega, rfl⟩
    · obtain ⟨t', -, -, -, rfl⟩ := (mem_commentRanges_iff hcount o).mp hr
      obtain ⟨hstart', hend'⟩ := FoldingRange.sameLines_iff.mp hsame
      exact congrArg₂ (FoldingRange.mk · · (some .comment)) hstart'.symm hend'.symm
  · next hcovers =>
    refine List.find?_eq_none.mpr fun r hr hsame => hcovers ?_
    obtain ⟨t, ht, hblock, -, rfl⟩ := (mem_commentRanges_iff hcount o).mp hr
    obtain ⟨hstart, hend⟩ := FoldingRange.sameLines_iff.mp hsame
    exact commentCovers_iff.mpr ⟨t, ht, hblock, hstart.symm, hend.symm⟩

/-- Of the folds with the lines of a fold, one by indentation goes out first. -/
theorem find?_folds (hf : f ∈ (Scan.ideal text o).outline.folds) :
    ((Scan.ideal text o).outline.folds.map FoldingRange.ofFold).find?
        (FoldingRange.mk f.startLine f.endLine kind).sameLines =
      some ⟨f.startLine, f.endLine,
        if ⟨f.startLine, f.endLine, .indentation⟩ ∈ (Scan.ideal text o).outline.folds then none
        else some .region⟩ := by
  have hlines {g : Fold} (hg : g ∈ (Scan.ideal text o).outline.folds) :
      ((FoldingRange.mk f.startLine f.endLine kind).sameLines ∘ FoldingRange.ofFold) g ↔
        f.startLine = g.startLine ∧ f.endLine = g.endLine := by
    rw [Function.comp_apply, ofFold_eq hcount (spans_of_mem_folds hg), FoldingRange.sameLines_iff]
  rw [List.find?_map]
  cases hfind : (Scan.ideal text o).outline.folds.find?
      ((FoldingRange.mk f.startLine f.endLine kind).sameLines ∘ FoldingRange.ofFold) with
  | none => exact absurd ((hlines hf).mpr ⟨rfl, rfl⟩) (List.find?_eq_none.mp hfind f hf)
  | some g =>
    have hg := List.mem_of_find?_eq_some hfind
    obtain ⟨hstart, hend⟩ := (hlines hg).mp (List.find?_some hfind)
    obtain ⟨s, e, k⟩ := g
    dsimp only at hstart hend
    subst hstart hend
    rw [Option.map_some, ofFold_eq hcount (spans_of_mem_folds hg)]
    refine congrArg (fun kind => some (FoldingRange.mk f.startLine f.endLine kind)) ?_
    cases k with
    | indentation => rw [if_pos hg]; rfl
    | regionMarker =>
      refine (if_neg fun hindent => ?_).symm
      have hrel := rel_of_find?_eq_some (pairwise_inOrder_folds text o) hfind hindent
        ((hlines hindent).mpr ⟨rfl, rfl⟩)
      rw [Fold.inOrder_iff] at hrel
      simp [FoldKind.rank] at hrel

end

/-- **Ranges of folds.** The lines of a fold go out as one range. Its kind is that of a comment if
    a block comment covers the same lines; otherwise it has no kind if a fold by indentation has
    these lines, and only otherwise is it that of a region. -/
theorem range_of_fold {text : String} (o : ScanOptions)
    (hcount : (LineIndex.ofText text).lineCount ≤ 2 ^ 32) :
    Scan.Yields text o fun scan => ∀ f ∈ scan.outline.folds, ∀ r,
      (r ∈ FoldingRange.ofScan scan ∧ f.startLine = r.startLine ∧ f.endLine = r.endLine) ↔
        r = ⟨f.startLine, f.endLine,
          if commentCovers scan f then some .comment
          else if ⟨f.startLine, f.endLine, .indentation⟩ ∈ scan.outline.folds then none
          else some .region⟩ := by
  refine .of_ideal fun f hf r => ?_
  -- The first range with the lines of the fold is a comment, or the first of the folds.
  rw [← FoldingRange.mem_ofScan_and_sameLines_iff, FoldingRange.sameLines_iff]
  rw [List.find?_append, find?_commentRanges hcount o _ (spans_of_mem_folds hf).1,
    find?_folds hcount o _ hf]
  split <;> rfl

/-- A region whose end marker is indented. -/
def indentedRegion : String := "//region\n //endregion"

theorem folds_indentedRegion : (Scan.ideal indentedRegion .standard).outline.folds =
    [⟨0, 1, .indentation⟩, ⟨0, 1, .regionMarker⟩] := by
  have hindent : trueFolds (LineIndex.ofText indentedRegion) 4 = [⟨0, 1, .indentation⟩] := by
    decide +kernel
  have hregions : regionFolds (LineIndex.ofText indentedRegion) = [⟨0, 1, .regionMarker⟩] :=
    List.mergeSort_of_pairwise (by decide +kernel)
  show Fold.sort (trueFolds (LineIndex.ofText indentedRegion) 4 ++
    regionFolds (LineIndex.ofText indentedRegion)) = _
  rw [hindent, hregions]
  exact List.mergeSort_of_pairwise (by decide)

theorem fitsFor_indentedRegion : (LineIndex.ofText indentedRegion).FitsFor .standard :=
  LineIndex.fitsFor_of_lt (by decide +kernel)

theorem range_of_fold_indentedRegion :
    (LineIndex.ofText indentedRegion).lineCount ≤ 2 ^ 32 ∧
    ∃ scan, Scan.ofText indentedRegion .standard = .ok scan ∧
      ⟨0, 1, .regionMarker⟩ ∈ scan.outline.folds ∧ ⟨0, 1, none⟩ ∈ FoldingRange.ofScan scan := by
  have hcount : (LineIndex.ofText indentedRegion).lineCount ≤ 2 ^ 32 := by decide +kernel
  obtain ⟨scan, hscan, hranges⟩ :=
    (range_of_fold .standard hcount).returns fitsFor_indentedRegion
  obtain rfl := Scan.eq_ideal hscan
  have hf : ⟨0, 1, .regionMarker⟩ ∈ (Scan.ideal indentedRegion .standard).outline.folds := by
    rw [folds_indentedRegion]
    decide
  have hindent : ⟨0, 1, .indentation⟩ ∈ (Scan.ideal indentedRegion .standard).outline.folds := by
    rw [folds_indentedRegion]
    decide
  have hcovers : commentCovers (Scan.ideal indentedRegion .standard) ⟨0, 1, .regionMarker⟩ =
      false := by decide +kernel
  refine ⟨hcount, _, hscan, hf, ((hranges _ hf ⟨0, 1, none⟩).mpr ?_).1⟩
  rw [hcovers, if_neg Bool.false_ne_true, if_pos hindent]

/-- The lines of a region may go out without its kind, even where no comment covers them. -/
theorem not_region_indentedRegion :
    ¬ ∀ (text : String) (o : ScanOptions) (scan : Scan) (f : Fold),
      Scan.ofText text o = .ok scan → f ∈ scan.outline.folds → f.kind = .regionMarker →
      commentCovers scan f = false →
      ⟨f.startLine, f.endLine, some .region⟩ ∈ FoldingRange.ofScan scan := by
  intro h
  have hcomments : commentRanges (Scan.ideal indentedRegion .standard) = [] := by decide +kernel
  have hmem := h indentedRegion .standard _ ⟨0, 1, .regionMarker⟩
    (Scan.ofText_of_fitsFor fitsFor_indentedRegion)
    (by rw [folds_indentedRegion]; decide) rfl (by decide +kernel)
  rw [FoldingRange.mem_ofScan_iff, hcomments, folds_indentedRegion] at hmem
  revert hmem
  decide

/-! ## All ranges -/

/-- Whether a block comment goes from a line to a different one: from the line of its first
character to that of its last. -/
def CommentSpans (s : Scan) (first last : Nat) : Prop :=
  first ≠ last ∧ ∃ t ∈ s.tokens, t.kind = .comment ∧ ¬ ['/', '/'] <+: t.lexeme.toList ∧
    s.index.lineOf t.start = first ∧ s.index.lineOf (t.stop - 1) = last

section
variable {text : String} (hcount : (LineIndex.ofText text).lineCount ≤ 2 ^ 32) (o : ScanOptions)
include hcount

theorem exists_commentRange_iff {first last : Nat} :
    (∃ r ∈ commentRanges (Scan.ideal text o), r.startLine = first ∧ r.endLine = last) ↔
      CommentSpans (Scan.ideal text o) first last := by
  constructor
  · rintro ⟨r, hr, rfl, rfl⟩
    obtain ⟨t, ht, hblock, hlt, rfl⟩ := (mem_commentRanges_iff hcount o).mp hr
    obtain ⟨hkind, hline⟩ := Token.isBlockComment_iff.mp hblock
    exact ⟨Nat.ne_of_lt hlt, t, ht, hkind, hline, rfl, rfl⟩
  · rintro ⟨hne, t, ht, hkind, hline, rfl, rfl⟩
    have hlt := Nat.lt_of_le_of_ne (lineOf_start_le ht) hne
    exact ⟨_, (mem_commentRanges_iff hcount o).mpr
      ⟨t, ht, Token.isBlockComment_iff.mpr ⟨hkind, hline⟩, hlt, rfl⟩, rfl, rfl⟩

theorem exists_foldRange_iff {first last : Nat} :
    (∃ r ∈ (Scan.ideal text o).outline.folds.map FoldingRange.ofFold,
      r.startLine = first ∧ r.endLine = last) ↔
      ∃ f ∈ (Scan.ideal text o).outline.folds, f.startLine = first ∧ f.endLine = last := by
  constructor
  · rintro ⟨r, hr, rfl, rfl⟩
    obtain ⟨f, hf, rfl⟩ := List.mem_map.mp hr
    rw [ofFold_eq hcount (spans_of_mem_folds hf)]
    exact ⟨f, hf, rfl, rfl⟩
  · rintro ⟨f, hf, rfl, rfl⟩
    refine ⟨_, List.mem_map_of_mem hf, ?_⟩
    rw [ofFold_eq hcount (spans_of_mem_folds hf)]
    exact ⟨rfl, rfl⟩

end

/-- **Folding ranges are the union of folds and comments.** The ranges that go out lie strictly in
    order, and their lines are those of the folds together with those of the block comments over
    several lines. A range with the lines of such a comment is one of a comment, and every other
    one is of the kind of a fold with its lines. -/
theorem ranges_exact {text : String} (o : ScanOptions)
    (hcount : (LineIndex.ofText text).lineCount ≤ 2 ^ 32) :
    Scan.Yields text o fun scan =>
      (FoldingRange.ofScan scan).Pairwise FoldingRange.Before ∧
      (∀ first last, (∃ r ∈ FoldingRange.ofScan scan,
          r.startLine = first ∧ r.endLine = last) ↔
        (∃ f ∈ scan.outline.folds, f.startLine = first ∧ f.endLine = last) ∨
          CommentSpans scan first last) ∧
      ∀ r ∈ FoldingRange.ofScan scan,
        (CommentSpans scan r.startLine r.endLine → r.kind = some .comment) ∧
        (¬ CommentSpans scan r.startLine r.endLine →
          ∃ f ∈ scan.outline.folds, f.startLine = r.startLine ∧ f.endLine = r.endLine ∧
            (f.kind = .regionMarker ∧ r.kind = some .region ∨
              f.kind = .indentation ∧ r.kind = none)) := by
  apply Scan.Yields.of_ideal
  refine ⟨FoldingRange.pairwise_before_ofScan _, fun first last => ?_, fun r hr => ⟨?_, ?_⟩⟩
  · rw [← exists_foldRange_iff hcount, ← exists_commentRange_iff hcount,
      FoldingRange.exists_mem_ofScan_iff]
    simp only [List.mem_append, or_and_right, exists_or, or_comm]
  · rw [← exists_commentRange_iff hcount]
    rintro ⟨x, hx, hstart, hend⟩
    have hcomment := FoldingRange.mem_commentRanges_of_mem_ofScan hr hx
      (FoldingRange.sameLines_iff.mpr ⟨hstart.symm, hend.symm⟩)
    obtain ⟨t, -, -, -, rfl⟩ := (mem_commentRanges_iff hcount o).mp hcomment
    rfl
  · rw [← exists_commentRange_iff hcount]
    intro hnone
    rcases List.mem_append.mp (FoldingRange.mem_of_mem_ofScan hr) with hcomment | hfold
    · exact absurd ⟨r, hcomment, rfl, rfl⟩ hnone
    · obtain ⟨f, hf, rfl⟩ := List.mem_map.mp hfold
      rw [ofFold_eq hcount (spans_of_mem_folds hf)]
      refine ⟨f, hf, rfl, rfl, ?_⟩
      cases hkind : f.kind with
      | indentation => exact Or.inr ⟨rfl, rfl⟩
      | regionMarker => exact Or.inl ⟨rfl, rfl⟩

/-- A comment that nothing ends, over the lines of a fold by indentation. -/
def openComment : String := "/*\n note\n"

theorem ranges_exact_openComment :
    (LineIndex.ofText openComment).lineCount ≤ 2 ^ 32 ∧
    ∃ scan, Scan.ofText openComment .standard = .ok scan ∧
      ⟨0, 1, .indentation⟩ ∈ scan.outline.folds ∧ CommentSpans scan 0 1 ∧
      ⟨0, 1, some .comment⟩ ∈ FoldingRange.ofScan scan := by
  have hcount : (LineIndex.ofText openComment).lineCount ≤ 2 ^ 32 := by decide +kernel
  have hfits : (LineIndex.ofText openComment).FitsFor .standard :=
    LineIndex.fitsFor_of_lt (by decide +kernel)
  obtain ⟨scan, hscan, -, hlines, hkinds⟩ := (ranges_exact .standard hcount).returns hfits
  obtain rfl := Scan.eq_ideal hscan
  have hfold : ⟨0, 1, .indentation⟩ ∈ (Scan.ideal openComment .standard).outline.folds :=
    (Fold.sort_perm _).mem_iff.mpr (by decide +kernel)
  have hspans : CommentSpans (Scan.ideal openComment .standard) 0 1 :=
    ⟨by decide, ⟨.comment, "/*\n note\n", 0, ⟨0, 9⟩⟩, by decide +kernel, rfl, by decide +kernel,
      by decide +kernel, by decide +kernel⟩
  obtain ⟨⟨first, last, kind⟩, hr, hfirst, hlast⟩ := (hlines 0 1).mpr (Or.inr hspans)
  dsimp only at hfirst hlast
  subst hfirst hlast
  have hkind : kind = some .comment := (hkinds _ hr).1 hspans
  subst hkind
  exact ⟨hcount, _, hscan, hfold, hspans, hr⟩

end ContractScan.Editor
