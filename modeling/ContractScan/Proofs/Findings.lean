import ContractScan.Proofs.LexemeClass
import ContractScan.Proofs.Nesting
import ContractScan.Proofs.RegionMarkers
import ContractScan.Proofs.Yields

/-
  The findings of a scan. Each has its cause in the text, and each cause its one finding: a token
  that is an error, a bracket in no matched pair, or a region marker without a partner
  (`diagnostics_exact`). No two of them start at the same place, since a token that starts where
  a region marker does is a comment (`kind_eq_comment`), and so the start of a finding settles
  its kind (`IsCause.kind_eq`). The starts alone settle the order of the findings, whatever order
  they are collected in.
-/

namespace ContractScan

/-! ## Sorting by start -/

namespace Diagnostic

theorem inOrder_trans (a b c : Diagnostic) (hab : a.inOrder b) (hbc : b.inOrder c) :
    a.inOrder c := by
  simp only [inOrder, Bool.or_eq_true, Bool.and_eq_true, decide_eq_true_eq, beq_iff_eq] at *
  rcases hab with hab | ⟨hs, hab⟩
  · rcases hbc with hbc | ⟨hs', -⟩
    · exact Or.inl (Position.before_trans hab hbc)
    · exact Or.inl (hs' ▸ hab)
  · rcases hbc with hbc | ⟨hs', hbc⟩
    · exact Or.inl (hs ▸ hbc)
    · refine Or.inr ⟨hs.trans hs', ?_⟩
      rcases hab with hab | ⟨he, hab⟩
      · rcases hbc with hbc | ⟨he', -⟩
        · exact Or.inl (Position.before_trans hab hbc)
        · exact Or.inl (he' ▸ hab)
      · rcases hbc with hbc | ⟨he', hbc⟩
        · exact Or.inl (he ▸ hbc)
        · exact Or.inr ⟨he.trans he', String.le_trans hab hbc⟩

theorem inOrder_total (a b : Diagnostic) : a.inOrder b || b.inOrder a := by
  simp only [inOrder, Bool.or_eq_true, Bool.and_eq_true, decide_eq_true_eq, beq_iff_eq]
  rcases Position.before_trichotomy a.range.start b.range.start with h | h | h
  · exact Or.inl (Or.inl h)
  · rcases Position.before_trichotomy a.range.stop b.range.stop with h' | h' | h'
    · exact Or.inl (Or.inr ⟨h, Or.inl h'⟩)
    · rcases String.le_total a.kind.code b.kind.code with h'' | h''
      · exact Or.inl (Or.inr ⟨h, Or.inr ⟨h', h''⟩⟩)
      · exact Or.inr (Or.inr ⟨h.symm, Or.inr ⟨h'.symm, h''⟩⟩)
    · exact Or.inr (Or.inr ⟨h.symm, Or.inl h'⟩)
  · exact Or.inr (Or.inl h)

/-- Whether a finding starts in front of another. -/
def StartsBefore (a b : Diagnostic) : Prop := a.range.start.before b.range.start

/-- Findings that start at different places are sorted by their starts. -/
theorem pairwise_startsBefore_sort {ds : List Diagnostic}
    (h : ds.Pairwise fun a b => a.range.start ≠ b.range.start) :
    (sort ds).Pairwise StartsBefore := by
  have hne := (sort_perm ds).symm.pairwise h fun hab => hab.symm
  have hsorted : (sort ds).Pairwise fun a b => a.inOrder b :=
    List.pairwise_mergeSort inOrder_trans inOrder_total ds
  refine (hsorted.and hne).imp fun {a b} hab => ?_
  obtain ⟨hle, hne⟩ := hab
  rcases Bool.or_eq_true .. ▸ hle with h | h
  · exact h
  · rw [Bool.and_eq_true, beq_iff_eq] at h
    exact absurd h.1 hne

theorem sort_eq_of_perm {ds es : List Diagnostic} (hperm : es.Perm ds)
    (h : ds.Pairwise fun a b => a.range.start ≠ b.range.start) : sort es = sort ds := by
  have h' := hperm.symm.pairwise h fun hab => hab.symm
  exact Position.eq_of_perm_of_before ((sort_perm es).trans (hperm.trans (sort_perm ds).symm))
    (pairwise_startsBefore_sort h') (pairwise_startsBefore_sort h)

/-- Findings that look the same, where their starts can be told, look the same when sorted. -/
theorem map_sort_eq {α : Type} (start : α → Position) {f g : Diagnostic → α}
    (hf : ∀ d, start (f d) = d.range.start) (hg : ∀ d, start (g d) = d.range.start)
    {ds es : List Diagnostic} (h : es.map g = ds.map f)
    (hne : ds.Pairwise fun a b => a.range.start ≠ b.range.start) :
    (sort es).map g = (sort ds).map f := by
  have hne' : es.Pairwise fun a b => a.range.start ≠ b.range.start := by
    have hstarts : (ds.map f).Pairwise fun x y => start x ≠ start y :=
      List.pairwise_map.mpr (hne.imp fun {a b} hab => by rwa [hf, hf])
    rw [← h, List.pairwise_map] at hstarts
    exact hstarts.imp fun {a b} hab => by rwa [hg, hg] at hab
  have hsorted {g : Diagnostic → α} (hg : ∀ d, start (g d) = d.range.start) {ds : List Diagnostic}
      (hne : ds.Pairwise fun a b => a.range.start ≠ b.range.start) :
      ((sort ds).map g).Pairwise fun x y => (start x).before (start y) :=
    List.pairwise_map.mpr ((pairwise_startsBefore_sort hne).imp fun {a b} hab => by
      rw [hg, hg]
      exact hab)
  have hperm : ((sort es).map g).Perm ((sort ds).map f) := by
    refine ((sort_perm es).map g).trans ?_
    rw [h]
    exact ((sort_perm ds).map f).symm
  exact Position.eq_of_perm_of_before hperm (hsorted hg hne') (hsorted hf hne)

end Diagnostic

/-! ## Causes -/

namespace Scan

/-- The ranges of the tokens with a property. -/
def rangesOf (s : Scan) (p : Token → Bool) : List Range :=
  (s.tokens.filter p).map s.index.rangeOf

/-- The ranges of the region markers with a property, where region markers matter. -/
def markerRanges (s : Scan) (o : ScanOptions) (p : Nat → Bool) : List Range :=
  if o.regionFolding then ((List.range s.index.lineCount).filter p).map (markerRange s.index)
  else []

/-- What calls for the findings of a kind, in the order of the text. -/
def causes (s : Scan) (o : ScanOptions) : DiagnosticKind → List Range
  | .unmatchedCloser => s.rangesOf fun t => !closesMatched s.outline.brackets t && t.isCloser
  | .unmatchedOpener => s.rangesOf fun t => !opensMatched s.outline.brackets t && t.isOpener
  | .unterminatedRegion => s.markerRanges o fun n => LeftOpen s.index.lines n
  | .unmatchedEndRegion => s.markerRanges o fun n => Astray s.index.lines n
  | .unterminatedString => s.rangesOf fun t => t.kind = .invalidString
  | .invalidCharacter => s.rangesOf fun t => t.kind = .invalid
  | .unrecognizedOperator => s.rangesOf fun t => t.kind = .unrecognized

end Scan

/-- The findings about the structure of a text as they are collected. -/
def structuralFindings (text : String) (o : ScanOptions) : List Diagnostic :=
  let ix := LineIndex.ofText text
  let m := Matching.ofTokens (tokenize text)
  (m.strays.map (Diagnostic.ofStray ix) ++ m.unmatchedOpeners.map (Diagnostic.ofOpen ix)) ++
    (if o.regionFolding then Diagnostic.regions ix else [])

/-- The findings of a text as they are collected. -/
def findings (text : String) (o : ScanOptions) : List Diagnostic :=
  Diagnostic.lexical (tokenize text) (LineIndex.ofText text) ++ structuralFindings text o

theorem Diagnostic.brackets_perm (m : Matching) (ix : LineIndex) :
    (Diagnostic.brackets m ix).Perm
      (m.strays.map (ofStray ix) ++ m.unmatchedOpeners.map (ofOpen ix)) := by
  have h := (List.mergeSort_perm ((m.strays.map fun s => (s.closer.start, ofStray ix s)) ++
    m.unmatchedOpeners.map fun p => (p.opener.start, ofOpen ix p))
    fun a b => decide (a.1 ≤ b.1)).map Prod.snd
  rw [List.map_append, List.map_map, List.map_map] at h
  exact h

theorem outline_diagnostics_perm (text : String) (o : ScanOptions) :
    (Scan.ideal text o).outline.diagnostics.Perm (structuralFindings text o) :=
  (Diagnostic.sort_perm _).trans ((Diagnostic.brackets_perm _ _).append_right _)

/-- The ranges of findings of one kind, asked for by their kind. -/
theorem filter_kind_map {α : Type} {f : α → Diagnostic} {g : α → Range} {k : DiagnosticKind}
    (hk : ∀ x, (f x).kind = k) (hg : ∀ x, (f x).range = g x) (xs : List α)
    (k' : DiagnosticKind) :
    ((xs.map f).filter fun d => d.kind = k').map Diagnostic.range =
      if k = k' then xs.map g else [] := by
  rw [List.filter_map]
  by_cases h : k = k'
  · simp [Function.comp_def, hk, hg, h]
  · simp [Function.comp_def, hk, h]

theorem filter_kind_lexical (tokens : List Token) (ix : LineIndex) (k : DiagnosticKind) :
    ((Diagnostic.lexical tokens ix).filter fun d => d.kind = k).map Diagnostic.range =
      (tokens.filter fun t => (Diagnostic.problem? t).map Prod.fst = some k).map ix.rangeOf := by
  induction tokens with
  | nil => rfl
  | cons t ts ih =>
    unfold Diagnostic.lexical at ih ⊢
    rw [List.filterMap_cons, List.filter_cons]
    cases Diagnostic.problem? t with
    | none => simpa using ih
    | some p =>
      obtain ⟨kind, message⟩ := p
      by_cases hk : kind = k
      · simpa [Diagnostic.ofKind, hk] using ih
      · simpa [Diagnostic.ofKind, hk] using ih

theorem fst_problem?_eq (t : Token) (k : DiagnosticKind) :
    decide ((Diagnostic.problem? t).map Prod.fst = some k) =
      match k with
      | .unterminatedString => decide (t.kind = .invalidString)
      | .invalidCharacter => decide (t.kind = .invalid)
      | .unrecognizedOperator => decide (t.kind = .unrecognized)
      | _ => false := by
  unfold Diagnostic.problem?
  cases t.kind <;> cases k <;> rfl

/-- The findings about region markers are one for each marker without a partner. -/
theorem filter_kind_regions (ix : LineIndex) (k : DiagnosticKind) :
    ((Diagnostic.regions ix).filter fun d => d.kind = k).map Diagnostic.range =
      match k with
      | .unterminatedRegion =>
        ((List.range ix.lineCount).filter (LeftOpen ix.lines)).map (markerRange ix)
      | .unmatchedEndRegion =>
        ((List.range ix.lineCount).filter (Astray ix.lines)).map (markerRange ix)
      | _ => [] := by
  rw [Diagnostic.regions, unclosed_ofIndex, strayEnds_ofIndex, List.filter_append, List.map_append,
    filter_kind_map (f := Diagnostic.ofStrayEnd ix) (g := markerRange ix) (fun _ => rfl)
      fun _ => rfl,
    filter_kind_map (f := Diagnostic.ofUnclosed ix) (g := markerRange ix) (fun _ => rfl)
      fun _ => rfl]
  cases k <;> simp

/-- The findings about brackets are one for each bracket without a partner. -/
theorem filter_kind_brackets {ts : List Token} (h : ts.Nodup) (ix : LineIndex)
    (k : DiagnosticKind) :
    (((Matching.ofTokens ts).strays.map (Diagnostic.ofStray ix) ++
      (Matching.ofTokens ts).unmatchedOpeners.map (Diagnostic.ofOpen ix)).filter
        fun d => d.kind = k).map Diagnostic.range =
      match k with
      | .unmatchedCloser => (ts.filter fun t =>
          !closesMatched (Matching.ofTokens ts).pairs t && t.isCloser).map ix.rangeOf
      | .unmatchedOpener => (ts.filter fun t =>
          !opensMatched (Matching.ofTokens ts).pairs t && t.isOpener).map ix.rangeOf
      | _ => [] := by
  rw [List.filter_append, List.map_append,
    filter_kind_map (f := Diagnostic.ofStray ix) (g := fun s => ix.rangeOf s.closer)
      (fun _ => rfl) fun _ => rfl,
    filter_kind_map (f := Diagnostic.ofOpen ix) (g := fun p => ix.rangeOf p.opener)
      (fun _ => rfl) fun _ => rfl,
    ← Matching.strays_closer h, ← Matching.unmatchedOpeners_opener h, List.map_map, List.map_map]
  cases k <;> simp [Function.comp_def]

/-- The findings of a kind are one for each of its causes. -/
theorem filter_kind_findings (text : String) (o : ScanOptions) (k : DiagnosticKind) :
    ((findings text o).filter fun d => d.kind = k).map Diagnostic.range =
      (Scan.ideal text o).causes o k := by
  rw [findings, structuralFindings, List.filter_append, List.filter_append, List.map_append,
    List.map_append, filter_kind_lexical, filter_kind_brackets (nodup_tokenize text)]
  simp only [fst_problem?_eq]
  have hregions : ((if o.regionFolding then Diagnostic.regions (LineIndex.ofText text)
      else []).filter fun d => d.kind = k).map Diagnostic.range =
      if o.regionFolding then ((Diagnostic.regions (LineIndex.ofText text)).filter
        fun d => d.kind = k).map Diagnostic.range else [] := by
    split <;> rfl
  rw [hregions, filter_kind_regions]
  cases k <;> simp only [List.filter_false, List.map_nil, List.nil_append, List.append_nil,
    ite_self] <;> rfl

theorem range_mem_causes {text : String} {o : ScanOptions} {d : Diagnostic}
    (h : d ∈ findings text o) : d.range ∈ (Scan.ideal text o).causes o d.kind := by
  rw [← filter_kind_findings]
  exact List.mem_map_of_mem (List.mem_filter.mpr ⟨h, decide_eq_true rfl⟩)

/-! ## Places -/

/-- The kind of the findings that a token can call for. -/
def Token.finding? (t : Token) : Option DiagnosticKind :=
  match t.kind with
  | .invalidString => some .unterminatedString
  | .invalid => some .invalidCharacter
  | .unrecognized => some .unrecognizedOperator
  | .bracket => if t.isOpener then some .unmatchedOpener else some .unmatchedCloser
  | _ => none

/-- The kind of the findings that a region marker can call for. -/
def RegionMarker.finding : RegionMarker → DiagnosticKind
  | opens => .unterminatedRegion
  | closes => .unmatchedEndRegion

/-- What can call for a finding of a kind at a place of a text. -/
inductive IsCause (text : String) : DiagnosticKind → Position → Prop
  | token {t : Token} {k : DiagnosticKind} (ht : t ∈ tokenize text) (hk : t.finding? = some k) :
    IsCause text k ((LineIndex.ofText text).position t.start)
  | marker {n : Nat} {m : RegionMarker}
      (hm : (LineIndex.ofText text).lines[n]?.bind markerOf? = some m) :
    IsCause text m.finding (markerRange (LineIndex.ofText text) n).start

/-- A token that starts where a region marker does is a comment. -/
theorem kind_eq_comment {text : String} {t : Token} {n : Nat} {m : RegionMarker}
    (ht : t ∈ tokenize text) (hm : (LineIndex.ofText text).lines[n]?.bind markerOf? = some m)
    (h : (LineIndex.ofText text).position t.start = (markerRange (LineIndex.ofText text) n).start) :
    t.kind = .comment := by
  obtain ⟨p, hstart, -, r, hr⟩ := markerRange_start hm
  have htext : (LineIndex.ofText text).text = text.toList := flatten_splitLines _
  rw [htext] at hr
  have hp : p < text.toList.length := by
    by_contra hp
    rw [List.drop_eq_nil_of_le (Nat.le_of_not_lt hp)] at hr
    cases hr
  have heq : t.start = p :=
    LineIndex.position_injective (Nat.le_of_lt (start_lt_of_mem_tokenize ht)) (Nat.le_of_lt hp)
      (h.trans hstart)
  obtain ⟨before, c, r', hcut, rfl⟩ := mem_tokenize ht
  have heq : before.length = p := heq
  rw [hcut, ← heq, List.drop_left] at hr
  injection hr with hc hr
  subst hc hr
  exact Lexeme.kind_first_of_opensComment rfl

/-- Findings of different kinds start at different places. -/
theorem IsCause.kind_eq {text : String} {k k' : DiagnosticKind} {p q : Position}
    (hk : IsCause text k p) (hk' : IsCause text k' q) (h : p = q) : k = k' := by
  -- A token at a marker is a comment, and no comment calls for a finding.
  have comment {t : Token} {k : DiagnosticKind} (hk : t.finding? = some k) : t.kind ≠ .comment := by
    intro h
    rw [Token.finding?, h] at hk
    cases hk
  cases hk with
  | @token t _ ht hk =>
    cases hk' with
    | @token u _ hu hk' =>
      have hstart := LineIndex.position_injective (Nat.le_of_lt (start_lt_of_mem_tokenize ht))
        (Nat.le_of_lt (start_lt_of_mem_tokenize hu)) h
      rw [eq_of_start_eq ht hu hstart] at hk
      exact Option.some.inj (hk.symm.trans hk')
    | marker hm => exact absurd (kind_eq_comment ht hm h) (comment hk)
  | @marker n m hm =>
    cases hk' with
    | token hu hk' => exact absurd (kind_eq_comment hu hm h.symm) (comment hk')
    | @marker n' m' hm' =>
      obtain ⟨p, hp, hline, -⟩ := markerRange_start hm
      obtain ⟨p', hp', hline', -⟩ := markerRange_start hm'
      have hn : n = n' := by
        rw [← hline, ← hline', ← hp, ← hp', h]
      rw [hn] at hm
      rw [Option.some.inj (hm.symm.trans hm')]

theorem Scan.mem_rangesOf {s : Scan} {p : Token → Bool} {r : Range} :
    r ∈ s.rangesOf p ↔ ∃ t ∈ s.tokens, p t ∧ s.index.rangeOf t = r := by
  simp [rangesOf, and_assoc]

theorem Scan.exists_of_mem_markerRanges {s : Scan} {o : ScanOptions} {p : Nat → Bool} {r : Range}
    (h : r ∈ s.markerRanges o p) : ∃ n, p n ∧ markerRange s.index n = r := by
  unfold markerRanges at h
  split at h
  · obtain ⟨n, hn, rfl⟩ := List.mem_map.mp h
    exact ⟨n, (List.mem_filter.mp hn).2, rfl⟩
  · cases h

theorem isCause_of_mem_causes {text : String} {o : ScanOptions} {k : DiagnosticKind} {r : Range}
    (h : r ∈ (Scan.ideal text o).causes o k) : IsCause text k r.start := by
  cases k
  case unterminatedRegion =>
    obtain ⟨n, hn, rfl⟩ := Scan.exists_of_mem_markerRanges h
    exact .marker (m := .opens) (of_decide_eq_true hn).1
  case unmatchedEndRegion =>
    obtain ⟨n, hn, rfl⟩ := Scan.exists_of_mem_markerRanges h
    exact .marker (m := .closes) (of_decide_eq_true hn).1
  all_goals
    obtain ⟨t, ht, hp, rfl⟩ := Scan.mem_rangesOf.mp h
    refine .token ht ?_
    unfold Token.finding?
  case unmatchedCloser =>
    have hc : t.isCloser := (Bool.and_eq_true _ _ ▸ hp).2
    rw [Token.kind_of_isCloser hc]
    exact if_neg fun ho => Token.not_isCloser_of_isOpener ho hc
  case unmatchedOpener =>
    have ho : t.isOpener := (Bool.and_eq_true _ _ ▸ hp).2
    rw [Token.kind_of_isOpener ho]
    exact if_pos ho
  all_goals rw [of_decide_eq_true hp]

/-! ## Order -/

theorem Scan.pairwise_rangesOf (text : String) (o : ScanOptions) (p : Token → Bool) :
    ((Scan.ideal text o).rangesOf p).Pairwise fun a b => a.start.before b.start :=
  List.pairwise_map.mpr ((pairwise_before_tokenize text).filter p)

theorem Scan.pairwise_markerRanges {s : Scan} {o : ScanOptions} {p : Nat → Bool}
    {m : RegionMarker} (h : ∀ n, p n → s.index.lines[n]?.bind markerOf? = some m) :
    (s.markerRanges o p).Pairwise fun a b => a.start.before b.start := by
  unfold markerRanges
  split
  · refine List.pairwise_map.mpr ?_
    refine (List.pairwise_lt_range.filter p).imp_of_mem fun {n n'} hn hn' hlt => ?_
    obtain ⟨q, hq, hline, -⟩ := markerRange_start (h n (List.mem_filter.mp hn).2)
    obtain ⟨q', hq', hline', -⟩ := markerRange_start (h n' (List.mem_filter.mp hn').2)
    rw [hq, hq', Position.before_iff, hline, hline']
    exact Or.inl hlt
  · exact List.Pairwise.nil

/-- The causes of the findings of a kind lie in order. -/
theorem pairwise_causes (text : String) (o : ScanOptions) (k : DiagnosticKind) :
    ((Scan.ideal text o).causes o k).Pairwise fun a b => a.start.before b.start := by
  cases k
  case unterminatedRegion =>
    exact Scan.pairwise_markerRanges fun n hn => (of_decide_eq_true hn).1
  case unmatchedEndRegion =>
    exact Scan.pairwise_markerRanges fun n hn => (of_decide_eq_true hn).1
  all_goals exact Scan.pairwise_rangesOf text o _

theorem pairwise_of_pairwise_kind {R : Diagnostic → Diagnostic → Prop} {ds : List Diagnostic}
    (hsame : ∀ k, (ds.filter fun d => d.kind = k).Pairwise R)
    (hother : ∀ a ∈ ds, ∀ b ∈ ds, a.kind ≠ b.kind → R a b) : ds.Pairwise R := by
  induction ds with
  | nil => exact List.Pairwise.nil
  | cons d ds ih =>
    refine List.Pairwise.cons (fun e he => ?_) (ih (fun k => ?_) fun a ha b hb =>
      hother a (List.mem_cons_of_mem d ha) b (List.mem_cons_of_mem d hb))
    · by_cases hk : d.kind = e.kind
      · have h := hsame e.kind
        rw [List.filter_cons_of_pos (by simpa using hk)] at h
        exact (List.pairwise_cons.mp h).1 e (List.mem_filter.mpr ⟨he, decide_eq_true rfl⟩)
      · exact hother d List.mem_cons_self e (List.mem_cons_of_mem d he) hk
    · exact (hsame k).sublist ((List.sublist_cons_self d ds).filter _)

/-- No two findings of a text start at the same place. -/
theorem pairwise_start_ne_findings (text : String) (o : ScanOptions) :
    (findings text o).Pairwise fun a b => a.range.start ≠ b.range.start := by
  have hcause {d : Diagnostic} (hd : d ∈ findings text o) : IsCause text d.kind d.range.start :=
    isCause_of_mem_causes (range_mem_causes hd)
  refine pairwise_of_pairwise_kind (fun k => ?_) fun a ha b hb hk h =>
    hk ((hcause ha).kind_eq (hcause hb) h)
  have hsorted := pairwise_causes text o k
  rw [← filter_kind_findings, List.pairwise_map] at hsorted
  exact hsorted.imp fun hab => Position.ne_of_before hab

theorem outline_diagnostics_eq_sort (text : String) (o : ScanOptions) :
    (Scan.ideal text o).outline.diagnostics = Diagnostic.sort (structuralFindings text o) :=
  Diagnostic.sort_eq_of_perm ((Diagnostic.brackets_perm _ _).append_right _)
    ((pairwise_start_ne_findings text o).sublist (List.sublist_append_right _ _))

theorem diagnostics_eq_sort (text : String) (o : ScanOptions) :
    (Scan.ideal text o).diagnostics = Diagnostic.sort (findings text o) :=
  Diagnostic.sort_eq_of_perm ((outline_diagnostics_perm text o).append_left _)
    (pairwise_start_ne_findings text o)

theorem mem_diagnostics_iff {text : String} {o : ScanOptions} {d : Diagnostic} :
    d ∈ (Scan.ideal text o).diagnostics ↔ d ∈ findings text o := by
  rw [diagnostics_eq_sort, (Diagnostic.sort_perm _).mem_iff]

/-- **The findings of a scan.** They lie in the strict order of their starts, whatever order they
    are collected in, and those of a kind are one for each of its causes and no others. -/
theorem diagnostics_exact (text : String) (o : ScanOptions) :
    Scan.Yields text o fun scan =>
      (scan.diagnostics.Pairwise fun a b => a.range.start.before b.range.start) ∧
      (∀ ds, ds.Perm (scan.lexicalDiagnostics ++ scan.outline.diagnostics) →
        Diagnostic.sort ds = scan.diagnostics) ∧
      ∀ k, (scan.diagnostics.filter fun d => d.kind = k).map Diagnostic.range =
        scan.causes o k := by
  apply Scan.Yields.of_ideal
  have hsorted : (Scan.ideal text o).diagnostics.Pairwise Diagnostic.StartsBefore := by
    rw [diagnostics_eq_sort]
    exact Diagnostic.pairwise_startsBefore_sort (pairwise_start_ne_findings text o)
  refine ⟨hsorted, fun ds hds => ?_, fun k => ?_⟩
  · rw [diagnostics_eq_sort]
    exact Diagnostic.sort_eq_of_perm (hds.trans ((outline_diagnostics_perm text o).append_left _))
      (pairwise_start_ne_findings text o)
  · have hperm : (((Scan.ideal text o).diagnostics.filter fun d => d.kind = k).map
        Diagnostic.range).Perm ((Scan.ideal text o).causes o k) := by
      rw [← filter_kind_findings, diagnostics_eq_sort]
      exact ((Diagnostic.sort_perm _).filter _).map _
    exact Position.eq_of_perm_of_before hperm (List.pairwise_map.mpr (hsorted.filter _))
      (pairwise_causes text o k)

end ContractScan
