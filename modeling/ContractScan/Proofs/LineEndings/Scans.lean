import ContractScan.Editor.Session
import ContractScan.Proofs.Findings
import ContractScan.Proofs.LineEndings.Places

/-
  Line endings and scans. A text whose lines end in another break has the same scan, but for
  where its tokens start and what bytes they fill (`sameScan_put`): the same lines and folds, the
  same brackets with the same partners, and the same findings at the same places; and an editor
  gets the same highlights, folding ranges and diagnostics.

  The findings are compared as they are collected (`shown_findings`). Since their starts alone
  settle their order (`diagnostics_eq_sort`), they are also the same when sorted.
-/

namespace ContractScan

open ContractScan.Editor (wireDiagnostic WireDiagnostic encodeHighlights Highlight FoldingRange
  segments segmentsOf segmentsOfLines withoutBreak HighlightKind commentRanges)

/-- What a finding says and where: all but its bytes. -/
def Diagnostic.seen (d : Diagnostic) : Severity × DiagnosticKind × String × Position × Position :=
  (d.severity, d.kind, d.message, d.range.start, d.range.stop)

/-- A finding as readers and editors see it. -/
def Diagnostic.shown (ix : LineIndex) (d : Diagnostic) :
    (Severity × DiagnosticKind × String × Position × Position) × WireDiagnostic :=
  (d.seen, wireDiagnostic ix d)

namespace LineEnding

variable (e : LineEnding) {text : String}

/-! ## Tokens without line breaks -/

/-- Brackets and the errors that are quoted in messages stay as they are. -/
theorem putText_lexeme {t : Token} (ht : t ∈ tokenize text)
    (hk : t.kind = .bracket ∨ t.kind = .invalid ∨ t.kind = .unrecognized) :
    e.putText t.lexeme = t.lexeme := by
  rw [putText, put_of_forall e (oneLine_lexeme ht hk), String.ofList_toList]

theorem bracketSide?_put {t : Token} (ht : t ∈ tokenize text) :
    (e.putToken text t).bracketSide? = t.bracketSide? := by
  rw [Token.bracketSide?, Token.bracketSide?, putToken_kind, putToken_lexeme]
  by_cases hk : t.kind = .bracket
  · rw [e.putText_lexeme ht (Or.inl hk)]
  · rw [if_neg hk, if_neg hk]

theorem problem?_put {t : Token} (ht : t ∈ tokenize text) :
    Diagnostic.problem? (e.putToken text t) = Diagnostic.problem? t := by
  rw [Diagnostic.problem?, Diagnostic.problem?, putToken_kind, putToken_lexeme]
  cases hk : t.kind
  case invalid => rw [e.putText_lexeme ht (Or.inr (Or.inl hk))]
  case unrecognized => rw [e.putText_lexeme ht (Or.inr (Or.inr hk))]
  all_goals rfl

theorem isBlockComment_put (t : Token) :
    (e.putToken text t).isBlockComment = t.isBlockComment := by
  have hslashes : ['/', '/'].isPrefixOf (e.putText t.lexeme).toList =
      ['/', '/'].isPrefixOf t.lexeme.toList := by
    rw [Bool.eq_iff_iff, List.isPrefixOf_iff_prefix, List.isPrefixOf_iff_prefix, putText,
      String.toList_ofList, prefix_put_iff e (by simp [Text.isLineBreak])]
  rw [Token.isBlockComment, Token.isBlockComment, Token.isLineComment, Token.isLineComment,
    putToken_kind, putToken_lexeme, hslashes]

/-! ## Findings -/

variable (hcr : '\r' ∉ text.toList)

theorem shown_ofKind {r' r : Range} (h : SameRange e text r' r) (kind : DiagnosticKind)
    (message : String) :
    (Diagnostic.ofKind kind r' message).shown (LineIndex.ofText (e.putText text)) =
      (Diagnostic.ofKind kind r message).shown (LineIndex.ofText text) := by
  simp only [Diagnostic.shown, Diagnostic.seen, Diagnostic.ofKind, wireDiagnostic, h.start, h.stop,
    h.wire]

include hcr

theorem shown_lexical :
    (Diagnostic.lexical ((tokenize text).map (e.putToken text))
        (LineIndex.ofText (e.putText text))).map
          (Diagnostic.shown (LineIndex.ofText (e.putText text))) =
      (Diagnostic.lexical (tokenize text) (LineIndex.ofText text)).map
        (Diagnostic.shown (LineIndex.ofText text)) := by
  rw [Diagnostic.lexical, Diagnostic.lexical, List.filterMap_map, List.map_filterMap,
    List.map_filterMap]
  refine List.filterMap_congr fun t ht => ?_
  rw [Function.comp_apply, problem?_put e ht, Option.map_map, Option.map_map]
  refine congrArg (fun g => Option.map g (Diagnostic.problem? t)) (funext fun p => ?_)
  exact shown_ofKind e (sameRange_rangeOf e hcr ht) p.1 p.2

theorem position_putToken {t : Token} (ht : t ∈ tokenize text) :
    (LineIndex.ofText (e.putText text)).position (e.putToken text t).start =
      (LineIndex.ofText text).position t.start := by
  have h := (sameRange_rangeOf e hcr ht).start
  simp only [LineIndex.rangeOf] at h
  exact h

/-- The message about a closer astray quotes it and the bracket around it. -/
theorem strayMessage_put {s : StrayCloser}
    (hs : s ∈ (Matching.ofTokens (tokenize text)).strays) :
    Diagnostic.strayMessage (LineIndex.ofText (e.putText text)) (s.map (e.putToken text)) =
      Diagnostic.strayMessage (LineIndex.ofText text) s := by
  have hcloser : s.closer ∈ (tokenize text).filter Token.isCloser :=
    (Matching.closers_perm _).subset (List.mem_append_right _ (List.mem_map_of_mem hs))
  rw [List.mem_filter] at hcloser
  have hlexeme := e.putText_lexeme hcloser.1 (Or.inl (Token.kind_of_isCloser hcloser.2))
  rw [Diagnostic.strayMessage, Diagnostic.strayMessage, StrayCloser.map, putToken_lexeme, hlexeme]
  cases ho : s.enclosing with
  | none => rfl
  | some o =>
    have hopener := (Matching.enclosing_follow hs ho).resolve_right (List.not_mem_nil)
    rw [List.mem_filter] at hopener
    have hlexeme := e.putText_lexeme hopener.1 (Or.inl (Token.kind_of_isOpener hopener.2))
    simp only [Option.map_some, putToken_lexeme, hlexeme, position_putToken e hcr hopener.1]

theorem shown_strays :
    (((Matching.ofTokens (tokenize text)).strays.map (StrayCloser.map (e.putToken text))).map
        (Diagnostic.ofStray (LineIndex.ofText (e.putText text)))).map
          (Diagnostic.shown (LineIndex.ofText (e.putText text))) =
      ((Matching.ofTokens (tokenize text)).strays.map
        (Diagnostic.ofStray (LineIndex.ofText text))).map
          (Diagnostic.shown (LineIndex.ofText text)) := by
  rw [List.map_map, List.map_map, List.map_map]
  refine List.map_congr_left fun s hs => ?_
  have hmem : s.closer ∈ tokenize text :=
    (Matching.strays_sublist_follow (tokenize text) []).subset (List.mem_map_of_mem hs)
  show (Diagnostic.ofKind _ _ (Diagnostic.strayMessage _ _)).shown _ = _
  rw [strayMessage_put e hcr hs]
  exact shown_ofKind e (sameRange_rangeOf e hcr hmem) _ _

theorem shown_openers :
    (((Matching.ofTokens (tokenize text)).unmatchedOpeners.map
        (BracketPair.map (e.putToken text))).map
          (Diagnostic.ofOpen (LineIndex.ofText (e.putText text)))).map
            (Diagnostic.shown (LineIndex.ofText (e.putText text))) =
      ((Matching.ofTokens (tokenize text)).unmatchedOpeners.map
        (Diagnostic.ofOpen (LineIndex.ofText text))).map
          (Diagnostic.shown (LineIndex.ofText text)) := by
  rw [List.map_map, List.map_map, List.map_map]
  refine List.map_congr_left fun p hp => ?_
  have hopener : p.opener ∈ (tokenize text).filter Token.isOpener := by
    rw [← Matching.pairs_opener]
    exact List.mem_map_of_mem (List.mem_filter.mp hp).1
  rw [List.mem_filter] at hopener
  have hlexeme := e.putText_lexeme hopener.1 (Or.inl (Token.kind_of_isOpener hopener.2))
  show (Diagnostic.ofKind _ _ ("`" ++ e.putText p.opener.lexeme ++ "` is never closed")).shown _ =
    _
  rw [hlexeme]
  exact shown_ofKind e (sameRange_rangeOf e hcr hopener.1) _ _

theorem shown_regions :
    (Diagnostic.regions (LineIndex.ofText (e.putText text))).map
        (Diagnostic.shown (LineIndex.ofText (e.putText text))) =
      (Diagnostic.regions (LineIndex.ofText text)).map
        (Diagnostic.shown (LineIndex.ofText text)) := by
  rw [Diagnostic.regions, Diagnostic.regions, regionPairing_put e hcr, List.map_append,
    List.map_append]
  rw [List.map_map, List.map_map, List.map_map, List.map_map]
  refine congrArg₂ (· ++ ·) (List.map_congr_left fun n _ => ?_)
    (List.map_congr_left fun n _ => ?_)
  · exact shown_ofKind e (sameRange_markerRange e hcr n) .unmatchedEndRegion _
  · exact shown_ofKind e (sameRange_markerRange e hcr n) .unterminatedRegion _

/-- The findings of the structure are shown as they were. -/
theorem shown_structuralFindings (o : ScanOptions) :
    (structuralFindings (e.putText text) o).map
        (Diagnostic.shown (LineIndex.ofText (e.putText text))) =
      (structuralFindings text o).map (Diagnostic.shown (LineIndex.ofText text)) := by
  have hside : ∀ t ∈ tokenize text, (e.putToken text t).bracketSide? = t.bracketSide? :=
    fun t ht => bracketSide?_put e ht
  have hregions : (if o.regionFolding then Diagnostic.regions (LineIndex.ofText (e.putText text))
      else []).map (Diagnostic.shown (LineIndex.ofText (e.putText text))) =
      (if o.regionFolding then Diagnostic.regions (LineIndex.ofText text) else []).map
        (Diagnostic.shown (LineIndex.ofText text)) := by
    split
    · exact shown_regions e hcr
    · rw [List.map_nil, List.map_nil]
  rw [structuralFindings, structuralFindings, tokenize_put e hcr,
    Matching.unmatchedOpeners_map hside, Matching.ofTokens_map hside]
  simp only [List.map_append, shown_strays e hcr, shown_openers e hcr, hregions]

theorem shown_findings (o : ScanOptions) :
    (findings (e.putText text) o).map (Diagnostic.shown (LineIndex.ofText (e.putText text))) =
      (findings text o).map (Diagnostic.shown (LineIndex.ofText text)) := by
  rw [findings, findings, List.map_append, List.map_append, tokenize_put e hcr,
    shown_lexical e hcr, shown_structuralFindings e hcr]

theorem shown_outline_diagnostics (o : ScanOptions) :
    (Scan.ideal (e.putText text) o).outline.diagnostics.map
        (Diagnostic.shown (LineIndex.ofText (e.putText text))) =
      (Scan.ideal text o).outline.diagnostics.map (Diagnostic.shown (LineIndex.ofText text)) := by
  rw [outline_diagnostics_eq_sort, outline_diagnostics_eq_sort]
  exact Diagnostic.map_sort_eq (fun x => x.1.2.2.2.1) (fun _ => rfl) (fun _ => rfl)
    (shown_structuralFindings e hcr o)
    ((pairwise_start_ne_findings text o).sublist (List.sublist_append_right _ _))

/-- The findings of a scan are shown as they were, in the same order. -/
theorem shown_diagnostics (o : ScanOptions) :
    (Scan.ideal (e.putText text) o).diagnostics.map
        (Diagnostic.shown (LineIndex.ofText (e.putText text))) =
      (Scan.ideal text o).diagnostics.map (Diagnostic.shown (LineIndex.ofText text)) := by
  rw [diagnostics_eq_sort, diagnostics_eq_sort]
  exact Diagnostic.map_sort_eq (fun x => x.1.2.2.2.1) (fun _ => rfl) (fun _ => rfl)
    (shown_findings e hcr o) (pairwise_start_ne_findings text o)

theorem reported_put (o : ScanOptions) (d : DiagnosticSettings) :
    ((Scan.ideal (e.putText text) o).reported d).map
        (wireDiagnostic (LineIndex.ofText (e.putText text))) =
      ((Scan.ideal text o).reported d).map (wireDiagnostic (LineIndex.ofText text)) := by
  have h := congrArg (fun xs => (xs.filter fun x => d.allows x.1.2.1).map Prod.snd)
    (shown_diagnostics e hcr o)
  simp only [List.filter_map, List.map_map] at h
  exact h

/-! ## Highlights and folding ranges -/

omit hcr in
theorem segmentsOfLines_put (kind : HighlightKind) (line column : Nat) (ls : List (List Char)) :
    segmentsOfLines kind line column (ls.map e.put) = segmentsOfLines kind line column ls := by
  induction ls generalizing line column with
  | nil => rfl
  | cons l ls ih =>
    have hline : withoutBreak (e.put l) = withoutBreak l := takeWhile_put_of_false e rfl rfl l
    rw [List.map_cons, segmentsOfLines, segmentsOfLines, hline, ih]

theorem segments_put {t : Token} (ht : t ∈ tokenize text) (kind : HighlightKind) :
    segments (LineIndex.ofText (e.putText text))
        ⟨kind, (LineIndex.ofText (e.putText text)).rangeOf (e.putToken text t)⟩ =
      segments (LineIndex.ofText text) ⟨kind, (LineIndex.ofText text).rangeOf t⟩ := by
  obtain ⟨a, w, b, tokenKind, htext, -, rfl⟩ := exists_cut_of_mem_tokenize ht
  have hw : '\r' ∉ w := fun h =>
    hcr (htext ▸ List.mem_append_right a (List.mem_append_left b h))
  have htext' : (e.putText text).toList = e.put a ++ (e.put w ++ e.put b) := by
    rw [putText, String.toList_ofList, htext, put_append, put_append]
  have hput := e.putToken_toToken htext tokenKind
  have hseg := Editor.segments_toToken htext kind tokenKind
  have hseg' := Editor.segments_toToken htext' kind tokenKind
  rw [← hput, wirePosition_put e hcr htext, splitLines_put e hw, segmentsOfLines_put] at hseg'
  exact hseg'.trans hseg.symm

theorem segmentsOf_put {ts : List Token} (hts : ∀ t ∈ ts, t ∈ tokenize text) :
    segmentsOf (LineIndex.ofText (e.putText text)) (ts.map (e.putToken text)) =
      segmentsOf (LineIndex.ofText text) ts := by
  induction ts with
  | nil => simp [segmentsOf]
  | cons t ts ih =>
    rw [List.forall_mem_cons] at hts
    have hhead : segmentsOf (LineIndex.ofText (e.putText text)) [e.putToken text t] =
        segmentsOf (LineIndex.ofText text) [t] := by
      have hsame := congrArg HighlightKind.ofTokenKind? (e.putToken_kind text t)
      cases hkind : HighlightKind.ofTokenKind? t.kind with
      | none =>
        rw [Editor.segmentsOf_singleton_of_none (hsame.trans hkind),
          Editor.segmentsOf_singleton_of_none hkind]
      | some kind =>
        rw [Editor.segmentsOf_singleton_of_some (hsame.trans hkind),
          Editor.segmentsOf_singleton_of_some hkind, segments_put e hcr hts.1]
    rw [List.map_cons, Editor.segmentsOf_cons, Editor.segmentsOf_cons _ t, hhead, ih hts.2]

theorem encodeHighlights_put (o : ScanOptions) :
    encodeHighlights (LineIndex.ofText (e.putText text))
        (Highlight.ofScan (Scan.ideal (e.putText text) o)) =
      encodeHighlights (LineIndex.ofText text) (Highlight.ofScan (Scan.ideal text o)) := by
  have h := segmentsOf_put e hcr fun t ht => ht
  rw [← tokenize_put e hcr] at h
  exact congrArg (Editor.deltasFrom 0 0) h

theorem lineOf_last_put {t : Token} (ht : t ∈ tokenize text) :
    (LineIndex.ofText (e.putText text)).lineOf ((e.putToken text t).stop - 1) =
      (LineIndex.ofText text).lineOf (t.stop - 1) := by
  obtain ⟨a, w, b, kind, htext, hne, rfl⟩ := exists_cut_of_mem_tokenize ht
  rw [e.putToken_toToken htext, Lexeme.stop_toToken, Lexeme.stop_toToken]
  dsimp only
  rw [← List.dropLast_concat_getLast hne] at htext ⊢
  generalize w.dropLast = w, w.getLast hne = x at htext ⊢
  have hcut : text.toList = (a ++ w) ++ x :: b := by
    rw [htext, List.append_assoc, List.append_assoc, List.singleton_append]
  have hput := lineOf_put_last e hcr hcut
  rw [List.append_assoc, put_append, List.length_append, List.length_append] at hput
  rw [hput, List.length_append, List.length_singleton]
  rfl

theorem ofComment?_put {t : Token} (ht : t ∈ tokenize text) :
    FoldingRange.ofComment? (LineIndex.ofText (e.putText text)) (e.putToken text t) =
      FoldingRange.ofComment? (LineIndex.ofText text) t := by
  have hfirst : (LineIndex.ofText (e.putText text)).lineOf (e.putToken text t).start =
      (LineIndex.ofText text).lineOf t.start := congrArg Position.line (position_putToken e hcr ht)
  rw [FoldingRange.ofComment?, FoldingRange.ofComment?, hfirst, lineOf_last_put e hcr ht]

theorem commentRanges_put (o : ScanOptions) :
    commentRanges (Scan.ideal (e.putText text) o) = commentRanges (Scan.ideal text o) := by
  show ((tokenize (e.putText text)).filter _).filterMap _ = ((tokenize text).filter _).filterMap _
  have hblock : Token.isBlockComment ∘ e.putToken text = Token.isBlockComment :=
    funext fun t => isBlockComment_put e t
  rw [tokenize_put e hcr, List.filter_map, List.filterMap_map, hblock]
  refine List.filterMap_congr fun t ht => ?_
  rw [Function.comp_apply]
  exact ofComment?_put e hcr (List.mem_filter.mp ht).1

end LineEnding

/-! ## Scans -/

/-- What a scan of a text has in common with one of the text with other line breaks. -/
structure SameScan (e : LineEnding) (text : String) (scan scan' : Scan) : Prop where
  /-- The tokens have the same kinds, and the same lexemes up to line breaks. -/
  tokens : scan'.tokens = scan.tokens.map (e.putToken text)
  lineCount : scan'.index.lineCount = scan.index.lineCount
  folds : scan'.outline.folds = scan.outline.folds
  /-- The brackets have the same partners and depths. -/
  brackets : scan'.outline.brackets =
    scan.outline.brackets.map (BracketPair.map (e.putToken text))
  strayClosers : scan'.outline.strayClosers = scan.outline.strayClosers.map (e.putToken text)
  lexical : scan'.lexicalDiagnostics.map Diagnostic.seen =
    scan.lexicalDiagnostics.map Diagnostic.seen
  structural : scan'.outline.diagnostics.map Diagnostic.seen =
    scan.outline.diagnostics.map Diagnostic.seen
  diagnostics : scan'.diagnostics.map Diagnostic.seen = scan.diagnostics.map Diagnostic.seen
  highlights : encodeHighlights scan'.index (Highlight.ofScan scan') =
    encodeHighlights scan.index (Highlight.ofScan scan)
  foldingRanges : FoldingRange.ofScan scan' = FoldingRange.ofScan scan
  /-- The diagnostics for an editor, whatever settings choose them. -/
  published (d : DiagnosticSettings) : (scan'.reported d).map (wireDiagnostic scan'.index) =
    (scan.reported d).map (wireDiagnostic scan.index)

theorem sameScan_ideal (e : LineEnding) {text : String} (hcr : '\r' ∉ text.toList)
    (o : ScanOptions) : SameScan e text (.ideal text o) (.ideal (e.putText text) o) := by
  have hside : ∀ t ∈ tokenize text, (e.putToken text t).bracketSide? = t.bracketSide? :=
    fun t ht => e.bracketSide?_put ht
  have hmatching : Matching.ofTokens (tokenize (e.putText text)) =
      ⟨(Matching.ofTokens (tokenize text)).pairs.map (BracketPair.map (e.putToken text)),
        (Matching.ofTokens (tokenize text)).strays.map (StrayCloser.map (e.putToken text))⟩ := by
    rw [e.tokenize_put hcr, Matching.ofTokens_map hside]
  have hfolds : (Scan.ideal (e.putText text) o).outline.folds =
      (Scan.ideal text o).outline.folds := e.trueFoldsOf_put hcr o
  have hlexical := e.shown_lexical hcr
  rw [← e.tokenize_put hcr] at hlexical
  have seen {ds es : List Diagnostic} {ix ix' : LineIndex}
      (h : es.map (Diagnostic.shown ix') = ds.map (Diagnostic.shown ix)) :
      es.map Diagnostic.seen = ds.map Diagnostic.seen := by
    have h := congrArg (List.map Prod.fst) h
    rwa [List.map_map, List.map_map] at h
  exact {
    tokens := e.tokenize_put hcr
    lineCount := by
      have h := congrArg List.length (e.lines_putText hcr)
      rwa [List.length_map] at h
    folds := hfolds
    brackets := congrArg Matching.pairs hmatching
    strayClosers := by
      have h := congrArg (fun m => m.strays.map StrayCloser.closer) hmatching
      have hcloser : StrayCloser.closer ∘ StrayCloser.map (e.putToken text) =
          e.putToken text ∘ StrayCloser.closer := rfl
      rw [List.map_map, hcloser, ← List.map_map] at h
      exact h
    lexical := seen hlexical
    structural := seen (e.shown_outline_diagnostics hcr o)
    diagnostics := seen (e.shown_diagnostics hcr o)
    highlights := e.encodeHighlights_put hcr o
    foldingRanges := by
      rw [FoldingRange.ofScan, FoldingRange.ofScan, e.commentRanges_put hcr, hfolds]
    published := e.reported_put hcr o }

/-- **Independence of line endings.** In a text without carriage returns, other line breaks in
    place of the line feeds change nothing of the tokens and of the scan but the breaks
    themselves. The scan stops where it stops for the text. -/
theorem sameScan_put (e : LineEnding) {text : String} (hcr : '\r' ∉ text.toList)
    (o : ScanOptions) :
    tokenize (e.putText text) = (tokenize text).map (e.putToken text) ∧
    (Scan.Yields text o fun scan =>
      ∃ scan', Scan.ofText (e.putText text) o = .ok scan' ∧ SameScan e text scan scan') ∧
    (Scan.ofText text o = .error .column → Scan.ofText (e.putText text) o = .error .column) := by
  rw [Scan.ofText_eq (e.putText text)]
  simp only [e.fitsFor_put hcr]
  refine ⟨e.tokenize_put hcr, ⟨fun hfits => ?_, fun hfits => ?_⟩, fun hstops => ?_⟩
  · exact ⟨_, Scan.ofText_of_fitsFor hfits, _, if_pos hfits, sameScan_ideal e hcr o⟩
  · rw [Scan.ofText_eq, if_neg hfits]
  · refine if_neg fun hfits => ?_
    rw [Scan.ofText_of_fitsFor hfits] at hstops
    cases hstops

/-- A comment over lines, an escaped break in a literal, brackets astray and a region. -/
theorem sameScan_put_crlf :
    '\r' ∉ "/*\n*/ 'a\\\n' )\n \x7b\n//#region\n".toList ∧
    (∃ scan scan', Scan.ofText "/*\n*/ 'a\\\n' )\n \x7b\n//#region\n" .standard = .ok scan ∧
      Scan.ofText "/*\r\n*/ 'a\\\r\n' )\r\n \x7b\r\n//#region\r\n" .standard = .ok scan' ∧
      SameScan .crlf "/*\n*/ 'a\\\n' )\n \x7b\n//#region\n" scan scan') ∧
    (tokenize "/*\r\n*/ 'a\\\r\n' )\r\n \x7b\r\n//#region\r\n").map Token.lexeme =
      ["/*\r\n*/", " ", "'a\\\r\n'", " ", ")", "\r\n ", "\x7b", "\r\n", "//#region", "\r\n"] := by
  have hcr : '\r' ∉ "/*\n*/ 'a\\\n' )\n \x7b\n//#region\n".toList := by decide
  have hput : LineEnding.crlf.putText "/*\n*/ 'a\\\n' )\n \x7b\n//#region\n" =
      "/*\r\n*/ 'a\\\r\n' )\r\n \x7b\r\n//#region\r\n" := by decide
  have hfits : (LineIndex.ofText "/*\n*/ 'a\\\n' )\n \x7b\n//#region\n").FitsFor .standard :=
    LineIndex.fitsFor_of_lt (by decide +kernel)
  obtain ⟨htokens, hscans, -⟩ := sameScan_put .crlf hcr .standard
  obtain ⟨scan, hscan, scan', hscan', hsame⟩ := hscans.returns hfits
  rw [hput] at htokens hscan'
  refine ⟨hcr, ⟨scan, scan', hscan, hscan', hsame⟩, ?_⟩
  rw [htokens]
  decide +kernel

end ContractScan
