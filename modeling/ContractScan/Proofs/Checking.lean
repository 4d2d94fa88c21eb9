import ContractScan.Proofs.Findings
import ContractScan.Proofs.Seams
import ContractScan.Proofs.WellNested
import ContractScan.Terminal

/-
  What a check accepts, and what it prints (`check_exact`). A check fails on tokens that are
  errors and on brackets that are not well nested, each where the settings report them; region
  markers only warn, and a comment that nothing closes is no finding. The kind of a finding tells
  its severity (`IsFinding.severity_eq`), so a check fails exactly when a kind of errors has a
  cause in the text (`exists_isError_iff`).

  The report has one row for each finding. No message breaks its row, whatever the text holds
  (`IsFinding.oneLine_message`): the texts that messages quote are brackets, runs of operators, and
  characters that are escaped.
-/

namespace ContractScan

open DiagnosticKind (unmatchedCloser unmatchedOpener unterminatedString invalidCharacter
  unrecognizedOperator)

/-! ## Brackets of a text -/

/-- The lexemes of the brackets among tokens. -/
def bracketTexts (ts : List Token) : List String :=
  (ts.filter fun t => t.kind = .bracket).map Token.lexeme

/-- The brackets are the six texts of sides and shapes. -/
theorem BracketSide.exists_text_eq {c : Char} (h : Lexeme.isBracket c) :
    ∃ side : BracketSide, side.text = String.ofList [c] := by
  simp only [Lexeme.isBracket, List.contains_iff_mem, List.mem_cons, List.not_mem_nil,
    or_false] at h
  rcases h with rfl | rfl | rfl | rfl | rfl | rfl
  · exact ⟨.opens .brace, by decide⟩
  · exact ⟨.closes .brace, by decide⟩
  · exact ⟨.opens .round, by decide⟩
  · exact ⟨.closes .round, by decide⟩
  · exact ⟨.opens .square, by decide⟩
  · exact ⟨.closes .square, by decide⟩

theorem exists_text_eq_lexeme {text : String} {t : Token} (ht : t ∈ tokenize text)
    (hk : t.kind = .bracket) : ∃ side : BracketSide, side.text = t.lexeme := by
  obtain ⟨before, c, r, -, rfl⟩ := mem_tokenize ht
  obtain ⟨hc, hchars⟩ := Lexeme.bracket_of_kind_first hk
  rw [Lexeme.toToken, hchars]
  exact BracketSide.exists_text_eq hc

theorem map_text_bracketSides (text : String) :
    ((tokenize text).filterMap Token.bracketSide?).map BracketSide.text =
      bracketTexts (tokenize text) := by
  rw [bracketTexts, List.map_filterMap, ← List.filterMap_eq_map, ← List.filterMap_eq_filter,
    List.filterMap_filterMap]
  refine List.filterMap_congr fun t ht => ?_
  by_cases hk : t.kind = .bracket
  · obtain ⟨side, htext⟩ := exists_text_eq_lexeme ht hk
    simp [Token.bracketSide?_eq_some_iff.mpr ⟨hk, htext.symm⟩, htext, hk]
  · simp [Token.bracketSide?, Option.guard, hk]

/-- The brackets of a text are balanced when their lexemes spell a well-nested word. -/
theorem isBalanced_tokenize_iff (text : String) :
    (Matching.ofTokens (tokenize text)).isBalanced ↔
      SpellsWellNested (bracketTexts (tokenize text)) := by
  rw [Matching.isBalanced_iff, ← map_text_bracketSides, spellsWellNested_map]

/-- No bracket is reported exactly when all are balanced. -/
theorem causes_brackets_eq_nil_iff (text : String) (o : ScanOptions) :
    ((Scan.ideal text o).causes o unmatchedCloser = [] ∧
      (Scan.ideal text o).causes o unmatchedOpener = []) ↔
      (Matching.ofTokens (tokenize text)).isBalanced := by
  have hnodup := nodup_tokenize text
  have hclosers : (Scan.ideal text o).causes o unmatchedCloser = ((Matching.ofTokens
      (tokenize text)).strays.map StrayCloser.closer).map (LineIndex.ofText text).rangeOf := by
    rw [Matching.strays_closer hnodup]
    rfl
  have hopeners : (Scan.ideal text o).causes o unmatchedOpener = ((Matching.ofTokens
      (tokenize text)).unmatchedOpeners.map BracketPair.opener).map
        (LineIndex.ofText text).rangeOf := by
    rw [Matching.unmatchedOpeners_opener hnodup]
    rfl
  rw [hclosers, hopeners, Matching.isBalanced, Matching.unmatchedOpeners]
  simp [List.filter_eq_nil_iff]

/-! ## Where findings come from -/

/-- The findings by what they are made from. -/
inductive IsFinding (text : String) : Diagnostic → Prop
  | token {t : Token} {k : DiagnosticKind} {message : String} (ht : t ∈ tokenize text)
      (hp : Diagnostic.problem? t = some (k, message)) :
    IsFinding text (.ofKind k ((LineIndex.ofText text).rangeOf t) message)
  | stray {s : StrayCloser} (hs : s ∈ (Matching.ofTokens (tokenize text)).strays) :
    IsFinding text (.ofStray (LineIndex.ofText text) s)
  | opener {p : BracketPair} (hp : p ∈ (Matching.ofTokens (tokenize text)).pairs) :
    IsFinding text (.ofOpen (LineIndex.ofText text) p)
  | strayEnd (n : Nat) : IsFinding text (.ofStrayEnd (LineIndex.ofText text) n)
  | unclosed (n : Nat) : IsFinding text (.ofUnclosed (LineIndex.ofText text) n)

theorem isFinding_of_mem_findings {text : String} {o : ScanOptions} {d : Diagnostic}
    (h : d ∈ findings text o) : IsFinding text d := by
  rcases List.mem_append.mp h with h | h
  · obtain ⟨t, ht, hd⟩ := List.mem_filterMap.mp h
    obtain ⟨⟨k, message⟩, hp, rfl⟩ := Option.map_eq_some_iff.mp hd
    exact .token ht hp
  rcases List.mem_append.mp h with h | h
  · rcases List.mem_append.mp h with h | h
    · obtain ⟨s, hs, rfl⟩ := List.mem_map.mp h
      exact .stray hs
    · obtain ⟨p, hp, rfl⟩ := List.mem_map.mp h
      exact .opener (List.mem_filter.mp hp).1
  · split at h
    · rcases List.mem_append.mp h with h | h
      · obtain ⟨n, -, rfl⟩ := List.mem_map.mp h
        exact .strayEnd n
      · obtain ⟨n, -, rfl⟩ := List.mem_map.mp h
        exact .unclosed n
    · cases h

theorem IsFinding.severity_eq {text : String} {d : Diagnostic} (h : IsFinding text d) :
    d.severity = d.kind.severity := by
  cases h <;> rfl

/-- No message has a line break, whatever the text holds. -/
theorem IsFinding.oneLine_message {text : String} {d : Diagnostic} (h : IsFinding text d) :
    OneLine d.message := by
  have opener {t : Token} (ht : t ∈ (tokenize text).filter Token.isOpener) : OneLine t.lexeme :=
    oneLine_lexeme (List.mem_filter.mp ht).1 (.inl <|
      Token.kind_of_isOpener (List.mem_filter.mp ht).2)
  cases h with
  | @token t k message ht hp =>
    unfold Diagnostic.problem? at hp
    split at hp
    · cases hp
      exact (by decide : OneLine "string literal is not closed before the end of the line")
    · next hk =>
      cases hp
      exact oneLine_append.mpr ⟨by decide, oneLine_encode t.lexeme⟩
    · next hk =>
      cases hp
      simp only [Diagnostic.ofKind, oneLine_append]
      exact ⟨⟨by decide, oneLine_lexeme ht (.inr (.inr hk))⟩, by decide⟩
    · cases hp
  | @stray s hs =>
    have hcloser : OneLine s.closer.lexeme := by
      have hs' := (Matching.closers_perm (tokenize text)).mem_iff.mp
        (List.mem_append_right _ (List.mem_map_of_mem hs))
      obtain ⟨ht, hc⟩ := List.mem_filter.mp hs'
      exact oneLine_lexeme ht (.inl (Token.kind_of_isCloser hc))
    simp only [Diagnostic.ofStray, Diagnostic.ofKind, Diagnostic.strayMessage]
    split
    · next o ho =>
      have ho := (Matching.enclosing_follow hs ho).resolve_right (List.not_mem_nil)
      simp only [oneLine_append, oneLine_position, opener ho, hcloser, and_true]
      decide
    · simp only [oneLine_append, hcloser, and_true]
      decide
  | @opener p hp =>
    have hp' := List.mem_map_of_mem (f := BracketPair.opener) hp
    rw [Matching.pairs_opener] at hp'
    simp only [Diagnostic.ofOpen, Diagnostic.ofKind, oneLine_append, opener hp', and_true]
    decide
  | strayEnd => exact (by decide : OneLine "endregion marker without an open region")
  | unclosed => exact (by decide : OneLine "region is never closed")

/-! ## Errors -/

theorem exists_kind_iff (text : String) (o : ScanOptions) (k : DiagnosticKind) :
    (∃ d ∈ findings text o, d.kind = k) ↔ (Scan.ideal text o).causes o k ≠ [] := by
  rw [← filter_kind_findings, ne_eq, List.map_eq_nil_iff, List.filter_eq_nil_iff]
  simp

theorem exists_isError_iff (text : String) (o : ScanOptions) (p : DiagnosticKind → Bool) :
    (∃ d ∈ findings text o, p d.kind ∧ d.isError) ↔
      ∃ k, k.severity = .error ∧ p k ∧ (Scan.ideal text o).causes o k ≠ [] := by
  simp only [← exists_kind_iff]
  constructor
  · rintro ⟨d, hd, hp, he⟩
    have he := of_decide_eq_true he
    rw [(isFinding_of_mem_findings hd).severity_eq] at he
    exact ⟨d.kind, he, hp, d, hd, rfl⟩
  · rintro ⟨k, he, hp, d, hd, rfl⟩
    refine ⟨d, hd, hp, decide_eq_true ?_⟩
    rw [(isFinding_of_mem_findings hd).severity_eq, he]

theorem Scan.rangesOf_ne_nil_iff {s : Scan} {p : Token → Bool} :
    s.rangesOf p ≠ [] ↔ ∃ t ∈ s.tokens, p t := by
  simp [rangesOf, List.filter_eq_nil_iff]

/-- A check fails when the settings report a kind of errors that has a cause. -/
theorem hasErrors_check_iff (label text : String) (o : ScanOptions) (settings : Settings) :
    (Command.check label (Scan.ideal text o) settings).hasErrors ↔
      ∃ k, k.severity = .error ∧ settings.diagnostics.allows k ∧
        (Scan.ideal text o).causes o k ≠ [] := by
  rw [← exists_isError_iff, Command.check, Report.check, Scan.reported, List.any_filter,
    List.any_eq_true]
  simp only [mem_diagnostics_iff, Bool.and_eq_true]

theorem exists_error_kind_iff (p : DiagnosticKind → Prop) :
    (∃ k, k.severity = .error ∧ p k) ↔
      (p unterminatedString ∨ p invalidCharacter ∨ p unrecognizedOperator) ∨
        (p unmatchedCloser ∨ p unmatchedOpener) := by
  constructor
  · rintro ⟨k, hk, hp⟩
    cases k <;> simp_all [DiagnosticKind.severity]
  · rintro ((h | h | h) | (h | h)) <;> exact ⟨_, rfl, h⟩

/-- Token errors have causes exactly when a token is one. -/
theorem causes_lexical_iff (text : String) (o : ScanOptions) :
    ((Scan.ideal text o).causes o unterminatedString ≠ [] ∨
      (Scan.ideal text o).causes o invalidCharacter ≠ [] ∨
      (Scan.ideal text o).causes o unrecognizedOperator ≠ []) ↔
    ∃ t ∈ tokenize text,
      t.kind = .invalidString ∨ t.kind = .invalid ∨ t.kind = .unrecognized := by
  simp only [Scan.causes, Scan.rangesOf_ne_nil_iff, decide_eq_true_eq, and_or_left, exists_or]
  rfl

/-- A check fails on tokens that are errors and on brackets that are not well nested. -/
theorem hasErrors_check (label text : String) (o : ScanOptions) (settings : Settings) :
    (Command.check label (Scan.ideal text o) settings).hasErrors ↔
      (settings.diagnostics.lexical ∧ ∃ t ∈ tokenize text,
        t.kind = .invalidString ∨ t.kind = .invalid ∨ t.kind = .unrecognized) ∨
      (settings.diagnostics.structural ∧
        ¬ SpellsWellNested (bracketTexts (tokenize text))) := by
  rw [hasErrors_check_iff, exists_error_kind_iff, ← causes_lexical_iff text o,
    ← isBalanced_tokenize_iff, ← causes_brackets_eq_nil_iff text o]
  simp only [DiagnosticSettings.allows, DiagnosticKind.isStructural, if_true, Bool.false_eq_true,
    if_false, ← and_or_left, not_and_or, ne_eq]

/-! ## Reports -/

namespace Report

/-- A row of a report: the line of a finding without its line feed. -/
def row (label : String) (d : Diagnostic) : String :=
  label ++ ":" ++ toString (d.range.start.line + 1) ++ ":" ++
    toString (d.range.start.column + 1) ++ ": " ++ d.severity.word ++ "[" ++ d.kind.code ++ "]: " ++
    d.message

theorem checkLine_eq_row (label : String) (d : Diagnostic) :
    checkLine label d = row label d ++ "\n" := by
  simp only [checkLine, row, String.append_assoc]
  rfl

theorem oneLine_row {label : String} (hlabel : OneLine label) {d : Diagnostic}
    (hmessage : OneLine d.message) : OneLine (row label d) := by
  have hword : ∀ s : Severity, OneLine s.word := by rintro ⟨⟩ <;> decide
  have hcode : ∀ k : DiagnosticKind, OneLine k.code := by rintro ⟨⟩ <;> decide
  simp only [row, oneLine_append, oneLine_toString, hlabel, hword, hcode, hmessage, and_true,
    true_and]
  decide

/-- The lines of a report: one for each finding, and one more where none of them is an error. -/
theorem cutIntoLines_check {label : String} (hlabel : OneLine label) {ds : List Diagnostic}
    (hmessages : ∀ d ∈ ds, OneLine d.message) :
    CutIntoLines (check label ds).output.toList
      ((ds.map (checkLine label) ++ if (check label ds).hasErrors then [] else ["ok\n"]).map
        String.toList ++ [[]]) := by
  let rows := ds.map (row label) ++ if (check label ds).hasErrors then [] else ["ok"]
  have hlines : rows.map (· ++ "\n") =
      ds.map (checkLine label) ++ if (check label ds).hasErrors then [] else ["ok\n"] := by
    rw [List.map_append, List.map_map, List.map_congr_left fun d _ => checkLine_eq_row label d]
    split <;> rfl
  have honeLine : ∀ r ∈ rows, OneLine r := by
    intro r hr
    rcases List.mem_append.mp hr with hr | hr
    · obtain ⟨d, hd, rfl⟩ := List.mem_map.mp hr
      exact oneLine_row hlabel (hmessages d hd)
    · split at hr
      · cases hr
      · rw [List.mem_singleton.mp hr]
        decide
  have houtput : (check label ds).output = ofRows rows := by
    rw [ofRows, hlines, String.join_append, check]
    split <;> rfl
  rw [houtput, ← hlines, List.map_map]
  exact cutIntoLines_rows honeLine

end Report

/-- **Checks.** A check fails, and the program ends with status one, exactly when the settings
    report errors of tokens and there is one, or report the structure and the brackets are not
    well nested. It prints one line for each finding that the settings allow, in the strict order
    of their starts, and then `ok` unless it fails. -/
theorem check_exact {label : String} (hlabel : OneLine label) (text : String)
    (settings : Settings) (format : TokenFormat) (options : Options) :
    Scan.Yields text settings.folding.scanOptions fun scan =>
      let report := Command.check label scan settings
      let allowed := scan.diagnostics.filter fun d => settings.diagnostics.allows d.kind
      (report.hasErrors ↔
        (settings.diagnostics.lexical ∧ ∃ t ∈ tokenize text,
          t.kind = .invalidString ∨ t.kind = .invalid ∨ t.kind = .unrecognized) ∨
        (settings.diagnostics.structural ∧ ¬ SpellsWellNested (bracketTexts (tokenize text)))) ∧
      Terminal.present .check format options settings label scan =
        (report.output, if report.hasErrors then 1 else 0) ∧
      allowed.Pairwise (fun a b => a.range.start.before b.range.start) ∧
      CutIntoLines report.output.toList
        ((allowed.map (Report.checkLine label) ++ if report.hasErrors then [] else ["ok\n"]).map
          String.toList ++ [[]]) := by
  apply Scan.Yields.of_ideal
  refine ⟨hasErrors_check label text _ settings, rfl, ?_,
    Report.cutIntoLines_check hlabel fun d hd => ?_⟩
  · refine List.Pairwise.filter _ ?_
    rw [diagnostics_eq_sort]
    exact Diagnostic.pairwise_startsBefore_sort (pairwise_start_ne_findings _ _)
  · have hd := mem_diagnostics_iff.mp (List.mem_filter.mp hd).1
    exact (isFinding_of_mem_findings hd).oneLine_message

/-- A text with a character of no token, a bracket left open, and a region left open. -/
def faultyText : String := "é (\n//region"

theorem check_exact_faultyText :
    OneLine "a.grx" ∧
    ∃ scan, Scan.ofText faultyText .standard = .ok scan ∧
      Terminal.present .check .table Options.none Settings.standard "a.grx" scan =
        ((Command.check "a.grx" scan Settings.standard).output, 1) ∧
      CutIntoLines (Command.check "a.grx" scan Settings.standard).output.toList
        (["a.grx:1:1: error[invalid-character]: unexpected character \"é\"\n",
          "a.grx:1:3: error[unmatched-opener]: `(` is never closed\n",
          "a.grx:2:1: warning[unterminated-region]: region is never closed\n", ""].map
            String.toList) := by
  have hlabel : OneLine "a.grx" := by decide
  have hfits : (LineIndex.ofText faultyText).FitsFor .standard :=
    LineIndex.fitsFor_of_lt (by decide +kernel)
  obtain ⟨scan, hscan, herrors, hstatus, -, hlines⟩ :=
    (check_exact hlabel faultyText Settings.standard .table Options.none).returns hfits
  rw [Settings.scanOptions_standard] at hscan
  obtain rfl := Scan.eq_ideal hscan
  have ht : (⟨.invalid, "é", 0, ⟨0, 2⟩⟩ : Token) ∈ tokenize faultyText := by decide +kernel
  have hfails := herrors.mpr (.inl ⟨rfl, _, ht, .inr (.inl rfl)⟩)
  rw [if_pos hfails] at hstatus hlines
  have hsorted : (Scan.ideal faultyText .standard).diagnostics =
      findings faultyText .standard := by
    rw [diagnostics_eq_sort]
    exact List.mergeSort_of_pairwise (by decide +kernel)
  have hallowed : ((findings faultyText .standard).filter fun d =>
      Settings.standard.diagnostics.allows d.kind).map (Report.checkLine "a.grx") =
      ["a.grx:1:1: error[invalid-character]: unexpected character \"é\"\n",
        "a.grx:1:3: error[unmatched-opener]: `(` is never closed\n",
        "a.grx:2:1: warning[unterminated-region]: region is never closed\n"] := by
    decide +kernel
  rw [hsorted, hallowed] at hlines
  exact ⟨hlabel, _, hscan, hstatus, hlines⟩

end ContractScan
