import ContractScan.Editor.Session
import ContractScan.Proofs.Yields
import Mathlib.Data.List.Basic

/-
  Sessions as views of the last texts. What a session answers about a document depends on the
  last event that had an effect on it, and on nothing else (`applyAll_exact`): a document that
  was opened or changed is answered as by a session that opened this one text, and a document
  that was closed, or never opened, is not answered at all. What is published follows the events
  one by one. A session comes to the end of its events exactly if the columns of all their texts
  fit.

  `exists_apply` says once what an event does to the documents, and that nothing else of a session
  changes; a run is an induction over its events (`exists_applyAll`).
-/

namespace ContractScan.Editor

/-! ## Events -/

/-- The diagnostics of a text under settings, as they are published. -/
def Published.ofText (settings : Settings) (uri : String) (version : Int) (text : String) :
    Except Overflow Published := do
  let scan ← Scan.ofText text settings.folding.scanOptions
  return ⟨uri, (scan.reported settings.diagnostics).map (wireDiagnostic scan.index), some version⟩

namespace Event

/-- The document of an event. -/
def uri : Event → String
  | opened uri _ _ => uri
  | changed uri _ _ => uri
  | closed uri => uri

/-- Whether an event has an effect: all but changes that bring no text. -/
def isEffective : Event → Bool
  | changed _ _ texts => !texts.isEmpty
  | _ => true

/-- The text that an event leaves of its document; none where the document is closed. -/
def text? : Event → Option String
  | opened _ _ text => some text
  | changed _ _ texts => texts.getLast?
  | closed _ => none

/-- Whether the columns fit of the text that an event leaves. -/
def Fits (settings : Settings) (e : Event) : Prop :=
  ∀ text ∈ e.text?, (LineIndex.ofText text).FitsFor settings.folding.scanOptions

/-- What an event publishes under settings. -/
def published (settings : Settings) : Event → Except Overflow (List Published)
  | opened uri version text => [text].mapM (Published.ofText settings uri version)
  | changed uri version texts => texts.getLast?.toList.mapM (Published.ofText settings uri version)
  | closed uri => .ok [⟨uri, [], none⟩]

theorem text?_eq_none_iff {e : Event} (h : e.isEffective) : e.text? = none ↔ e = .closed e.uri := by
  cases e with
  | opened => simp [text?]
  | changed uri version texts => simpa [text?, isEffective] using h
  | closed => simp [text?, uri]

end Event

/-- The last event with an effect on a document. -/
def lastEffective? (uri : String) (es : List Event) : Option Event :=
  (es.filter fun e => e.uri = uri ∧ e.isEffective).getLast?

/-- The last text of a document, if it is open after events. -/
def lastText? (uri : String) (es : List Event) : Option String :=
  (lastEffective? uri es).bind Event.text?

theorem lastEffective?_cons (uri : String) (e : Event) (es : List Event) :
    lastEffective? uri (e :: es) =
      (lastEffective? uri es).or (if e.uri = uri ∧ e.isEffective then some e else none) := by
  unfold lastEffective?
  rw [List.filter_cons]
  split
  · next h =>
    rw [if_pos (of_decide_eq_true h), List.getLast?_cons]
    cases (es.filter fun e => e.uri = uri ∧ e.isEffective).getLast? <;> rfl
  · next h =>
    rw [if_neg fun h' => h (decide_eq_true h'), Option.or_none]

theorem lastEffective?_filter (uri : String) (es : List Event) :
    lastEffective? uri (es.filter fun e => e.uri = uri) = lastEffective? uri es := by
  unfold lastEffective?
  rw [List.filter_filter]
  refine congrArg _ (List.filter_congr fun e _ => ?_)
  by_cases h : e.uri = uri <;> simp [h]

theorem lastText?_eq_none_iff (uri : String) (es : List Event) :
    lastText? uri es = none ↔
      lastEffective? uri es = none ∨ lastEffective? uri es = some (.closed uri) := by
  unfold lastText?
  cases hlast : lastEffective? uri es with
  | none => simp
  | some e =>
    have he := (List.mem_filter.mp (List.mem_of_getLast? hlast)).2
    obtain ⟨huri, heffective⟩ := of_decide_eq_true he
    rw [Option.bind_some, Event.text?_eq_none_iff heffective, huri]
    simp

/-! ## One event -/

namespace Session

/-- The scan of a text under the settings of a session where columns have no end. -/
def idealScan (s : Session) (text : String) : Scan :=
  Scan.ideal text s.settings.folding.scanOptions

/-- What an event makes of a session: it leaves its text of its own document, if it has an effect,
and everything else as it is. -/
structure LeadsTo (s : Session) (e : Event) (s' : Session) : Prop where
  settings : s'.settings = s.settings
  features : s'.features = s.features
  document? uri : s'.document? uri =
    if e.uri = uri ∧ e.isEffective then e.text?.map s.idealScan else s.document? uri

section
variable {s : Session} {uri : String} {version : Int} {text : String}

theorem scan_of_fitsFor (h : (LineIndex.ofText text).FitsFor s.settings.folding.scanOptions) :
    s.scan text = .ok (s.idealScan text) := Scan.ofText_of_fitsFor h

theorem update_of_fitsFor (h : (LineIndex.ofText text).FitsFor s.settings.folding.scanOptions) :
    s.update uri version text =
      .ok (s.hold uri (s.idealScan text), [s.report uri version (s.idealScan text)]) := by
  rw [update, scan_of_fitsFor h]
  rfl

theorem update_of_not_fitsFor
    (h : ¬ (LineIndex.ofText text).FitsFor s.settings.folding.scanOptions) :
    s.update uri version text = .error .column := by
  rw [update, scan, Scan.ofText_eq, if_neg h]
  rfl

theorem document?_hold (s : Session) (uri other : String) (scan : Scan) :
    (s.hold uri scan).document? other = if uri = other then some scan else s.document? other := by
  split
  · next h => rw [← h, document?_hold_self]
  · next h => exact document?_hold_of_ne s (Ne.symm h) scan

theorem leadsTo_hold {e : Event} (huri : e.uri = uri) (htext : e.text? = some text)
    (heffective : e.isEffective) : s.LeadsTo e (s.hold uri (s.idealScan text)) where
  settings := rfl
  features := rfl
  document? other := by
    rw [document?_hold, huri, htext]
    simp only [heffective, and_true, Option.map_some]

theorem published_ofText (hstandard : s.features = .standard)
    (h : (LineIndex.ofText text).FitsFor s.settings.folding.scanOptions) :
    Published.ofText s.settings uri version text =
      .ok (s.report uri version (s.idealScan text)) := by
  rw [Published.ofText, Scan.ofText_of_fitsFor h, report, hstandard]
  rfl

end

/-- What an event does, if the columns of its text fit. -/
theorem exists_apply {s : Session} (hstandard : s.features = .standard) {e : Event}
    (h : e.Fits s.settings) :
    ∃ s' ps, s.apply e = .ok (s', ps) ∧ s.LeadsTo e s' ∧ e.published s.settings = .ok ps := by
  cases e with
  | opened uri version text =>
    have h := h text rfl
    refine ⟨_, _, update_of_fitsFor h, leadsTo_hold rfl rfl rfl, ?_⟩
    rw [Event.published, List.mapM_cons, published_ofText hstandard h]
    rfl
  | changed uri version texts =>
    rcases texts.eq_nil_or_concat' with rfl | ⟨texts, text, rfl⟩
    · exact ⟨s, [], rfl, ⟨rfl, rfl, fun _ => by simp [Event.isEffective]⟩, rfl⟩
    · have hlast : (texts ++ [text]).getLast? = some text := List.getLast?_concat
      have h := h text hlast
      refine ⟨_, [s.report uri version (s.idealScan text)], ?_, leadsTo_hold rfl hlast ?_, ?_⟩
      · rw [apply, hlast]
        exact update_of_fitsFor h
      · simp [Event.isEffective]
      · rw [Event.published, hlast, Option.toList_some, List.mapM_cons,
          published_ofText hstandard h]
        rfl
  | closed uri =>
    refine ⟨_, _, rfl, ⟨rfl, rfl, fun other => ?_⟩, rfl⟩
    by_cases heq : uri = other
    · subst heq
      simpa [document?, Event.uri, Event.isEffective, Event.text?] using
        lookup_without_self uri s.documents
    · simpa [document?, Event.uri, Event.isEffective, heq] using
        lookup_without_of_ne (Ne.symm heq) s.documents

theorem apply_of_not_fits {s : Session} {e : Event} (h : ¬ e.Fits s.settings) :
    s.apply e = .error .column := by
  rw [Event.Fits, Classical.not_forall] at h
  obtain ⟨text, h⟩ := h
  obtain ⟨htext, hfits⟩ := Classical.not_imp.mp h
  cases e with
  | opened uri version text' =>
    cases htext
    exact update_of_not_fitsFor hfits
  | changed uri version texts =>
    rw [apply, show texts.getLast? = some text from htext]
    exact update_of_not_fitsFor hfits
  | closed uri => cases htext

/-! ## Runs -/

/-- Takes in events one after another, and gives back all that is to be published. -/
def applyAll (s : Session) : List Event → Except Overflow (Session × List Published)
  | [] => .ok (s, [])
  | e :: es => do
    let (s, published) ← s.apply e
    let (s, more) ← s.applyAll es
    return (s, published ++ more)

theorem applyAll_cons {s s' : Session} {e : Event} {ps : List Published}
    (h : s.apply e = .ok (s', ps)) (es : List Event) :
    s.applyAll (e :: es) = (s'.applyAll es).map fun r => (r.1, ps ++ r.2) := by
  rw [applyAll, h]
  show (s'.applyAll es >>= _) = _
  cases s'.applyAll es <;> rfl

/-- After a run each document is what the last event with an effect on it left of it. -/
theorem exists_applyAll {s : Session} (hstandard : s.features = .standard) {es : List Event}
    (h : ∀ e ∈ es, e.Fits s.settings) :
    ∃ s' pss, s.applyAll es = .ok (s', pss.flatten) ∧ s'.features = .standard ∧
      es.mapM (Event.published s.settings) = .ok pss ∧
      ∀ uri, s'.document? uri =
        match lastEffective? uri es with
        | some e => e.text?.map s.idealScan
        | none => s.document? uri := by
  induction es generalizing s with
  | nil => exact ⟨s, [], rfl, hstandard, rfl, fun _ => rfl⟩
  | cons e es ih =>
    obtain ⟨he, hes⟩ := List.forall_mem_cons.mp h
    obtain ⟨s', ps, happly, hleads, hps⟩ := exists_apply hstandard he
    rw [← hleads.settings] at hes
    obtain ⟨s'', pss, hrest, hstandard', hpss, hdocument⟩ :=
      ih (hleads.features.trans hstandard) hes
    refine ⟨s'', ps :: pss, ?_, hstandard', ?_, fun uri => ?_⟩
    · rw [applyAll_cons happly, hrest]
      rfl
    · rw [hleads.settings] at hpss
      rw [List.mapM_cons, hps, hpss]
      rfl
    · have hscan : s'.idealScan = s.idealScan := by
        funext text
        rw [idealScan, idealScan, hleads.settings]
      rw [hdocument, hscan, lastEffective?_cons, hleads.document?]
      cases lastEffective? uri es with
      | some e' => rfl
      | none =>
        rw [Option.none_or]
        by_cases heffect : e.uri = uri ∧ e.isEffective
        · rw [if_pos heffect, if_pos heffect]
        · rw [if_neg heffect, if_neg heffect]

theorem applyAll_of_not_fits {s : Session} (hstandard : s.features = .standard) {es : List Event}
    (h : ¬ ∀ e ∈ es, e.Fits s.settings) : s.applyAll es = .error .column := by
  induction es generalizing s with
  | nil => exact absurd (by simp) h
  | cons e es ih =>
    rw [List.forall_mem_cons] at h
    by_cases he : e.Fits s.settings
    · obtain ⟨s', ps, happly, hleads, -⟩ := exists_apply hstandard he
      have hrest := ih (hleads.features.trans hstandard) (by
        rw [hleads.settings]
        exact fun hes => h ⟨he, hes⟩)
      rw [applyAll_cons happly, hrest]
      rfl
    · rw [applyAll, apply_of_not_fits he]
      rfl

/-- What a session answers about a document that a run from the start has led to. -/
theorem answers_applyAll {settings : Settings} {es : List Event}
    (h : ∀ e ∈ es, e.Fits settings) :
    ∃ s pss, (start settings).applyAll es = .ok (s, pss.flatten) ∧
      es.mapM (Event.published settings) = .ok pss ∧
      ∀ uri,
        s.highlightDeltas uri = (lastText? uri es).map (fun text =>
          let scan := (start settings).idealScan text
          encodeHighlights scan.index (Highlight.ofScan scan)) ∧
        s.ranges uri = (lastText? uri es).map fun text =>
          FoldingRange.ofScan ((start settings).idealScan text) := by
  obtain ⟨s, pss, hrun, hstandard, hpss, hdocument⟩ :=
    exists_applyAll (s := start settings) rfl h
  have hlast (uri : String) :
      s.document? uri = (lastText? uri es).map (start settings).idealScan := by
    rw [hdocument, lastText?]
    cases lastEffective? uri es <;> rfl
  refine ⟨s, pss, hrun, hpss, fun uri => ⟨?_, ?_⟩⟩
  · rw [highlightDeltas, hlast, hstandard, Option.map_map]
    rfl
  · rw [ranges, hlast, hstandard, Option.map_map]
    rfl

/-- **Sessions.** After any events a session answers about a document as one does that opened
    the last text of the document alone, under any name and version. It gives no answer where the
    last event with an effect on the document closed it, or where there is none. Events on other
    documents do not matter. What is published follows the events one by one. All this holds if
    the columns of all texts fit, and the session stops otherwise. -/
theorem applyAll_exact (settings : Settings) (es : List Event) :
    ((∀ e ∈ es, e.Fits settings) →
      ∃ s pss, (start settings).applyAll es = .ok (s, pss.flatten) ∧
        es.mapM (Event.published settings) = .ok pss ∧
        ∀ uri,
          let last := lastEffective? uri es
          (s.highlightDeltas uri = none ↔ last = none ∨ last = some (.closed uri)) ∧
          (s.ranges uri = none ↔ last = none ∨ last = some (.closed uri)) ∧
          (∀ text ∈ last.bind Event.text?, ∀ other version, ∃ fresh ps,
            (start settings).apply (.opened other version text) = .ok (fresh, ps) ∧
            s.highlightDeltas uri = fresh.highlightDeltas other ∧
            s.ranges uri = fresh.ranges other) ∧
          ∃ alone ps,
            (start settings).applyAll (es.filter fun e => e.uri = uri) = .ok (alone, ps) ∧
            s.highlightDeltas uri = alone.highlightDeltas uri ∧
            s.ranges uri = alone.ranges uri) ∧
    (¬ (∀ e ∈ es, e.Fits settings) → (start settings).applyAll es = .error .column) := by
  refine ⟨fun h => ?_, applyAll_of_not_fits (s := start settings) rfl⟩
  obtain ⟨s, pss, hrun, hpss, hanswers⟩ := answers_applyAll h
  refine ⟨s, pss, hrun, hpss, fun uri => ⟨?_, ?_, fun text htext other version => ?_, ?_⟩⟩
  · rw [(hanswers uri).1, Option.map_eq_none_iff, lastText?_eq_none_iff]
  · rw [(hanswers uri).2, Option.map_eq_none_iff, lastText?_eq_none_iff]
  · have hfits : (LineIndex.ofText text).FitsFor settings.folding.scanOptions := by
      obtain ⟨e, he, hetext⟩ := Option.bind_eq_some_iff.mp htext
      exact h e (List.mem_filter.mp (List.mem_of_getLast? he)).1 text hetext
    have hlast : lastText? uri es = some text := htext
    refine ⟨_, _, update_of_fitsFor (s := start settings) hfits, ?_, ?_⟩
    · rw [(hanswers uri).1, hlast, highlightDeltas, document?_hold_self]
      rfl
    · rw [(hanswers uri).2, hlast, ranges, document?_hold_self]
      rfl
  · have hown : ∀ e ∈ es.filter (fun e => e.uri = uri), e.Fits settings := fun e he =>
      h e (List.mem_filter.mp he).1
    obtain ⟨alone, ps, halone, -, hanswers'⟩ := answers_applyAll hown
    refine ⟨alone, _, halone, ?_, ?_⟩
    · rw [(hanswers uri).1, (hanswers' uri).1, lastText?, lastText?, lastEffective?_filter]
    · rw [(hanswers uri).2, (hanswers' uri).2, lastText?, lastText?, lastEffective?_filter]

end Session

end ContractScan.Editor
