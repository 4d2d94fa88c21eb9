import ContractScan.Editor.FoldingRange
import ContractScan.Editor.Wire
import ContractScan.Report.Check

/-
  The work of an editor on its documents. A session holds the last text of every open document
  as its scan; opening or changing a document publishes its diagnostics, and closing it takes
  them back. A text whose scan does not come to its end stops the session.
-/

namespace ContractScan.Editor

/-- What a session shows of a scan. -/
structure Features where
  highlights : Scan → List Highlight
  foldingRanges : Scan → List FoldingRange
  diagnostics : Scan → DiagnosticSettings → List Diagnostic

/-- All that a scan knows. -/
def Features.standard : Features := ⟨Highlight.ofScan, FoldingRange.ofScan, Scan.reported⟩

/-- The diagnostics of a document, for the editor to show in place of those before. -/
structure Published where
  uri : String
  diagnostics : List WireDiagnostic
  version : Option Int
deriving DecidableEq

/-- What an editor does to a document. A change brings whole texts, of which the last counts. -/
inductive Event where
  | opened (uri : String) (version : Int) (text : String)
  | changed (uri : String) (version : Int) (texts : List String)
  | closed (uri : String)

/-- The open documents under settings. -/
structure Session where
  settings : Settings
  features : Features
  documents : List (String × Scan)

namespace Session

/-- A session without documents. -/
def start (settings : Settings) : Session := ⟨settings, .standard, []⟩

/-- The documents without one of them. -/
def without (uri : String) (ds : List (String × Scan)) : List (String × Scan) :=
  ds.filter fun d => d.1 ≠ uri

theorem lookup_without_self (uri : String) (ds : List (String × Scan)) :
    (without uri ds).lookup uri = none := by
  induction ds with
  | nil => rfl
  | cons d ds ih =>
    obtain ⟨k, s⟩ := d
    by_cases h : k = uri
    · simpa [without, h] using ih
    · have h' : (uri == k) = false := beq_eq_false_iff_ne.2 fun e => h e.symm
      simpa [without, h, List.lookup_cons, h'] using ih

theorem lookup_without_of_ne {uri other : String} (h : other ≠ uri) (ds : List (String × Scan)) :
    (without uri ds).lookup other = ds.lookup other := by
  induction ds with
  | nil => rfl
  | cons d ds ih =>
    obtain ⟨k, s⟩ := d
    by_cases hk : k = uri
    · have h' : (other == k) = false := beq_eq_false_iff_ne.2 fun e => h (e.trans hk)
      rw [List.lookup_cons, h', ← ih]
      simp [without, hk]
    · have e : without uri ((k, s) :: ds) = (k, s) :: without uri ds := by simp [without, hk]
      rw [e, List.lookup_cons, List.lookup_cons, ih]

/-- The scan of a document, if it is open. -/
def document? (s : Session) (uri : String) : Option Scan := s.documents.lookup uri

/-- The scan of a text under the settings of a session. -/
def scan (s : Session) (text : String) : Except Overflow Scan :=
  Scan.ofText text s.settings.folding.scanOptions

/-- What is published about a scan. -/
def report (s : Session) (uri : String) (version : Int) (scan : Scan) : Published :=
  let ds := s.features.diagnostics scan s.settings.diagnostics
  ⟨uri, ds.map (wireDiagnostic scan.index), some version⟩

/-- Holds the scan of a document. -/
def hold (s : Session) (uri : String) (scan : Scan) : Session :=
  { s with documents := (uri, scan) :: without uri s.documents }

theorem document?_hold_self (s : Session) (uri : String) (scan : Scan) :
    (s.hold uri scan).document? uri = some scan := by
  simp [hold, document?]

theorem document?_hold_of_ne (s : Session) {uri other : String} (h : other ≠ uri) (scan : Scan) :
    (s.hold uri scan).document? other = s.document? other := by
  have h' : (other == uri) = false := beq_eq_false_iff_ne.2 h
  simp only [hold, document?, List.lookup_cons, h']
  exact lookup_without_of_ne h s.documents

/-- Takes in the text of a document. -/
def update (s : Session) (uri : String) (version : Int) (text : String) :
    Except Overflow (Session × List Published) := do
  let scan ← s.scan text
  return (s.hold uri scan, [s.report uri version scan])

/-- Takes in what an editor did, and gives back what is to be published. -/
def apply (s : Session) : Event → Except Overflow (Session × List Published)
  | .opened uri version text => s.update uri version text
  | .changed uri version texts =>
    match texts.getLast? with
    | some text => s.update uri version text
    | none => .ok (s, [])
  | .closed uri => .ok ({ s with documents := without uri s.documents }, [⟨uri, [], none⟩])

/-- The highlights of a document, if it is open. -/
def highlightDeltas (s : Session) (uri : String) : Option (List Delta) :=
  (s.document? uri).map fun scan => encodeHighlights scan.index (s.features.highlights scan)

/-- The folding ranges of a document, if it is open. -/
def ranges (s : Session) (uri : String) : Option (List FoldingRange) :=
  (s.document? uri).map s.features.foldingRanges

end Session

end ContractScan.Editor
