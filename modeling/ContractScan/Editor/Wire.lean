import ContractScan.Editor.Highlight

/-
  Places and highlights as they go to an editor. Columns count units of UTF-16, and all numbers
  have 32 bits. A highlight goes as one segment per line, without the line breaks, and each
  segment as its distance from the one before it.
-/

namespace ContractScan.Editor

open ContractScan.Text (isLineBreak unitLength byteSlice)

/-- A number as it fits into 32 bits. -/
def word (n : Nat) : Nat := n % 0x100000000

theorem word_of_lt {n : Nat} (h : n < 0x100000000) : word n = n := Nat.mod_eq_of_lt h

/-- A line and a column, in units of UTF-16. -/
structure WirePosition where
  line : Nat
  character : Nat
deriving DecidableEq

/-- The range from one place up to another. -/
structure WireRange where
  start : WirePosition
  stop : WirePosition
deriving DecidableEq

/-- A diagnostic as it goes to an editor. -/
structure WireDiagnostic where
  range : WireRange
  severity : Severity
  code : String
  message : String
deriving DecidableEq

/-- The units of UTF-16 before a position in its line. A column past the end of the line stops
there, and a line past the end of the text has no units. -/
def unitColumn (ix : LineIndex) (p : Position) : Nat :=
  word (unitLength ((ix.lineText p.line).take p.column))

/-- A position for an editor. -/
def wirePosition (ix : LineIndex) (p : Position) : WirePosition :=
  ⟨word p.line, unitColumn ix p⟩

/-- A range for an editor. -/
def wireRange (ix : LineIndex) (r : Range) : WireRange :=
  ⟨wirePosition ix r.start, wirePosition ix r.stop⟩

/-- A diagnostic for an editor. -/
def wireDiagnostic (ix : LineIndex) (d : Diagnostic) : WireDiagnostic :=
  ⟨wireRange ix d.range, d.severity, d.kind.code, d.message⟩

/-! ## Segments -/

/-- A part of a line with its class. -/
structure Segment where
  line : Nat
  column : Nat
  length : Nat
  kind : HighlightKind
deriving DecidableEq

/-- A line without its break. -/
def withoutBreak (line : List Char) : List Char := line.takeWhile fun c => !isLineBreak c

/-- The segments of lines, where the first starts at a place and the others at their start.
Lines without characters have none. -/
def segmentsOfLines (kind : HighlightKind) : Nat → Nat → List (List Char) → List Segment
  | _, _, [] => []
  | line, column, l :: ls =>
    let length := word (unitLength (withoutBreak l))
    let rest := segmentsOfLines kind (word (line + 1)) 0 ls
    if 0 < length then ⟨line, column, length, kind⟩ :: rest else rest

/-- The segments of a highlight. -/
def segments (ix : LineIndex) (h : Highlight) : List Segment :=
  let p := wirePosition ix h.range.start
  let text := byteSlice ix.text h.range.span.start h.range.span.stop
  segmentsOfLines h.kind p.line p.character (splitLines text)

/-! ## Distances -/

/-- A segment by its distance from the one before it. -/
structure Delta where
  lines : Nat
  columns : Nat
  length : Nat
  index : Nat
deriving DecidableEq

/-- The distance of a segment from a place. A segment in front of the place is taken to lie at
it. -/
def deltaFrom (line column : Nat) (s : Segment) : Delta :=
  let lines := s.line - line
  ⟨lines, if lines = 0 then s.column - column else s.column, s.length, s.kind.index⟩

/-- Segments by their distances, from a place on. -/
def deltasFrom : Nat → Nat → List Segment → List Delta
  | _, _, [] => []
  | line, column, s :: rest => deltaFrom line column s :: deltasFrom s.line s.column rest

/-- The numbers of a distance; the last stands for the modifiers, of which there are none. -/
def Delta.numbers (d : Delta) : List Nat := [d.lines, d.columns, d.length, d.index, 0]

/-- Highlights as distances. -/
def encodeHighlights (ix : LineIndex) (hs : List Highlight) : List Delta :=
  deltasFrom 0 0 (hs.flatMap (segments ix))

end ContractScan.Editor
