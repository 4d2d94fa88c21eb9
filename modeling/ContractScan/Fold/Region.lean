import ContractScan.Diagnostic
import ContractScan.Fold
import ContractScan.Text.Word

/-
  Folds by region markers. A line whose trimmed text is a comment that starts with the word
  `region` opens a region, and one that starts with `endregion` closes the region opened last.
  Markers count wherever the line stands, also inside a block comment.
-/

namespace ContractScan

open ContractScan.Text (isBlank isWordChar wordEndsBefore trim trimStart byteLength)

/-- What a marker line does. -/
inductive RegionMarker where
  | opens
  | closes
deriving DecidableEq

namespace RegionMarker

/-- The word of a marker. -/
def word : RegionMarker → List Char
  | opens => "region".toList
  | closes => "endregion".toList

/-- Whether a text starts with a word that ends there. -/
def startsWith (word : List Char) (cs : List Char) : Bool :=
  word.isPrefixOf cs && wordEndsBefore (cs.drop word.length)

/-- A text without one hash sign at its start. -/
def dropHash : List Char → List Char
  | '#' :: r => r
  | cs => cs

/-- The marker that a trimmed line is, if it is one: two slashes, blanks, an optional hash sign
and the word of the marker. -/
def ofTrimmed? : List Char → Option RegionMarker
  | '/' :: '/' :: r =>
    let cs := dropHash (r.dropWhile isBlank)
    if startsWith opens.word cs then some opens
    else if startsWith closes.word cs then some closes
    else none
  | _ => none

end RegionMarker

/-- A line that is a region marker. -/
structure MarkerLine where
  line : Nat
  marker : RegionMarker
deriving DecidableEq

/-- The marker lines, counted from a number on. -/
def markerLinesFrom : Nat → List (List Char) → List MarkerLine
  | _, [] => []
  | n, l :: ls =>
    match RegionMarker.ofTrimmed? (trim l) with
    | some marker => ⟨n, marker⟩ :: markerLinesFrom (n + 1) ls
    | none => markerLinesFrom (n + 1) ls

/-- How the marker lines pair up: the regions by their first and last line, the end markers
without an open region, and the regions that nothing closes. -/
structure RegionPairing where
  regions : List (Nat × Nat)
  strayEnds : List Nat
  unclosed : List Nat

namespace RegionPairing

/-- A pairing with one more region. -/
def withRegion (p : RegionPairing) (start stop : Nat) : RegionPairing :=
  ⟨(start, stop) :: p.regions, p.strayEnds, p.unclosed⟩

/-- A pairing with one more end marker astray. -/
def withStray (p : RegionPairing) (line : Nat) : RegionPairing :=
  ⟨p.regions, line :: p.strayEnds, p.unclosed⟩

/-- Follows the marker lines with a stack of the open regions, the innermost first. -/
def follow : List MarkerLine → List Nat → RegionPairing
  | [], stack => ⟨[], [], stack.reverse⟩
  | ⟨n, .opens⟩ :: ms, stack => follow ms (n :: stack)
  | ⟨n, .closes⟩ :: ms, s :: stack => (follow ms stack).withRegion s n
  | ⟨n, .closes⟩ :: ms, [] => (follow ms []).withStray n

/-- How the marker lines of a text pair up. -/
def ofIndex (ix : LineIndex) : RegionPairing := follow (markerLinesFrom 0 ix.lines) []

end RegionPairing

/-- The range of the trimmed text of a line. -/
def markerRange (ix : LineIndex) (line : Nat) : Range :=
  let text := ix.lineText line
  let leading := text.takeWhile isBlank
  let marker := trim text
  let byte := ix.byteStart line + byteLength leading
  let char := ix.charStart line + leading.length
  ⟨⟨byte, byte + byteLength marker⟩, ix.position char, ix.position (char + marker.length)⟩

/-- The folds by region markers, in order. -/
def regionFolds (ix : LineIndex) : List Fold :=
  Fold.sort ((RegionPairing.ofIndex ix).regions.map fun (s, e) => ⟨s, e, .regionMarker⟩)

/-- The finding about an end marker astray. -/
def Diagnostic.ofStrayEnd (ix : LineIndex) (line : Nat) : Diagnostic :=
  ofKind .unmatchedEndRegion (markerRange ix line) "endregion marker without an open region"

/-- The finding about a region that nothing closes. -/
def Diagnostic.ofUnclosed (ix : LineIndex) (line : Nat) : Diagnostic :=
  ofKind .unterminatedRegion (markerRange ix line) "region is never closed"

/-- The findings about region markers: end markers astray, then regions left open. -/
def Diagnostic.regions (ix : LineIndex) : List Diagnostic :=
  let p := RegionPairing.ofIndex ix
  p.strayEnds.map (ofStrayEnd ix) ++ p.unclosed.map (ofUnclosed ix)

end ContractScan
