import ContractScan.Json
import ContractScan.Language
import ContractScan.Scan

/-
  The JSON forms of tokens, ranges, diagnostics, outlines and languages.
-/

namespace ContractScan

open Json (nat string array object ofList ofOption)

def Span.toJson (s : Span) : Json := object [("start", nat s.start), ("end", nat s.stop)]

def Token.toJson (t : Token) : Json :=
  object [("kind", string t.kind.name), ("lexeme", string t.lexeme), ("start", nat t.start),
    ("end", nat t.stop), ("span", t.span.toJson)]

def Position.toJson (p : Position) : Json :=
  object [("line", nat p.line), ("column", nat p.column)]

def Range.toJson (r : Range) : Json :=
  object [("span", r.span.toJson), ("start", r.start.toJson), ("end", r.stop.toJson)]

def Diagnostic.toJson (d : Diagnostic) : Json :=
  object [("range", d.range.toJson), ("severity", string d.severity.name),
    ("kind", string d.kind.name), ("message", string d.message), ("source", string source)]

def BracketPair.toJson (p : BracketPair) : Json :=
  object [("open", p.opener.toJson), ("close", ofOption Token.toJson p.closer),
    ("depth", nat p.depth)]

def Fold.toJson (f : Fold) : Json :=
  object [("start_line", nat f.startLine), ("end_line", nat f.endLine),
    ("kind", string f.kind.name)]

def Outline.toJson (s : Outline) : Json :=
  object [("brackets", ofList BracketPair.toJson s.brackets),
    ("unmatched_closers", ofList Token.toJson s.strayClosers),
    ("folds", ofList Fold.toJson s.folds),
    ("diagnostics", ofList Diagnostic.toJson s.diagnostics)]

def CharacterPair.toJson (p : CharacterPair) : Json :=
  object [("open", string p.opener), ("close", string p.closer)]

def Language.toJson (l : Language) : Json :=
  object [
    ("id", string l.id),
    ("extensions", ofList string l.extensions),
    ("comments", object [("line_comment", string l.lineComment),
      ("block_comment", array [string l.blockComment.opener, string l.blockComment.closer])]),
    ("brackets", ofList CharacterPair.toJson l.brackets),
    ("auto_closing_pairs", ofList CharacterPair.toJson l.autoClosing),
    ("surrounding_pairs", ofList CharacterPair.toJson l.surrounding),
    ("folding_markers", object [("start", string l.regionStart), ("end", string l.regionEnd)])]

end ContractScan
