import ContractScan.Json
import ContractScan.Log

/-
  The two forms in which an event is written: a line of text, or a JSON value.
-/

namespace ContractScan.Log

/-- A value as it stands in a line. -/
def FieldValue.toText : FieldValue → String
  | number n => toString n
  | text s => s

def FieldValue.toJson : FieldValue → Json
  | number n => Json.nat n
  | text s => Json.string s

/-- An event as a line. -/
def Event.toText (e : Event) : String :=
  " ".intercalate ((e.level.name ++ " " ++ e.target ++ ": " ++ e.message) ::
    e.fields.map fun (key, v) => key ++ "=" ++ v.toText)

def Event.toJson (e : Event) : Json :=
  Json.object [("level", Json.string e.level.name), ("target", Json.string e.target),
    ("fields", Json.object (("message", Json.string e.message) ::
      e.fields.map fun (key, v) => (key, v.toJson)))]

end ContractScan.Log
