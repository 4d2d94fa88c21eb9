import ContractScan.Command
import ContractScan.Rpc.Frame
import ContractScan.Settings.Layer
import ContractScan.Surroundings

/-
  A run of the service: it reads the settings of the project, and then serves until its input
  ends.
-/

namespace ContractScan.Rpc

/-- What a run of the service leaves behind. -/
structure Served where
  status : Nat
  messages : List Json
  failure : Option Failure
  log : List Log.Event

/-- What is logged where the settings are wrong. -/
def settingsEvent (e : Settings.Error) : Log.Event :=
  ⟨.error, "grishex_lsp", "invalid configuration", [("err", .text e.message)]⟩

/-- The settings of the project. -/
def projectSettings (w : Surroundings) : Except Settings.Error Settings :=
  Settings.load w.files [.file Surroundings.projectFile false]

/-- A run of the service. -/
def serve (w : Surroundings) : Served :=
  match projectSettings w with
  | .error e =>
    let failure := Failure.error (.settings e)
    ⟨failure.status, [], some failure, w.logged [settingsEvent e]⟩
  | .ok s =>
    let bytes := w.input.toList
    let conversation := (Service.start s).converse (bytes.length + 1) bytes
    let failure := conversation.overflow.map Failure.overflow
    ⟨(failure.map Failure.status).getD 0, conversation.messages, failure, []⟩

end ContractScan.Rpc
