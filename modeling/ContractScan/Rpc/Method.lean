import ContractScan.Rpc.Params

/-
  The methods that the service knows by name.
-/

namespace ContractScan.Rpc

/-- What parameters a request must bring that is known but not served. -/
inductive Demand where
  | any
  | document
  | place
deriving DecidableEq

/-- Whether parameters are as demanded. -/
def Demand.accepts : Demand → Json → Bool
  | any, _ => true
  | document, params => (document? params).isSome
  | place, params => isPlace params

/-- What a name stands for. -/
inductive Method where
  /-- The first request, which opens the service. -/
  | greet
  /-- The request that ends the work. -/
  | shutdown
  /-- The notification that ends the service. -/
  | exit
  /-- A notification about a document. -/
  | document (read : Json → Option Editor.Event)
  | highlights
  | ranges
  /-- A notification that is known but changes nothing. -/
  | note
  /-- A request that is known but not served. -/
  | unserved (demand : Demand)
  | unknown

namespace Method

/-- Notifications that change nothing. -/
def notes : List String :=
  ["initialized", "textDocument/willSave", "textDocument/didSave",
    "workspace/didChangeConfiguration", "workspace/didChangeWorkspaceFolders",
    "workspace/didChangeWatchedFiles", "workspace/didCreateFiles", "workspace/didRenameFiles",
    "workspace/didDeleteFiles", "$/cancelRequest"]

/-- Requests about a place in a document that are not served. -/
def placeRequests : List String :=
  ["textDocument/declaration", "textDocument/definition", "textDocument/typeDefinition",
    "textDocument/implementation", "textDocument/prepareCallHierarchy",
    "textDocument/prepareTypeHierarchy", "textDocument/documentHighlight", "textDocument/hover",
    "textDocument/moniker", "textDocument/completion", "textDocument/signatureHelp",
    "textDocument/prepareRename", "textDocument/linkedEditingRange"]

/-- Requests about a document that are not served. -/
def documentRequests : List String :=
  ["textDocument/documentLink", "textDocument/codeLens", "textDocument/documentSymbol",
    "textDocument/documentColor", "textDocument/diagnostic"]

/-- Other requests that are not served. -/
def otherRequests : List String :=
  ["textDocument/willSaveWaitUntil", "textDocument/references", "callHierarchy/incomingCalls",
    "callHierarchy/outgoingCalls", "typeHierarchy/supertypes", "typeHierarchy/subtypes",
    "documentLink/resolve", "codeLens/resolve", "textDocument/selectionRange",
    "textDocument/semanticTokens/full/delta", "textDocument/semanticTokens/range",
    "textDocument/inlineValue", "textDocument/inlayHint", "inlayHint/resolve",
    "completionItem/resolve", "workspace/diagnostic", "textDocument/codeAction",
    "codeAction/resolve", "textDocument/colorPresentation", "textDocument/formatting",
    "textDocument/rangeFormatting", "textDocument/onTypeFormatting", "textDocument/rename",
    "workspace/symbol", "workspaceSymbol/resolve", "workspace/willCreateFiles",
    "workspace/willRenameFiles", "workspace/willDeleteFiles", "workspace/executeCommand"]

/-- The method of a name. -/
def ofName (name : String) : Method :=
  match name with
  | "initialize" => greet
  | "shutdown" => shutdown
  | "exit" => exit
  | "textDocument/didOpen" => document opened?
  | "textDocument/didChange" => document changed?
  | "textDocument/didClose" => document closed?
  | "textDocument/semanticTokens/full" => highlights
  | "textDocument/foldingRange" => ranges
  | _ =>
    if notes.contains name then note
    else if placeRequests.contains name then unserved .place
    else if documentRequests.contains name then unserved .document
    else if otherRequests.contains name then unserved .any
    else unknown

end Method

end ContractScan.Rpc
