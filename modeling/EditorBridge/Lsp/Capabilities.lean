import EditorBridge.Json.Schema
/-!
What a language server answers to the first request: what it can do, and who it is. Of the abilities
only their shape is checked, as the protocol describes it.
-/
namespace EditorBridge.Lsp

namespace Ability

/-- Fields that may be absent, all of one shape. -/
def optionals (names : List String) (shape : Schema) : List (String × Schema) :=
  names.map fun name => (name, .optional shape)

/-- Any operation may say whether it reports how far it has come. -/
def progress : List (String × Schema) := optionals ["workDoneProgress"] .bool

/-- Options that say no more than `progress` and the given fields. -/
def options (name : String) (fields : List (String × Schema)) : Schema :=
  .mixed name fields progress

/-- Fields that an object names; an array in their order will not do. -/
def byName (name : String) (fields : List (String × Schema)) : Schema := .mixed name fields []

def provider (name : String) (shape : Schema) : Schema := .oneOf name [.bool, shape]

/-- A yes or no, or options without fields of their own, under the common name of such a choice. -/
def simple (fields : List (String × Schema)) : Schema := provider "OneOf" (options "" fields)

/-- The documents that an ability is for. -/
def selector : Schema :=
  .list (.record "DocumentFilter" (optionals ["language", "scheme", "pattern"] .text))

/-- Abilities that can be limited to documents, and taken back by an identity. -/
def registration : Schema :=
  .record "StaticTextDocumentRegistrationOptions"
    [("documentSelector", .optional selector), ("id", .optional .text)]

/-- How documents are kept in step: a number for the kind, or options. -/
def sync : Schema :=
  .oneOf "TextDocumentSyncCapability" [.int32,
    .record "TextDocumentSyncOptions" [
      ("openClose", .optional .bool), ("change", .optional .int32), ("willSave", .optional .bool),
      ("willSaveWaitUntil", .optional .bool),
      ("save", .optional (.oneOf "TextDocumentSyncSaveOptions" [.bool,
        .record "SaveOptions" (optionals ["includeText"] .bool)]))]]

/-- The notebooks that are meant: by a name, or by a filter that fixes at least one property. -/
def notebook : Schema :=
  .oneOf "Notebook" [.text, .oneOf "NotebookDocumentFilter" [
    byName "ByType" (("notebook_type", .text) :: optionals ["scheme", "pattern"] .text),
    byName "ByScheme" [("notebook_type", .optional .text), ("scheme", .text),
      ("pattern", .optional .text)],
    byName "ByPattern" [("notebook_type", .optional .text), ("scheme", .optional .text),
      ("pattern", .text)]]]

/-- Notebooks, or cells of them; at least one of both is named. -/
def notebookSelector : Schema :=
  let cells : Schema := .list (.record "NotebookCellSelector" [("language", .text)])
  .list (.oneOf "NotebookSelector" [
    byName "ByNotebook" [("notebook", notebook), ("cells", .optional cells)],
    byName "ByCells" [("notebook", .optional notebook), ("cells", cells)]])

/-- How notebooks are kept in step. -/
def notebookSync : Schema :=
  let fields := [("notebookSelector", notebookSelector), ("save", .optional .bool)]
  .oneOf "OneOf" [.record "NotebookDocumentSyncOptions" fields,
    .record "NotebookDocumentSyncRegistrationOptions" (fields ++ [("id", .optional .text)])]

def completion : Schema :=
  options "CompletionOptions" [
    ("resolveProvider", .optional .bool), ("triggerCharacters", .optional (.list .text)),
    ("allCommitCharacters", .optional (.list .text)),
    ("completionItem", .optional
      (.record "CompletionOptionsCompletionItem" (optionals ["labelDetailsSupport"] .bool)))]

/-- How tokens are classified. -/
def semanticTokens : Schema :=
  .oneOf "SemanticTokensServerCapabilities" [options "SemanticTokensOptions" [
    ("legend", .record "SemanticTokensLegend"
      [("tokenTypes", .list .text), ("tokenModifiers", .list .text)]),
    ("range", .optional .bool),
    ("full", .optional (.oneOf "SemanticTokensFullOptions" [.bool,
      byName "Delta" (optionals ["delta"] .bool)]))]]

/-- The operations on files that a server wants to hear of. -/
def fileOperations : Schema :=
  let pattern : Schema := .record "FileOperationPattern" [
    ("glob", .text), ("matches", .optional (.word ["file", "folder"])),
    ("options", .optional
      (.record "FileOperationPatternOptions" (optionals ["ignoreCase"] .bool)))]
  .record "FileOperationRegistrationOptions" [("filters", .list
    (.record "FileOperationFilter" [("scheme", .optional .text), ("pattern", pattern)]))]

/-- What a server can do with several folders and with files. -/
def workspace : Schema :=
  .record "WorkspaceServerCapabilities" [
    ("workspaceFolders", .optional (.record "WorkspaceFoldersServerCapabilities" [
      ("supported", .optional .bool),
      ("changeNotifications", .optional (.oneOf "OneOf" [.bool, .text]))])),
    ("fileOperations", .optional (.record "WorkspaceFileOperationsServerCapabilities"
      (optionals ["didCreate", "willCreate", "didRename", "willRename", "didDelete", "willDelete"]
        fileOperations)))]

def diagnostics : Schema :=
  .oneOf "DiagnosticServerCapabilities" [options "DiagnosticOptions" [
    ("identifier", .optional .text), ("interFileDependencies", .bool),
    ("workspaceDiagnostics", .bool)]]

/-- An ability with a yes or no, options, or an empty object. -/
def marked (name : String) : Schema :=
  .oneOf name [.bool, .record (name ++ "Options") [], registration]

/-- All abilities with their shapes, in the order in which they are read. -/
def all : List (String × Schema) := [
  ("positionEncoding", .text),
  ("textDocumentSync", sync),
  ("notebookDocumentSync", notebookSync),
  ("selectionRangeProvider", provider "SelectionRangeProviderCapability" (options "" [])),
  ("hoverProvider", provider "HoverProviderCapability" (options "" [])),
  ("completionProvider", completion),
  ("signatureHelpProvider", options "SignatureHelpOptions"
    (optionals ["triggerCharacters", "retriggerCharacters"] (.list .text))),
  ("definitionProvider", simple []),
  ("typeDefinitionProvider", provider "TypeDefinitionProviderCapability" registration),
  ("implementationProvider", provider "ImplementationProviderCapability" registration),
  ("referencesProvider", simple []),
  ("documentHighlightProvider", simple []),
  ("documentSymbolProvider", simple (optionals ["label"] .text)),
  ("workspaceSymbolProvider", simple (optionals ["resolveProvider"] .bool)),
  ("codeActionProvider", provider "CodeActionProviderCapability" (options "" [
    ("codeActionKinds", .optional (.list .text)), ("resolveProvider", .optional .bool)])),
  ("codeLensProvider", .record "CodeLensOptions" (optionals ["resolveProvider"] .bool)),
  ("documentFormattingProvider", simple []),
  ("documentRangeFormattingProvider", simple []),
  ("documentOnTypeFormattingProvider", .record "DocumentOnTypeFormattingOptions" [
    ("firstTriggerCharacter", .text), ("moreTriggerCharacter", .optional (.list .text))]),
  ("renameProvider", simple (optionals ["prepareProvider"] .bool)),
  ("documentLinkProvider", options "DocumentLinkOptions" (optionals ["resolveProvider"] .bool)),
  ("colorProvider", marked "ColorProviderCapability"),
  ("foldingRangeProvider", marked "FoldingRangeProviderCapability"),
  ("declarationProvider", provider "DeclarationCapability" (options "" [])),
  ("executeCommandProvider", options "ExecuteCommandOptions" [("commands", .list .text)]),
  ("workspace", workspace),
  ("callHierarchyProvider", provider "CallHierarchyServerCapability" (options "" [])),
  ("semanticTokensProvider", semanticTokens),
  ("monikerProvider", simple []),
  ("linkedEditingRangeProvider", provider "LinkedEditingRangeServerCapabilities" (options "" [])),
  ("inlineValueProvider", simple []),
  ("inlayHintProvider", simple (optionals ["resolveProvider"] .bool)),
  ("diagnosticProvider", diagnostics),
  ("experimental", .any)]

end Ability

/-- A server may have any of the abilities. -/
def serverCapabilities : Schema :=
  .record "ServerCapabilities" (Ability.all.map fun (name, shape) => (name, .optional shape))

structure ServerInfo where
  name : String
  version : Option String
deriving DecidableEq, Repr

/-- The name is needed, the version is not. -/
def ServerInfo.shape : RecordShape ServerInfo where
  name := "ServerInfo"
  fields := [
    ⟨"name", .required, fun s d => do return { s with name := ← d.readText }⟩,
    ⟨"version", .byName, fun s d => do
      return { s with version := ← d.readOptional Document.readText }⟩]

/-- The answer to the first request. The abilities are kept as they came. -/
structure Handshake where
  capabilities : Json
  serverInfo : Option ServerInfo
deriving Repr

/-- The abilities are checked before they are kept. -/
def Handshake.shape : RecordShape Handshake where
  name := "InitializeResult"
  fields := [
    ⟨"capabilities", .required, fun h d => do
      serverCapabilities.check d
      return { h with capabilities := ← d.readAny }⟩,
    ⟨"serverInfo", .byName, fun h d => do
      return { h with serverInfo := ← d.readOptional (ServerInfo.shape.read .tree ⟨"", none⟩) }⟩]

def Handshake.read : Document → Decoded Handshake := shape.read .tree ⟨.null, none⟩

end EditorBridge.Lsp
