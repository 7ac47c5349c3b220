import EditorBridge.Json.Value
import EditorBridge.Path.Relative
import EditorBridge.Uri.File
/-!
The parameters that a language client sends. Where a path has to be named by a URI and has none, the
parameters cannot be made.
-/
namespace EditorBridge.Lsp

structure NoUri where
  path : Path
deriving DecidableEq, Repr

def fileUri (path : Path) : Except NoUri String :=
  match Uri.ofPath? path with
  | some uri => .ok uri
  | none => .error ⟨path⟩

/-- The version that a client tells its server. -/
def clientVersion : String := "0.1.0"

/-- What a client tells its server that it can do. -/
def clientCapabilities : Json :=
  Json.ofMembers [
    ("textDocument", Json.ofMembers [
      ("synchronization", Json.ofMembers [
        ("didSave", .bool false), ("dynamicRegistration", .bool false), ("willSave", .bool false),
        ("willSaveWaitUntil", .bool false)])]),
    ("window", Json.ofMembers [("workDoneProgress", .bool true)]),
    ("workspace", Json.ofMembers [
      ("configuration", .bool true),
      ("didChangeConfiguration", Json.ofMembers [("dynamicRegistration", .bool false)]),
      ("didChangeWatchedFiles", Json.ofMembers [
        ("dynamicRegistration", .bool false), ("relativePatternSupport", .bool false)]),
      ("workspaceFolders", .bool true)])]

/-- The parameters of the first request. The process is written by its number; a root, when there is
one, is also the only folder of the workspace, under its last name or else under its whole path. -/
def handshakeParams (processId : Json) (clientName : String) (root : Option Path) :
    Except NoUri Json := do
  let folder ← match root with
    | none => pure none
    | some root => do
      let uri ← fileUri root
      pure (some (uri, (root.fileName?.map Utf8.lossyString).getD root.display))
  return Json.ofMembers <| Json.present [
    ("processId", some processId),
    ("rootUri", some ((folder.map fun f => Json.string f.1).getD .null)),
    ("capabilities", some clientCapabilities),
    ("clientInfo", some (Json.ofMembers [
      ("name", .string clientName), ("version", .string clientVersion)])),
    ("workspaceFolders", folder.map fun f =>
      .array [Json.ofMembers [("name", .string f.2), ("uri", .string f.1)]])]

/-- The settings as they are told. -/
def configurationParams (settings : Json) : Json := Json.ofMembers [("settings", settings)]

/-- The changes of watched files: the URI of each file and the number of the kind of change. -/
def watchedFilesParams (changes : List (String × Int)) : Json :=
  Json.ofMembers [("changes", .array (changes.map fun change =>
    Json.ofMembers [("type", .int change.2), ("uri", .string change.1)]))]

/-- An opened document as it is told. -/
def openParams (uri languageId : String) (version : Int) (text : String) : Json :=
  Json.ofMembers [("textDocument", Json.ofMembers [
    ("languageId", .string languageId), ("text", .string text), ("uri", .string uri),
    ("version", .int version)])]

end EditorBridge.Lsp
