import EditorBridge.Lsp.Output
import EditorBridge.Rpc.Message
import EditorBridge.Settings
import EditorBridge.Uri.Reference
/-!
What a session makes of the messages of its server: log messages go to the output channel, requests
for settings are answered from the settings tree, and a few other requests are acknowledged.
-/
namespace EditorBridge.Session

/-- A message that the server wants to be shown. -/
structure ShownMessage where
  type : Int
  text : String
deriving Repr

/-- Both kinds of such messages have the same members. -/
def ShownMessage.shape (name : String) : RecordShape ShownMessage where
  name
  fields := [
    ⟨"type", .required, fun m d => do return { m with type := ← d.readInt32 }⟩,
    ⟨"message", .required, fun m d => do return { m with text := ← d.readText }⟩]

def ShownMessage.read (name : String) : Document → Decoded ShownMessage :=
  (shape name).read .tree ⟨0, ""⟩

/-- The notifications that hold such a message, and how misfits in them are named. -/
def shownMethods : List (String × String) :=
  [("window/logMessage", "LogMessageParams"), ("window/showMessage", "ShowMessageParams")]

/-- Takes a notification of the server. What is not understood is ignored. -/
def route (output : Lsp.OutputChannel) (n : Rpc.Notification) : Lsp.OutputChannel :=
  match shownMethods.find? (·.1 == n.method) with
  | none => output
  | some (_, name) =>
    match ShownMessage.read name (Document.ofJson (n.params.getD .null)) with
    | .ok m => output.appendMessage m.type m.text
    | .error _ => output

/-- One item of a request for settings. -/
structure SettingsItem where
  section_ : Option String
deriving Repr

/-- Reads a reference, and checks that it is one; the reference itself does not matter. -/
def readReference (d : Document) : Decoded String := do
  let text ← d.readText
  match Uri.checkReference text with
  | .ok () => return text
  | .error fault => .error (.misfit (.invalidText fault.message))

/-- The members that are read, of which none is needed. -/
def SettingsItem.shape : RecordShape SettingsItem where
  name := "ConfigurationItem"
  fields := [
    ⟨"scopeUri", .byName, fun item d => do
      discard <| d.readOptional readReference
      return item⟩,
    ⟨"section", .byName, fun item d => do
      return { item with section_ := ← d.readOptional Document.readText }⟩]

structure SettingsRequest where
  items : List SettingsItem
deriving Repr

/-- An item may also be an array in which its members stand in order. -/
def SettingsRequest.shape : RecordShape SettingsRequest where
  name := "ConfigurationParams"
  fields := [
    ⟨"items", .required, fun r d => do
      return { r with items := ← d.readList (SettingsItem.shape.read .tree ⟨none⟩) }⟩]

def SettingsRequest.read : Document → Decoded SettingsRequest := shape.read .tree ⟨[]⟩

/-- The settings that an item asks for: one section, or the whole tree. -/
def SettingsItem.answer (settings : Json) (item : SettingsItem) : Json :=
  match item.section_ with
  | some name => Settings.lookup settings name
  | none => settings

def settingsMethod : String := "workspace/configuration"

/-- The requests that are answered with null. -/
def acknowledgedMethods : List String :=
  ["window/workDoneProgress/create", "client/registerCapability", "client/unregisterCapability"]

/-- What the server is told about parameters that are not understood. -/
def misfitText : DecodeFault → String
  | .misfit m => m.message
  | .text _ => ""

/-- Answers a request of the server. Items are answered in their order. -/
def answer (settings : Json) (r : Rpc.Request) : Rpc.Response :=
  if r.method = settingsMethod then
    match SettingsRequest.read (Document.ofJson (r.params.getD .null)) with
    | .ok request => .success r.id (.array (request.items.map (·.answer settings)))
    | .error fault => .failure r.id .invalidParams (misfitText fault)
  else if acknowledgedMethods.contains r.method then .success r.id .null
  else .methodNotFound r.id r.method

end EditorBridge.Session
