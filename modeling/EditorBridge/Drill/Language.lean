import EditorBridge.Drill.Record
import EditorBridge.Drill.Step
import EditorBridge.Rehearsal.Language
/-!
Drills of a language client against a server that follows a script.
-/
namespace EditorBridge.Drill

def ruleOf (j : Json) : Rehearsal.Rule where
  delay := millis (natOf (j.get "delay_ms"))
  before := listOf (j.get "before")
  reply :=
    if (j.get "ignore").bool? = some true then .ignored
    else
      match j.get? "error", j.get? "result" with
      | some e, _ => .error e
      | none, some r => .result r
      | none, none => .usual
  after := listOf (j.get "push")
  close := (j.get "close").bool? = some true

/-- Reads the rules of a server, one or a list for each method. -/
def scriptOf (j : Json) : Rehearsal.Script :=
  ((j.members?).getD []).map fun (method, rules) =>
    (method, match rules with
      | .array rs => rs.map ruleOf
      | rule => [ruleOf rule])

def lspErrorKind : Lsp.Error → String
  | .call _ => "JsonRpc"
  | .notInitialized => "NotInitialized"
  | .alreadyInitialized => "Protocol"
  | .timeout _ => "RequestTimeout"
  | .noUri _ => "InvalidUri"

def lspError (e : Lsp.Error) : Json := errorAnswer (lspErrorKind e) e.message

def lspResult {α : Type} (f : α → Json) : Except Lsp.Error α → Json
  | .ok a => f a
  | .error e => lspError e

def handshakeJson (h : Lsp.Handshake) : Json :=
  obj [("serverInfo", orNull (h.serverInfo.map fun i =>
    .array [str i.name, orNull (i.version.map str)]))]

def changesOf (j : Json) : List (Path × Int) :=
  (listOf j).map fun c => (pathOf (arg (listOf c) 0), intOf (arg (listOf c) 1))

structure LanguageRun where
  world : Rehearsal.Language
  limit : Duration

def languageAct (s : LanguageRun) (step : List Json) : Rehearsal.Language × Json :=
  let w := s.world
  let unit (_ : Unit) : Json := .null
  match stepName step with
  | "initialize" =>
    match Lsp.handshakeParams (str "<pid>") (strOf (arg step 1)) (optPath (arg step 2)) with
    | .error fault => (w, lspError (.noUri fault))
    | .ok params =>
      let (w, r) := w.handshake params (.ofMillis (natOf (arg step 3))) fuel
      (w, lspResult handshakeJson r)
  | "shutdown" =>
    let (w, r) := w.shutdown s.limit fuel
    (w, lspResult unit r)
  | "close" =>
    let (w, r) := w.close s.limit fuel
    (w, lspResult unit r)
  | "config" =>
    let (w, r) := w.tell (·.tellConfiguration (arg step 1))
    (w, lspResult unit r)
  | "watched" =>
    match (changesOf (arg step 1)).mapM fun (p, kind) => (·, kind) <$> Lsp.fileUri p with
    | .error fault => (w, lspError (.noUri fault))
    | .ok changes =>
      let (w, r) := w.tell (·.tellWatchedFiles changes)
      (w, lspResult unit r)
  | "open" =>
    match Lsp.fileUri (pathOf (arg step 1)) with
    | .error fault => (w, lspError (.noUri fault))
    | .ok uri =>
      let (w, r) := w.tell
        (·.tellOpened uri (strOf (arg step 2)) (intOf (arg step 3)) (strOf (arg step 4)))
      (w, lspResult unit r)
  | "advance" => (w.pass (millis (natOf (arg step 1))) fuel, .null)
  | "push" =>
    let (w, ok) := w.push (arg step 1).text
    (w, .bool ok)
  | "push_text" =>
    let (w, ok) := w.push (strOf (arg step 1))
    (w, .bool ok)
  | "server_close" =>
    let (w, ok) := w.closeServer
    (w, .bool ok)
  | _ => (w, .null)

/-- Takes one step, and records it with what the server has read. -/
def languageStep (s : LanguageRun) (step : List Json) : LanguageRun × Json :=
  let (w, r) := languageAct s step
  let w := w.pass settling fuel
  let (server, log) := w.server.takeLog
  let c := w.client
  let state : Json := .array [.bool c.initialized, .bool c.capabilities.isSome, .bool c.isConnected]
  ({ s with world := { w with server } },
    obj (("r", r) :: ("state", state) :: if log.isEmpty then [] else [("recv", .array log)]))

def language (i : Json) : Json :=
  let limit := limitOf (i.get "timeout_ms") (.ofSecs 10)
  .array (runSteps languageStep ⟨.create (scriptOf (i.get "server")), limit⟩ (stepsOf i)).2

end EditorBridge.Drill
