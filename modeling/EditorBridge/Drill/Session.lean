import EditorBridge.Drill.Configuration
import EditorBridge.Drill.Language
import EditorBridge.Extension
import EditorBridge.Rehearsal.Bridge
/-!
Drills of the language session against servers that follow a script, or that are processes. With
processes the state is shown only where it was waited for.
-/
namespace EditorBridge.Drill

def sessionErrorKind : Session.Error → String
  | .alreadyStarted _ => "AlreadyStarted"
  | .launch _ => "Launch"
  | .lsp _ => "Lsp"
  | .handshakeTimeout _ => "InitializationTimeout"
  | .startFailed _ => "StartFailed"
  | .notRunning _ => "NotRunning"

def sessionError (e : Session.Error) : Json := errorAnswer (sessionErrorKind e) e.message

def sessionResult {α : Type} (f : α → Json) : Except Session.Error α → Json
  | .ok a => f a
  | .error e => sessionError e

def replyJson : Session.Reply → Json
  | .done => .null
  | .count n => .nat n
  | .told sent => .bool sent

def channelJson (c : Lsp.OutputChannel) : Json :=
  obj [("name", str c.name), ("lines", .array (c.lines.map lineJson)),
    ("revealed", .bool c.revealed)]

def optionsJson (o : Lsp.ServerOptions) : Json :=
  .array [str o.command.display, .array (o.args.map str), orNull (o.cwd.map fun p => str p.display)]

/-- A bridge, and the start whose end somebody waits for. -/
structure SessionRun where
  bridge : Rehearsal.Bridge
  promised : Option Nat

def startStep? (s : SessionRun) (i : Nat) (step : List Json) : Option (SessionRun × Json) :=
  match stepName step with
  | "start" =>
    match s.bridge.start i (pathOf (arg step 1)) (optPath (arg step 2)) with
    | (bridge, .error e) => some ({ s with bridge }, sessionError e)
    | (bridge, .ok ()) =>
      some (⟨bridge, some i⟩, orNull ((bridge.state? i).map fun s => str s.status.text))
  | "ready" =>
    match s.promised with
    | none => some (s, str "no handle")
    | some i =>
      let (bridge, r) := s.bridge.ready i fuel
      some ({ s with bridge }, sessionResult (fun _ => .null) r)
  | _ => none

def sessionStep? (b : Rehearsal.Bridge) (i : Nat) (m : Rehearsal.Managed) (step : List Json) :
    Option (Rehearsal.Bridge × Json) :=
  let s := m.state
  let call (c : Session.Call) : Option (Rehearsal.Bridge × Json) :=
    let (b, r) := b.call i m c fuel
    some (b, sessionResult replyJson r)
  match stepName step with
  | "stop" => some (b.stop i fuel, .null)
  | "config" => call (.changeConfiguration (arg step 1))
  | "watched" => call (.watchedFiles (changesOf (arg step 1)))
  | "open" =>
    call (.opened (pathOf (arg step 1)) (strOf (arg step 2)) (intOf (arg step 3))
      (strOf (arg step 4)))
  | "output" => some (b, channelJson s.output)
  | "options" => some (b, orNull (s.server.map optionsJson))
  | "settled" =>
    some (b, .array [.bool s.status.isSettled, .bool (s.status = .running), .bool true])
  | "client" => some (b, .array [str m.profile.clientId, str m.profile.options.settingsSection])
  | "await_settled" =>
    let (b, ok) := b.awaitState i (·.status.isSettled) (millis 3000) fuel
    some (b, .bool ok)
  | "await_line" =>
    let text := strOf (arg step 1)
    let (b, ok) := b.awaitState i (fun s => s.output.lines.any (·.text == text)) (millis 3000) fuel
    some (b, .bool ok)
  | _ => none

def serverStep? (b : Rehearsal.Bridge) (step : List Json) : Option (Rehearsal.Bridge × Json) :=
  let told (r : Rehearsal.Bridge × Bool) := some (r.1, Json.bool r.2)
  match stepName step with
  | "advance" => some (b.pass (millis (natOf (arg step 1))) fuel, .null)
  | "push" => told (b.push (arg step 1).text)
  | "push_text" => told (b.push (strOf (arg step 1)))
  | "server_close" => told b.closeServer
  | "exit" => told (b.exit (arg step 1).integer?)
  | "launches" => some (b, .array (b.launches.map fun (_, o) => optionsJson o))
  | _ => none

/-- Lets everything happen that needs no time, and shows what the server has read. -/
def settleBridge (b : Rehearsal.Bridge) : Rehearsal.Bridge × List (String × Json) :=
  let b := if b.host.isNone then b.pass settling fuel else b
  ({ b with log := [] }, if b.log.isEmpty then [] else [("recv", .array b.log)])

def failuresOf (j : Json) : List (Option String) := (listOf j).map optStr

def isReal (i : Json) : Bool := (i.get "real").bool? = some true

/-- The path at which the text of a script can be executed. -/
def scriptPath : Path := .ofString "/tmp/server-script"

def newBridge (i : Json) (config : Config) : Rehearsal.Bridge :=
  if isReal i then
    let scripts := (optStr (i.get "script")).toList.map fun text => (scriptPath.bytes, text)
    .onSystem ⟨.create scripts, config.shutdownTimeout⟩
  else .create (scriptOf (i.get "server")) (failuresOf (i.get "fail"))

/-- The steps of an input; with a script, each start is one of the script. -/
def startsOf (i : Json) : List (List Json) :=
  if (optStr (i.get "script")).isSome then
    (stepsOf i).map fun step =>
      if stepName step = "start" then step.set 1 (str scriptPath.display) else step
  else stepsOf i

/-- Options of an input go before those of the configuration. -/
def overriddenOptions (i : Json) (o : Lsp.ClientOptions) : Except Json Lsp.ClientOptions := do
  let selector ← match i.get? "selector" with
    | none => pure o.selector
    | some j =>
      match Lsp.DocumentSelector.read .tree (Document.ofJson j) with
      | .ok selector => pure selector
      | .error e => throw (faultAnswer e)
  let fileEvents ← match i.get? "patterns" with
    | none => pure o.fileEvents
    | some j =>
      match Lsp.FileEventFilter.ofGlobs (strings j) with
      | .ok filter => pure filter
      | .error f => throw (globAnswer f)
  let reveal := match i.get? "reveal" with
    | some j => policyOf j
    | none => o.reveal
  return { o with selector, fileEvents, reveal }

/-- Stands for the number of the process, which differs each time. -/
def processIdMark : Json := str "<pid>"

/-- The status of a manager as an entry shows it after a step: always with scripts, and with
processes only after steps of these names. -/
def statusShown (b : Rehearsal.Bridge) (i : Option Nat) (step : List Json) (waits : List String) :
    List (String × Json) :=
  if b.host.isNone || waits.contains (stepName step) then
    [("state", orNull ((i.bind b.state?).map fun s => str s.status.text))]
  else []

/-- Takes one step, and records it with the status. -/
def sessionStep (s : SessionRun) (step : List Json) : SessionRun × Json :=
  let onBridge (r : Rehearsal.Bridge × Json) : SessionRun × Json := ({ s with bridge := r.1 }, r.2)
  let stepped := match s.bridge.managers[0]? with
    | some m =>
      (startStep? s 0 step).or <|
        ((sessionStep? s.bridge 0 m step).or (serverStep? s.bridge step)).map onBridge
    | none => none
  let (s, r) := stepped.getD (s, .null)
  let (bridge, told) := settleBridge s.bridge
  ({ s with bridge },
    obj ([("r", r)] ++ statusShown bridge (some 0) step ["ready", "stop", "await_settled"] ++ told))

def session (i : Json) : Json :=
  match configOf (configSteps i) with
  | .error e => configError e
  | .ok config =>
    match config.clientOptions with
    | .error f => globAnswer f
    | .ok options =>
      match overriddenOptions i options with
      | .error answer => answer
      | .ok options =>
        let profile := config.sessionProfile processIdMark options
        let (b, _) := (newBridge i config).manage profile (.create profile)
        .array (runSteps sessionStep ⟨b, none⟩ (startsOf i)).2

end EditorBridge.Drill
