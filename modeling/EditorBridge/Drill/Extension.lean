import EditorBridge.Drill.Registry
import EditorBridge.Drill.Session
/-!
Drills of the extension: activation, its session, and the registry that it shares with the host.
-/
namespace EditorBridge.Drill

/-- An extension, the host around it, and what it has activated. -/
structure ExtensionRun where
  bridge : Rehearsal.Bridge
  config : Config
  context : ExtensionContext
  registry : RegistryRun
  active : Option Nat
  /-- The manager whose readiness was promised by the last start that was a step of its own. -/
  promised : Option Nat

def extensionError (e : ExtensionError) : Json :=
  let kind := match e with
    | .config _ => "Config"
    | .session _ => "Session"
    | .lsp _ => "Lsp"
  errorAnswer kind e.message

/-- The extension goes, and its session with it. -/
def ExtensionRun.drop (s : ExtensionRun) : ExtensionRun :=
  match s.active with
  | none => s
  | some n =>
    match s.bridge.state? n with
    | none => s
    | some state => { s with bridge := s.bridge.withState n state.abandon, active := none }

/-- Activates the extension and keeps what comes of it. -/
def ExtensionRun.activate (s : ExtensionRun) : ExtensionRun × Json :=
  match EditorBridge.activate s.context s.registry.registry s.config processIdMark with
  | .error e => (s, extensionError e)
  | .ok a =>
    let s := s.drop
    let (bridge, n) := s.bridge.manage a.profile a.session
    ({ s with
        bridge := bridge.keepTime, context := a.context, active := some n
        registry := { s.registry with registry := a.registry } },
      .array [str a.session.status.text, str a.location.display])

def extensionAct (s : ExtensionRun) (step : List Json) : ExtensionRun × Json :=
  match stepName step with
  | "activate" => s.activate
  | "dispose_all" =>
    let (context, registry) := s.context.dispose s.registry.registry
    ({ s with context, registry := { s.registry with registry } }, .null)
  | _ =>
    match registryStep? s.registry step, serverStep? s.bridge step with
    | some (registry, r), _ => ({ s with registry }, r)
    | none, some (bridge, r) => ({ s with bridge }, r)
    | none, none =>
      match s.active, s.active.bind (s.bridge.managers[·]?) with
      | some n, some m =>
        match stepName step with
        | "deactivate" => (ExtensionRun.drop { s with bridge := s.bridge.stop n fuel }, .null)
        | "wait_ready" =>
          let (bridge, r) := s.bridge.ready n fuel
          ({ s with bridge }, sessionResult (fun _ => .null) r)
        | _ =>
          match startStep? ⟨s.bridge, s.promised⟩ n step, sessionStep? s.bridge n m step with
          | some (run, r), _ => ({ s with bridge := run.bridge, promised := run.promised }, r)
          | none, some (bridge, r) => ({ s with bridge }, r)
          | none, none => (s, .null)
      | _, _ => (s, str "inactive")

def extensionStep (s : ExtensionRun) (step : List Json) : ExtensionRun × Json :=
  let (s, r) := extensionAct s step
  let (bridge, told) := settleBridge s.bridge
  ({ s with bridge },
    obj ([("r", r), ("subscriptions", .nat s.context.subscriptions.length)] ++
      statusShown bridge s.active step ["wait_ready"] ++ told))

def extension (i : Json) : Json :=
  match configOf (configSteps i) with
  | .error e => configError e
  | .ok config =>
    let context : ExtensionContext :=
      ⟨pathOf (i.get "extension_path"), optPath (i.get "workspace_root"), []⟩
    let run : ExtensionRun :=
      ⟨newBridge i config, config, context, ⟨.empty, []⟩, none, none⟩
    .array (runSteps extensionStep run (stepsOf i)).2

end EditorBridge.Drill
