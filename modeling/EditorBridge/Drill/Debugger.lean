import EditorBridge.Drill.Adapter
import EditorBridge.Drill.Process
import EditorBridge.Drill.Registry
import EditorBridge.Rehearsal.Debugger
/-!
Drills of debug sessions from their start to their end, with adapters that are processes.
-/
namespace EditorBridge.Drill

def startErrorKind : Debug.StartError → String
  | .registry e => registryErrorKind e
  | .unsupportedRequest _ => "UnsupportedRequest"
  | .connect .. => "Connect"
  | .process _ => "Process"
  | .protocol _ => "Protocol"

def startError (e : Debug.StartError) : Json := errorAnswer (startErrorKind e) e.message

/-- A step on a session; none in place of a session that has ended. -/
def debuggerStep (session : Option Rehearsal.Debugger) (step : List Json) :
    Option Rehearsal.Debugger × Json :=
  match session with
  | none => (none, str "disconnected")
  | some d =>
    match stepName step with
    | "request" =>
      let (d, result) := d.request (strOf (arg step 1)) (optArg step 2) fuel
      (some d, adapterResult false result)
    | "event" =>
      let (d, e) := d.nextEvent (.ofMillis (natOf (arg step 1))) fuel
      (some d, orNull (e.map fun e => obj e.toMembers))
    | "disconnect" =>
      let (_, result) := d.disconnect fuel
      (none, match result with
        | .ok () => .null
        | .error e => startError e)
    | _ => (some d, .null)

def debugStart (i : Json) : Json :=
  let listening := if (i.get "adapter").isNull then [] else
    [[str "factory", str "java", .nat Debug.Endpoint.standardPort.toNat]]
  let (run, _) := runSteps (fun s step => (registryStep? s step).getD (s, .null))
    (⟨.empty, []⟩ : RegistryRun) (listening ++ (listOf (i.get "registry")).map listOf)
  let limit := limitOf (i.get "timeout_ms") (.ofSecs 5)
  let answer (start : Json) (steps : List Json) : Json :=
    obj [("start", start), ("steps", .array steps), ("received", .array [])]
  match launchOf (i.get "config") with
  | .error e => answer (faultAnswer e) []
  | .ok config =>
    match Rehearsal.Debugger.start run.registry (folderOf (i.get "folder")) config
        (tokenOf (i.get "cancelled")) limit fuel with
    | .error e => answer (startError e) []
    | .ok d =>
      let session := d.startup.session
      let (_, steps) := runSteps debuggerStep (some d) (stepsOf i)
      answer (obj [("name", str session.name), ("type", str session.debugType),
        ("configuration", session.configuration.toJson),
        ("capabilities", d.startup.capabilities), ("has_endpoint", .bool false)]) steps

end EditorBridge.Drill
