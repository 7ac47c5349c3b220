import EditorBridge.Drill.Connection
import EditorBridge.Rehearsal.Processes
/-!
Drills of the process manager on a small system.
-/
namespace EditorBridge.Drill

def processErrorKind : Process.Error → String
  | .spawn .. => "Spawn"
  | .notStarted => "NotStarted"
  | .alreadyStarted => "AlreadyStarted"

def processError (e : Process.Error) : Json := errorAnswer (processErrorKind e) e.message

def processResult : Except Process.Error Unit → Json
  | .ok () => .null
  | .error e => processError e

/-- Joins text until it ends with the given one, or to the end when there is none. -/
def readUntil (pid : Nat) (final : Option (List Char)) : Nat → Rehearsal.Processes → List Char →
    Rehearsal.Processes × List Char × Option Stream.Fault
  | 0, w, text => (w, text, none)
  | count + 1, w, text =>
    if final.any fun f => f.isSuffixOf text then (w, text, none)
    else
      match w.receive pid fuel with
      | (w, .piece p) => readUntil pid final count w (text ++ p)
      | (w, .failed f) => (w, text, some f)
      | (w, .waiting) => (w, text, none)

def statusText : Process.Status → String
  | .notStarted => "not started"
  | .running _ => "running"
  | .stopped => "stopped"

def readJson (text : List Char) (fault : Option Stream.Fault) : Json :=
  obj [("text", str (String.ofList text)), ("end", orNull (fault.map streamFault))]

def processStep (w : Rehearsal.Processes) (step : List Json) : Rehearsal.Processes × Json :=
  match stepName step with
  | "start" =>
    let (w, r) := w.start
    (w, processResult r)
  | "stop" =>
    let (w, r) := w.stop (if strOf (arg step 1) = "force" then .force else .graceful) fuel
    (w, processResult r)
  | "kill" => (w.follow w.manager.kill, .null)
  | "transport" =>
    let (w, r) := w.takeConnection
    (w, processResult r)
  | "send" =>
    match w.connection? with
    | none => (w, str "no transport")
    | some l =>
      match l.transport.send (strOf (arg step 1)) with
      | .ok t => (w.onLink l.pid fun _ => t, .null)
      | .error f => (w, streamFault f)
  | "close" =>
    match w.connection? with
    | none => (w, str "no transport")
    | some l => (w.onLink l.pid Stream.Transport.close, .null)
  | "read" =>
    match w.connection? with
    | none => (w, readJson [] none)
    | some l =>
      let final := (arg step 1).string?.map String.toList
      let (w, text, fault) := readUntil l.pid final fuel w []
      (w, readJson text fault)
  | "exit" =>
    let (w, exit) := w.takeExit fuel
    (w, orNull (exit.map fun e => obj [("code", orNull (e.code.map .int))]))
  | "stderr" =>
    let (w, lines) := w.takeLines (arg step 1).nat? fuel
    (w, .array (lines.map str))
  | "state" =>
    let s := w.manager.status
    (w, .array [str (statusText s), .bool w.manager.isRunning, .bool s.pid?.isSome])
  | _ => (w, .null)

def process (i : Json) : Json :=
  let program : Process.Program :=
    ⟨pathOf (i.get "command"), strings (i.get "args"), optPath (i.get "cwd"), envOf (i.get "env")⟩
  let grace := limitOf (i.get "grace_ms") Process.standardGrace
  let handler := (i.get "stderr").bool? != some false
  let manager := Process.Manager.create program grace handler
  let (_, out) := runSteps processStep (.create manager (.create [])) (stepsOf i)
  obj [("command", str program.command.display),
    ("cwd", orNull (program.cwd.map fun p => str p.display)), ("steps", .array out)]

end EditorBridge.Drill
