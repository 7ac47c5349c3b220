import EditorBridge.Debug.Startup
import EditorBridge.Rehearsal.Processes
/-!
A debug session with an adapter that is a process of a small system, under a clock. The client goes
on first, then the start of the session, and then the process.
-/
namespace EditorBridge.Rehearsal

structure Debugger where
  startup : Debug.Startup
  adapter : Processes
  pid : Nat
  limit : Duration
  deadline : Nat

namespace Debugger

def now (d : Debugger) : Nat := d.adapter.now

def withClient (d : Debugger) (client : Adapter.Client) : Debugger :=
  { d with startup := { d.startup with client } }

/-- The processes, with the connection as the client has it. -/
def lend (d : Debugger) : Processes :=
  d.adapter.onLink d.pid fun _ => d.startup.client.connection.transport

/-- The client, with the connection as the processes have left it. -/
def takeBack (d : Debugger) (adapter : Processes) : Debugger :=
  let client := d.startup.client
  let connection := match adapter.links.find? (·.pid == d.pid) with
    | some l => client.connection.onto fun _ => l.transport
    | none => client.connection
  { d.withClient { client with connection } with adapter }

/-- Goes on with the start; the next stage has the whole limit to itself. -/
def follow (d : Debugger) (startup : Debug.Startup) : Debugger :=
  { d with startup, deadline := d.now + d.limit.nanos }

/-- A step of the client, or else of the start. -/
def clientStep? (d : Debugger) : Option Debugger :=
  match d.startup.client.loopStep? with
  | some client => some (d.withClient client)
  | none => d.startup.step?.map d.follow

def isExpired (d : Debugger) : Bool := d.startup.result?.isNone && d.deadline ≤ d.now

def react (d : Debugger) : Option Debugger :=
  d.clientStep?.or <| (d.lend.react.map d.takeBack).or <|
    if d.isExpired then some (d.follow (d.startup.expire d.limit)) else none

def timeline : Timeline Debugger Unit where
  now := now
  moveTo time d := { d with adapter := { d.adapter with now := time } }
  react d := d.react.map (·, [])
  wake d :=
    let deadline := if d.startup.result?.isNone then some d.deadline else none
    Timeline.sooner deadline (Processes.timeline.wake d.adapter)

def await (d : Debugger) (done : Debugger → Bool) (span fuel : Nat) : Debugger :=
  (timeline.await done (d.now + span) fuel d).1

/-- Gives up the session and kills the adapter. -/
def abandon (d : Debugger) : Debugger :=
  let d := d.withClient d.startup.client.abort
  { d with adapter := d.adapter.follow d.adapter.manager.kill }

/-- Runs the adapter of a plan. There is no network, so that no adapter that listens is reached. -/
def reach (plan : Debug.StartPlan) :
    Except Debug.StartError (Stream.Transport × Processes × Nat) :=
  match plan.descriptor with
  | .server endpoint => .error (.connect endpoint Host.System.unreachable)
  | .executable e =>
    let program : Process.Program := ⟨e.command, e.args, e.cwd, e.env⟩
    let manager := Process.Manager.create program Process.standardGrace false
    match (Processes.create manager (.create [])).start with
    | (_, .error e) => .error (.process e)
    | (processes, .ok ()) =>
      match processes.takeConnection with
      | (_, .error e) => .error (.process e)
      | (processes, .ok ()) => .ok (.fresh, processes, (processes.taken).getD 0)

/-- Starts a session, and waits until that is done. -/
def start (registry : Debug.Registry) (folder : Option Debug.WorkspaceFolder)
    (config : Debug.LaunchConfiguration) (token : Option Debug.CancellationToken) (limit : Duration)
    (fuel : Nat) : Except Debug.StartError Debugger := do
  let (startup, adapter, pid) ←
    (registry.openSession (fun plan _ => ((), reach plan)) folder config token ()).2
  let d : Debugger := ⟨startup, adapter, pid, limit, adapter.now + limit.nanos⟩
  let d := d.await (·.startup.result?.isSome) Processes.forever fuel
  match d.startup.result? with
  | some (.error e) => .error (.protocol e)
  | _ => .ok d

def request (d : Debugger) (command : String) (arguments : Option Json) (fuel : Nat) :
    Debugger × Except Adapter.CallError Adapter.Response :=
  match d.startup.client.send command arguments with
  | (client, .error e) => (d.withClient client, .error e)
  | (client, .ok seq) =>
    let isAnswered (d : Debugger) : Bool := (d.startup.client.poll? seq).isSome
    let d := (d.withClient client).await isAnswered d.limit.nanos fuel
    match d.startup.client.poll? seq with
    | some (client, result) => (d.withClient client, result)
    | none => (d.withClient (d.startup.client.giveUp seq), .error (.timeout command d.limit))

def nextEvent (d : Debugger) (limit : Duration) (fuel : Nat) : Debugger × Option Adapter.Event :=
  let isDecided (d : Debugger) : Bool :=
    !d.startup.client.events.isEmpty || d.startup.client.eventsOver
  let d := d.await isDecided limit.nanos fuel
  match d.startup.client.takeEvent? with
  | some (client, e) => (d.withClient client, some e)
  | none => (d, none)

/-- Ends the session: asks the adapter to, closes the connection and stops the adapter. -/
def disconnect (d : Debugger) (fuel : Nat) : Debugger × Except Debug.StartError Unit :=
  let arguments := Debug.Startup.disconnectArguments d.startup.session
  let (d, result) := d.request Debug.Startup.disconnectCommand (some arguments) fuel
  let d := d.withClient d.startup.client.dropSender
  let d := d.await (·.startup.client.phase == .ended) Adapter.closeLimit.nanos fuel
  let d := d.withClient d.startup.client.abort
  let (adapter, _) := d.lend.stop .graceful fuel
  (d.takeBack adapter, (result.map fun _ => ()).mapError .protocol)

end Debugger
end EditorBridge.Rehearsal
