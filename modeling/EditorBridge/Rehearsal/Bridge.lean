import EditorBridge.Host.System
import EditorBridge.Rehearsal.Server
import EditorBridge.Session.Call
import EditorBridge.Timeline
/-!
Session managers, the servers that they launch, and a clock. Here every task goes on as soon as it
can, so that what is seen is one run of the steps of a manager among many. There may be several
managers, because what a manager has started goes on when another takes its place. The servers follow
a script, or else they are the processes of a small system.
-/
namespace EditorBridge.Rehearsal

structure Managed where
  profile : Session.Profile
  state : Session.State

structure Running where
  manager : Nat
  timer : Session.State.Timer
  time : Nat

/-- A server and the attempt that it was launched for. -/
structure Served where
  manager : Nat
  attempt : Nat
  server : Server

structure ProcessHost where
  system : Host.System
  grace : Duration

structure Bridge where
  managers : List Managed
  servers : List Served
  script : Script
  /-- Why the launches fail, in order; none where one does not. -/
  failures : List (Option String)
  launches : List (Nat × Lsp.ServerOptions)
  timers : List Running
  /-- What the servers have read since the log was last taken. -/
  log : List Json
  /-- The system on which servers are launched, unless they follow the script. -/
  host : Option ProcessHost
  now : Nat

namespace Bridge

/-- A bridge whose servers follow a script; some launches may fail. -/
def create (script : Script) (failures : List (Option String)) : Bridge :=
  ⟨[], [], script, failures, [], [], [], none, 0⟩

def onSystem (host : ProcessHost) : Bridge := { create [] [] with host := some host }

def manage (b : Bridge) (profile : Session.Profile) (state : Session.State) : Bridge × Nat :=
  ({ b with managers := b.managers ++ [⟨profile, state⟩] }, b.managers.length)

def state? (b : Bridge) (i : Nat) : Option Session.State := (b.managers[i]?).map (·.state)

def withState (b : Bridge) (i : Nat) (state : Session.State) : Bridge :=
  { b with managers := b.managers.modify i fun m => { m with state } }

/-- The timers of all managers, each with the manager it belongs to and how long it runs. -/
def dueTimers (b : Bridge) : List (Nat × Session.State.Timer × Nat) :=
  (b.managers.zipIdx.map fun (m, i) =>
    m.state.timers.map fun t => (i, t, (t.span m.profile m.state).nanos)).flatten

/-- Starts the timers that are new, and drops those that run no more. -/
def keepTime (b : Bridge) : Bridge :=
  { b with timers := b.dueTimers.map fun (i, t, span) =>
      match b.timers.find? fun r => r.manager == i && r.timer == t with
      | some r => r
      | none => ⟨i, t, b.now + span⟩ }

/-- What a server that follows a script writes when it is launched. -/
def launchLine : String := "server started"

/-- Launches a server that follows the script, or fails as it is told to. -/
def launchScripted (b : Bridge) (i k : Nat) (s : Session.State) (server : Lsp.ServerOptions) :
    Bridge :=
  let failure := (b.failures[b.launches.length]?).join
  let b := { b with launches := b.launches ++ [(i, server)] }
  match failure with
  | some reason =>
    b.withState i ((s.launched k (.error (.launch (.spawn server.command reason)))).getD s)
  | none =>
    let s := { s with output := s.output.append .info launchLine }
    { b.withState i ((s.launched k (.ok (.fresh, none))).getD s) with
      servers := b.servers ++ [⟨i, k, .fresh⟩] }

def startProcess (host : ProcessHost) (server : Lsp.ServerOptions) :
    ProcessHost × Except Process.Error Process.Manager :=
  let program : Process.Program := ⟨server.command, server.args, server.cwd, []⟩
  let manager := Process.Manager.create program host.grace true
  let (system, spawned) := host.system.run program
  let result := do
    let (manager, _) ← manager.start spawned
    return (← manager.takeConnection).1
  ({ host with system }, result)

def launch (b : Bridge) (i k : Nat) (s : Session.State) (server : Lsp.ServerOptions) : Bridge :=
  match b.host with
  | none => b.launchScripted i k s server
  | some host =>
    let (host, result) := startProcess host server
    let b := { b with launches := b.launches ++ [(i, server)], host := some host }
    let launched := match result with
      | .ok process => .ok (.fresh, some process)
      | .error e => .error (.launch e)
    b.withState i ((s.launched k launched).getD s)

/-- Launches the first server that is waited for. -/
def launchStep? (b : Bridge) (i : Nat) (s : Session.State) : Option Bridge :=
  (s.attempts.zipIdx.find? fun (a, _) => a.phase == .launching).map fun (a, k) =>
    b.launch i k s a.server

/-- A step of the first connection that has something to do. -/
def connectionStep? (s : Session.State) : Option Session.State :=
  s.attempts.zipIdx.findSome? fun (a, k) =>
    (s.loopStep? k).or do
      let c ← a.client
      let connection ← c.rpc.connection.writeStep?
      return s.onConnection k fun _ => connection

/-- A task goes on until it has to wait; the fuel bounds its steps. -/
def goOn (step : Session.State → Option Session.State) : Nat → Session.State → Session.State
  | 0, s => s
  | fuel + 1, s =>
    match step s with
    | some s => goOn step fuel s
    | none => s

/-- More steps than a task takes without having to wait. -/
def taskFuel : Nat := 16

def goOn? (step : Session.State → Option Session.State) (s : Session.State) :
    Option Session.State :=
  (step s).map (goOn step taskFuel)

/-- Lets a task go on: of an attempt, of stopping, or of a forwarding. -/
def taskStep? (p : Session.Profile) (s : Session.State) : Option Session.State :=
  (s.attempts.zipIdx.findSome? fun (_, k) => goOn? (·.startStep? p k) s).or <|
    (goOn? (·.stopStep?) s).or <|
      s.forwards.findSome? fun f => goOn? (fun s => (s.acquire? f.id).or (s.deliver? p f.id)) s

/-- A step of a manager: of its connections, its tasks or its launcher. The connections come first,
so that a task goes on when nothing more has arrived. -/
def managerStep? (b : Bridge) (i : Nat) (m : Managed) : Option Bridge :=
  match (connectionStep? m.state).or (taskStep? m.profile m.state) with
  | some s => some (b.withState i s)
  | none => b.launchStep? i m.state

/-- The transport to the server of an attempt. -/
def transport? (b : Bridge) (i k : Nat) : Option Stream.Transport :=
  ((b.state? i).bind (·.client? k)).map fun c => c.rpc.connection.transport

/-- Sets the transport to the server of an attempt. -/
def withTransport (b : Bridge) (i k : Nat) (t : Stream.Transport) : Bridge :=
  match b.state? i with
  | some s => b.withState i (s.onConnection k (·.onto fun _ => t))
  | none => b

def withServer (b : Bridge) (n : Nat) (server : Server) : Bridge :=
  { b with servers := b.servers.modify n fun s => { s with server } }

/-- A step of a server that follows the script. -/
def serverStep? (b : Bridge) (n : Nat) (s : Served) : Option Bridge := do
  let t ← b.transport? s.manager s.attempt
  let (server, script, t) ← s.server.react b.script b.now t
  let (server, log) := server.takeLog
  return { (b.withTransport s.manager s.attempt t).withServer n server with
    script, log := b.log ++ log }

def childOf (a : Session.Attempt) : Option Nat := (a.process.bind (·.latest)).map (·.pid)

/-- The first attempt of which something holds. -/
def findAttempt? {α : Type} (b : Bridge)
    (f : Nat → Nat → Session.State → Session.Attempt → Option α) : Option α :=
  b.managers.zipIdx.findSome? fun (m, i) =>
    m.state.attempts.zipIdx.findSome? fun (a, k) => f i k m.state a

def ownerOf? (b : Bridge) (pid : Nat) : Option (Nat × Nat) :=
  b.findAttempt? fun i k _ a => if childOf a = some pid then some (i, k) else none

/-- Changes the manager that a process belongs to. -/
def onOwner (b : Bridge) (pid : Nat) (f : Nat → Session.State → Session.State) : Bridge :=
  ((b.ownerOf? pid).bind fun (i, k) => (b.state? i).map fun s => b.withState i (f k s)).getD b

/-- Tells a manager what has become of a process. -/
def takeEvent (b : Bridge) : Host.Event → Bridge
  | .output pid bytes => b.onOwner pid fun k s => s.onConnection k (·.onto (·.deliverAll bytes))
  | .errors pid bytes => b.onOwner pid fun k s => s.onProcess k (·.errorOutput pid bytes)
  | .exited exit => b.onOwner exit.pid fun k s => s.onProcess k fun m => (m.observeExit exit, [])
  | .closed pid =>
    b.onOwner pid fun k s =>
      (s.onConnection k (·.onto (·.deliverEnd))).onProcess k (·.errorEnd pid)

/-- Does what a manager has asked of the system. -/
def errandStep? (b : Bridge) (host : ProcessHost) : Option Bridge :=
  b.findAttempt? fun i k s a =>
    if a.errands.isEmpty then none
    else
      let system := a.errands.foldl Host.System.obey host.system
      some { b.withState i (s.onAttempt k fun a => { a with errands := [] }) with
        host := some { host with system } }

/-- Exchanges with the process of an attempt what was written, or tells it what has ended. -/
def exchangeStep? (b : Bridge) (host : ProcessHost) : Option Bridge :=
  b.findAttempt? fun i k s a => do
    let pid ← childOf a
    let client ← a.client
    let (system, t) ← host.system.exchange? pid client.rpc.connection.transport
    return { b.withState i (s.onConnection k (·.onto fun _ => t)) with
      host := some { host with system } }

def systemStep? (b : Bridge) (host : ProcessHost) : Option Bridge :=
  (host.system.step? b.now).map fun (system, events) =>
    events.foldl takeEvent { b with host := some { host with system } }

def exitStep? (b : Bridge) : Option Bridge :=
  b.findAttempt? fun i k s _ => (s.tellExit? k).map (b.withState i)

/-- A step of everything that has to do with processes. -/
def hostStep? (b : Bridge) : Option Bridge :=
  b.host.bind fun host =>
    (b.errandStep? host).or <| (b.exchangeStep? host).or <| (b.systemStep? host).or b.exitStep?

def timerStep? (b : Bridge) : Option Bridge := do
  let r ← b.timers.find? fun r => r.time ≤ b.now
  let s ← b.state? r.manager
  return b.withState r.manager (s.fire r.timer)

/-- A step of a manager, or else of one of its servers. What the server of the latest attempt has to
read was written before the attempt put an older one out of its place; so the latest comes first. -/
def sessionStep? (b : Bridge) (i : Nat) (m : Managed) : Option Bridge :=
  (b.managerStep? i m).or <|
    b.servers.zipIdx.reverse.findSome? fun (s, n) =>
      if s.manager = i then b.serverStep? n s else none

/-- What happens at once. A manager that was given up comes to rest before the one that took its
place. -/
def react (b : Bridge) : Option Bridge :=
  let step := (b.managers.zipIdx.findSome? fun (m, i) => b.sessionStep? i m).or <|
    b.hostStep?.or b.timerStep?
  step.map keepTime

def timeline : Timeline Bridge Unit where
  now b := b.now
  moveTo time b := { b with now := time }
  react b := b.react.map (·, [])
  wake b := Timeline.soonest (b.timers.map (·.time) ++ b.servers.filterMap (·.server.wake) ++
    (b.host.map fun host => host.system.wakes).getD [])

def pass (b : Bridge) (span fuel : Nat) : Bridge := (timeline.pass span fuel b).1

/-- Waits until a condition on a manager holds, up to a limit; answers whether it came to hold. -/
def awaitState (b : Bridge) (i : Nat) (done : Session.State → Bool) (limit fuel : Nat) :
    Bridge × Bool :=
  let holds (b : Bridge) : Bool := (b.state? i).any done
  let (b, _) := timeline.await holds (b.now + limit) fuel b
  (b, holds b)

def forever : Nat := 1000000 * 1000000000

def start (b : Bridge) (i : Nat) (path : Path) (root : Option Path) :
    Bridge × Except Session.Error Unit :=
  match b.state? i with
  | none => (b, .ok ())
  | some s =>
    match s.start path root with
    | .error e => (b, .error e)
    | .ok s => ((b.withState i s).keepTime, .ok ())

def ready (b : Bridge) (i fuel : Nat) : Bridge × Except Session.Error Unit :=
  let (b, _) := b.awaitState i (fun s => s.status.readiness?.isSome) forever fuel
  (b, (((b.state? i).bind (·.status.readiness?))).getD (.ok ()))

/-- Stops a session, and waits until that is done. -/
def stop (b : Bridge) (i fuel : Nat) : Bridge :=
  match b.state? i with
  | none => b
  | some s =>
    let b := (b.withState i s.requestStop).keepTime
    (b.awaitState i (fun s => s.stop.isNone) forever fuel).1

def finishForward (b : Bridge) (i : Nat) (call : Session.State × Nat) (fuel : Nat) :
    Bridge × Except Session.Error Bool :=
  let (s, id) := call
  let isDone (s : Session.State) : Bool := (s.takeResult? id).isSome
  let (b, _) := (b.withState i s).awaitState i isDone forever fuel
  match (b.state? i).bind (·.takeResult? id) with
  | some (s, result) => (b.withState i s, result)
  | none => (b, .ok false)

/-- Makes a call to a manager and waits for its reply. -/
def call (b : Bridge) (i : Nat) (m : Managed) (call : Session.Call) (fuel : Nat) :
    Bridge × Except Session.Error Session.Reply :=
  match m.state.call m.profile call with
  | .answered result => (b, result)
  | .forwarded s id whenSent =>
    let (b, result) := b.finishForward i (s, id) fuel
    (b, result.map whenSent.ifSent)

def lastServer? (b : Bridge) : Option (Nat × Served × Stream.Transport) := do
  let s ← b.servers.getLast?
  let t ← b.transport? s.manager s.attempt
  return (b.servers.length - 1, s, t)

def push (b : Bridge) (text : String) : Bridge × Bool :=
  match b.lastServer? with
  | none => (b, false)
  | some (_, s, t) =>
    let (t, ok) := s.server.peer.say t text
    (b.withTransport s.manager s.attempt t, ok)

/-- Lets the last server close its end of the connection. -/
def closeServer (b : Bridge) : Bridge × Bool :=
  match b.lastServer? with
  | none => (b, false)
  | some (n, s, t) =>
    let (peer, t') := s.server.peer.close t
    ((b.withTransport s.manager s.attempt t').withServer n { s.server with peer },
      !s.server.peer.closed)

def exit (b : Bridge) (code : Option Int) : Bridge × Bool :=
  match b.launches.getLast? with
  | none => (b, false)
  | some (i, _) =>
    match b.state? i with
    | none => (b, false)
    | some s => (b.withState i (s.exited code), true)

end Bridge
end EditorBridge.Rehearsal
