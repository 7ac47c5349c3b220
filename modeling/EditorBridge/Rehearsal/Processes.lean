import EditorBridge.Host.System
import EditorBridge.Timeline
/-!
A process manager on a small system, under a clock. Nothing goes on until something is waited for,
and then everything does.
-/
namespace EditorBridge.Rehearsal

structure Link where
  pid : Nat
  transport : Stream.Transport

/-- A manager, its system, and what was heard of its processes. -/
structure Processes where
  manager : Process.Manager
  system : Host.System
  links : List Link
  taken : Option Nat
  /-- The lines and exits that nobody has asked for. -/
  lines : List String
  exits : List Process.Exit
  graceEnd : Option Nat
  now : Nat

namespace Processes

def create (manager : Process.Manager) (system : Host.System) : Processes :=
  ⟨manager, system, [], none, [], [], none, 0⟩

def onLink (w : Processes) (pid : Nat) (f : Stream.Transport → Stream.Transport) : Processes :=
  { w with links := w.links.map fun l =>
      if l.pid = pid then { l with transport := f l.transport } else l }

def takeEffect (w : Processes) : Process.Effect → Processes
  | .line text => { w with lines := w.lines ++ [text] }
  | .exited exit => { w with exits := w.exits ++ [exit] }
  | .dropConnection pid => w.onLink pid Stream.Transport.close
  | effect => { w with system := w.system.obey effect }

/-- Takes over what has become of the manager. -/
def follow (w : Processes) (r : Process.Manager × List Process.Effect) : Processes :=
  r.2.foldl takeEffect { w with manager := r.1 }

/-- Tells the manager what has become of a process. -/
def takeEvent (w : Processes) : Host.Event → Processes
  | .output pid bytes => w.onLink pid (·.deliverAll bytes)
  | .errors pid bytes => w.follow (w.manager.errorOutput pid bytes)
  | .exited exit => { w with manager := w.manager.observeExit exit }
  | .closed pid => (w.onLink pid (·.deliverEnd)).follow (w.manager.errorEnd pid)

/-- Moves bytes between a connection and its process. -/
def linkStep? (w : Processes) (l : Link) : Option Processes :=
  match l.transport.writeStep? with
  | some t => some (w.onLink l.pid fun _ => t)
  | none =>
    (w.system.exchange? l.pid l.transport).map fun (system, t) =>
      { w with system }.onLink l.pid fun _ => t

def systemStep? (w : Processes) : Option Processes :=
  (w.system.step? w.now).map fun (system, events) => events.foldl takeEvent { w with system }

def managerStep? (w : Processes) : Option Processes :=
  match w.manager.tellExit? with
  | some (manager, exit) => some (w.follow (manager, [.exited exit]))
  | none =>
    match w.manager.stopStep? with
    | some r => some { w.follow r with graceEnd := none }
    | none =>
      if w.graceEnd.any (· ≤ w.now) then some { w.follow w.manager.graceOver with graceEnd := none }
      else none

def react (w : Processes) : Option Processes :=
  (w.links.findSome? w.linkStep?).or (w.systemStep?.or w.managerStep?)

def timeline : Timeline Processes Unit where
  now w := w.now
  moveTo time w := { w with now := time }
  react w := w.react.map (·, [])
  wake w := Timeline.soonest (w.system.wakes ++ w.graceEnd.toList)

def forever : Nat := 1000000 * 1000000000

def await (w : Processes) (done : Processes → Bool) (fuel : Nat) : Processes :=
  (timeline.await done (w.now + forever) fuel w).1

def start (w : Processes) : Processes × Except Process.Error Unit :=
  let (system, spawned) := w.system.run w.manager.program
  match w.manager.start spawned with
  | .error e => (w, .error e)
  | .ok r =>
    let w := { w with system }.follow r
    ({ w with links := w.links ++ spawned.toOption.toList.map (⟨·, .fresh⟩) }, .ok ())

/-- Stops the child, and waits until that is done. -/
def stop (w : Processes) (mode : Process.StopMode) (fuel : Nat) :
    Processes × Except Process.Error Unit :=
  match w.manager.requestStop mode with
  | .error e => (w, .error e)
  | .ok r =>
    let w := w.follow r
    if w.manager.stopping.isSome then
      let w := { w with graceEnd := some (w.now + w.manager.grace.nanos) }
      (w.await (fun w => w.manager.stopping.isNone) fuel, .ok ())
    else (w, .ok ())

def takeConnection (w : Processes) : Processes × Except Process.Error Unit :=
  match w.manager.takeConnection with
  | .error e => (w, .error e)
  | .ok (manager, pid) => ({ w with manager, taken := some pid }, .ok ())

def connection? (w : Processes) : Option Link :=
  w.taken.bind fun pid => w.links.find? (·.pid == pid)

/-- Takes the next piece from a process, waiting as long as it takes. -/
def receive (w : Processes) (pid fuel : Nat) : Processes × Stream.Transport.Received :=
  let received (w : Processes) : Stream.Transport.Received × Stream.Transport :=
    match w.links.find? (·.pid == pid) with
    | some l => l.transport.receive
    | none => (.failed .disconnected, .fresh)
  let decided (w : Processes) : Bool :=
    match (received w).1 with
    | .waiting => false
    | _ => true
  let w := if decided w then w else w.await decided fuel
  let (r, t) := received w
  (w.onLink pid fun _ => t, r)

/-- Takes up to so many lines of the errors, waiting for them as long as there may be more. -/
def takeLines (w : Processes) (count : Option Nat) (fuel : Nat) : Processes × List String :=
  let enough (w : Processes) : Bool := count.any (· ≤ w.lines.length) || !w.manager.forwards
  let w := w.await enough fuel
  let n := count.getD w.lines.length
  ({ w with lines := w.lines.drop n }, w.lines.take n)

def takeExit (w : Processes) (fuel : Nat) : Processes × Option Process.Exit :=
  let w := w.await (fun w => !w.exits.isEmpty) fuel
  ({ w with exits := w.exits.drop 1 }, w.exits.head?)

end Processes
end EditorBridge.Rehearsal
