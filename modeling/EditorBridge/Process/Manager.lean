import EditorBridge.Duration
import EditorBridge.Keyed
import EditorBridge.Path.Basic
import EditorBridge.Process.ErrorLines
/-!
A manager of one child process at a time. Every started child has a task that waits for its exit,
and the first one that starts without a monitor gets a monitor of its standard error. The status
belongs to whoever wrote it last: the manager when it starts or stops a child, and the waiting task
of any child when that child has exited. Each function here is one step that nothing interrupts.
-/
namespace EditorBridge.Process

inductive StopMode where
  /-- It is asked to terminate, and killed when it has not exited within the grace period. -/
  | graceful
  | force
deriving DecidableEq, Repr

inductive Signal where
  | terminate
  | kill
deriving DecidableEq, Repr

/-- The status of a child as the manager holds it. -/
inductive Status where
  | notStarted
  | running (pid : Nat)
  | stopped
deriving DecidableEq, Repr

/-- The child that runs, by its number. -/
def Status.pid? : Status → Option Nat
  | .running pid => some pid
  | _ => none

/-- How an operation on a child can fail. -/
inductive Error where
  | spawn (command : Path) (reason : String)
  | notStarted
  | alreadyStarted
deriving DecidableEq, Repr

def Error.message : Error → String
  | .spawn command reason => "Failed to spawn " ++ command.display ++ ": " ++ reason
  | .notStarted => "Process not started"
  | .alreadyStarted => "Process already started"

/-- A task that reads the standard error of a child. -/
structure Monitor where
  pid : Nat
  /-- Do the lines reach the handler? -/
  forwards : Bool
  lines : ErrorLines
deriving Repr

/-- A child whose exit is waited for, and whether a stop that waits knows of the exit. -/
structure Awaited where
  pid : Nat
  exited : Bool
deriving DecidableEq, Repr

/-- The end of a child: its exit code, unless a signal ended it. -/
structure Exit where
  pid : Nat
  code : Option Int
deriving DecidableEq, Repr

/-- What is run, and in which surroundings. The variables stand beside those that are inherited. -/
structure Program where
  command : Path
  args : List String
  cwd : Option Path
  env : Keyed String
deriving Repr

/-- How long a child that was asked to terminate may take, unless something else was set. -/
def standardGrace : Duration := .ofSecs 5

/-- A manager, the tasks that it has started, and what they have not done yet. -/
structure Manager where
  program : Program
  grace : Duration
  status : Status
  /-- The child whose connection has not been taken. -/
  connection : Option Nat
  /-- Is there a handler of lines that no monitor has yet? -/
  handlerWaits : Bool
  /-- The child whose monitor the manager holds. -/
  monitored : Option Nat
  monitors : List Monitor
  latest : Option Awaited
  /-- Exits that were seen and are not yet told to the handler. -/
  untold : List Exit
  /-- The child that was asked to terminate and has not exited. -/
  stopping : Option Nat
deriving Repr

/-- What a step asks of the system or tells to those outside. -/
inductive Effect where
  | signal (pid : Nat) (signal : Signal)
  | dropConnection (pid : Nat)
  | closeErrors (pid : Nat)
  | line (text : String)
  | exited (exit : Exit)
deriving Repr

namespace Manager

/-- A manager that has started nothing; `handler` tells whether somebody hears the lines. -/
def create (program : Program) (grace : Duration) (handler : Bool) : Manager :=
  ⟨program, grace, .notStarted, none, handler, none, [], none, [], none⟩

/-- Does the status say that a child runs? -/
def isRunning (m : Manager) : Bool := m.status.pid?.isSome

/-- Gives a child a monitor, unless the manager still holds the monitor of another. -/
def monitor (m : Manager) (pid : Nat) : Manager × List Effect :=
  match m.monitored with
  | some _ => (m, [.closeErrors pid])
  | none =>
    ({ m with
        monitored := some pid, handlerWaits := false
        monitors := m.monitors ++ [⟨pid, m.handlerWaits, .empty⟩] }, [])

/-- Closes the connection to the child, unless it was taken. -/
def dropConnection (m : Manager) : Manager × List Effect :=
  ({ m with connection := none }, (m.connection.map Effect.dropConnection).toList)

/-- Starts a child; `spawned` is what the system makes of it. -/
def start (m : Manager) (spawned : Except String Nat) : Except Error (Manager × List Effect) :=
  if m.isRunning then .error .alreadyStarted
  else
    match spawned with
    | .error reason => .error (.spawn m.program.command reason)
    | .ok pid =>
      let (m, dropped) := m.dropConnection
      let m := { m with
        status := .running pid, connection := some pid, latest := some ⟨pid, false⟩ }
      let (m, closed) := m.monitor pid
      .ok (m, dropped ++ closed)

/-- Hands the connection on; it can be taken once for each child. -/
def takeConnection (m : Manager) : Except Error (Manager × Nat) :=
  match m.connection with
  | some pid => .ok ({ m with connection := none }, pid)
  | none => .error .notStarted

/-- Stops the monitor that the manager holds, and with it nobody reads what the child writes. -/
def dropMonitor (m : Manager) : Manager × List Effect :=
  match m.monitored with
  | none => (m, [])
  | some pid =>
    ({ m with monitored := none, monitors := m.monitors.filter (·.pid != pid) },
      if m.monitors.any (·.pid == pid) then [.closeErrors pid] else [])

/-- The stop is over: the child counts as stopped, though its exit need not have been seen. -/
def finishStop (m : Manager) : Manager × List Effect :=
  let (m, effects) := m.dropMonitor
  ({ m with status := .stopped, stopping := none }, effects)

/-- From now on the exit of a child is waited for, which was asked to terminate. -/
def awaitExit (m : Manager) (pid : Nat) : Manager := { m with stopping := some pid }

/-- Begins to stop the child. With force, that is all there is to do. -/
def requestStop (m : Manager) (mode : StopMode) : Except Error (Manager × List Effect) :=
  match m.status.pid? with
  | none => .error .notStarted
  | some pid =>
    let (m, dropped) := m.dropConnection
    match mode with
    | .graceful => .ok (m.awaitExit pid, dropped ++ [.signal pid .terminate])
    | .force =>
      let (m, closed) := m.finishStop
      .ok (m, dropped ++ .signal pid .kill :: closed)

/-- Is a stop told that the latest child has exited? Without any child there is nothing to wait for.
-/
def exitSeen (m : Manager) : Bool := m.latest.all (·.exited)

/-- A stop that waits ends when it is told of the exit. -/
def stopStep? (m : Manager) : Option (Manager × List Effect) :=
  match m.stopping with
  | none => none
  | some _ => if m.exitSeen then some m.finishStop else none

/-- The grace period is over, and a stop that still waits kills the child. -/
def graceOver (m : Manager) : Manager × List Effect :=
  match m.stopping with
  | none => (m, [])
  | some pid =>
    let (m, closed) := m.finishStop
    (m, .signal pid .kill :: closed)

/-- The child was killed and counts as stopped; a stop that waits goes on. -/
def finishKill (m : Manager) : Manager × List Effect :=
  let (m, effects) := m.dropMonitor
  ({ m with status := .stopped }, effects)

/-- Kills the child at once, without waiting for its exit. -/
def kill (m : Manager) : Manager × List Effect :=
  match m.status.pid? with
  | none => (m, [])
  | some pid =>
    let (m, closed) := m.finishKill
    (m, .signal pid .kill :: closed)

/-- Writes that the child has stopped, whichever child the status belongs to. -/
def recordExit (m : Manager) : Manager := { m with status := .stopped }

/-- Tells a stop that waits for this child that it has exited. -/
def flagExit (m : Manager) (pid : Nat) : Manager :=
  { m with latest := m.latest.map fun l => if l.pid = pid then { l with exited := true } else l }

/-- The task that waits for a child sees its exit. -/
def observeExit (m : Manager) (exit : Exit) : Manager :=
  let m := m.recordExit.flagExit exit.pid
  { m with untold := m.untold ++ [exit] }

/-- Tells the handler the oldest exit that it does not know. -/
def tellExit? (m : Manager) : Option (Manager × Exit) :=
  match m.untold with
  | [] => none
  | exit :: rest => some ({ m with untold := rest }, exit)

/-- Changes the monitor of a child; a monitor that has stopped reading goes. -/
def onMonitor (m : Manager) (pid : Nat) (f : ErrorLines → ErrorLines × List String) :
    Manager × List Effect :=
  match m.monitors.find? (·.pid == pid) with
  | none => (m, [])
  | some monitor =>
    let (lines, texts) := f monitor.lines
    let effects := if monitor.forwards then texts.map Effect.line else []
    if lines.reading then
      ({ m with monitors := m.monitors.map fun o => if o.pid = pid then { o with lines } else o },
        effects)
    else
      ({ m with monitors := m.monitors.filter (·.pid != pid) }, effects ++ [.closeErrors pid])

/-- A child has written to its standard error. -/
def errorOutput (m : Manager) (pid : Nat) (bytes : List UInt8) : Manager × List Effect :=
  m.onMonitor pid (·.feed bytes)

/-- A child has closed its standard error. -/
def errorEnd (m : Manager) (pid : Nat) : Manager × List Effect := m.onMonitor pid (·.finish)

/-- Does somebody hear the lines, now or with the next monitor? -/
def forwards (m : Manager) : Bool := m.monitors.any (·.forwards) || m.handlerWaits

end Manager
end EditorBridge.Process
