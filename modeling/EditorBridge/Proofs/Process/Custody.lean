import EditorBridge.Proofs.Process.Effects
/-!
A process manager whose operations are suspended wherever something may come between. A stop or a
kill reads the number of the child first and sends the signal then, and the task that waits for a
child writes the status first and tells a stop that waits for the exit then. An operation has the
manager for itself, but the tasks that wait for children do not ask for it: an exit can be recorded
at any moment. Without anything in between, the steps of an operation are those of `Manager`.
-/
namespace EditorBridge.Process

/-- What a manager is asked to do with its child. -/
inductive Order where
  | stop (mode : StopMode)
  | kill
deriving DecidableEq

namespace Order

/-- The signal that is sent first. -/
def signal : Order → Signal
  | .stop .graceful => .terminate
  | .stop .force | .kill => .kill

/-- What is done ahead of the signal. -/
def prepare : Order → Manager → Manager × List Effect
  | .stop _, m => m.dropConnection
  | .kill, m => (m, [])

/-- What is done at the end. -/
def finish : Order → Manager → Manager × List Effect
  | .stop _, m => m.finishStop
  | .kill, m => m.finishKill

end Order

/-- Where the operation stands that has the manager for itself. -/
inductive Stage where
  | idle
  /-- It has read the number of the child, and is about to send the signal. -/
  | aimed (order : Order) (pid : Nat)
  /-- The child was asked to terminate, and its exit is waited for. -/
  | awaiting (pid : Nat)
  /-- The exit was not told in time, and the child is about to be killed. -/
  | overdue (pid : Nat)
  | ending (order : Order)
deriving DecidableEq

structure Custody where
  manager : Manager
  stage : Stage
  /-- The children whose exit was not recorded. -/
  children : List Nat
  /-- The exits that are recorded and that a stop which waits for them is not told of. -/
  recorded : List Exit

namespace Custody

/-- What can happen to a manager and its children. -/
inductive Move where
  | start (spawned : Except String Nat)
  | begin (order : Order)
  /-- The operation goes on to where something may next come between. -/
  | advance
  /-- A stop that waits is told of the exit. -/
  | notice
  /-- The grace period is over, and a stop that waits was not told of the exit. -/
  | timeUp
  /-- A stop is given up while it waits. -/
  | abandon
  /-- The task that waits for a child writes that it has stopped. -/
  | record (exit : Exit)
  /-- It tells a stop that may wait for the exit. -/
  | flag (exit : Exit)
  | tellExit
  | takeConnection
  | errorOutput (pid : Nat) (bytes : List UInt8)
  | errorEnd (pid : Nat)

def create (program : Program) (grace : Duration) (handler : Bool) : Custody :=
  ⟨.create program grace handler, .idle, [], []⟩

/-- The system gives a new child no number that a child has whose exit was not told. -/
def start? (x : Custody) : Except String Nat → Option (Custody × List Effect)
  | .error _ => some (x, [])
  | .ok pid =>
    if pid ∈ x.children ∨ pid ∈ x.recorded.map Exit.pid then none
    else
      match x.manager.start (.ok pid) with
      | .error _ => some (x, [])
      | .ok (manager, effects) =>
        some ({ x with manager, children := pid :: x.children }, effects)

def begin (x : Custody) (order : Order) : Custody × List Effect :=
  match x.manager.status.pid? with
  | none => (x, [])
  | some pid =>
    let (manager, effects) := order.prepare x.manager
    ({ x with manager, stage := .aimed order pid }, effects)

def advance? (x : Custody) : Option (Custody × List Effect) :=
  match x.stage with
  | .aimed (.stop .graceful) pid =>
    some ({ x with manager := x.manager.awaitExit pid, stage := .awaiting pid },
      [.signal pid .terminate])
  | .aimed order pid => some ({ x with stage := .ending order }, [.signal pid .kill])
  | .overdue pid => some ({ x with stage := .ending (.stop .graceful) }, [.signal pid .kill])
  | .ending order =>
    let (manager, effects) := order.finish x.manager
    some ({ x with manager, stage := .idle }, effects)
  | .idle | .awaiting _ => none

def awaiting? (x : Custody) : Option Nat :=
  match x.stage with
  | .awaiting pid => some pid
  | _ => none

def record (x : Custody) (exit : Exit) : Custody :=
  { x with
    manager := x.manager.recordExit
    children := x.children.erase exit.pid
    recorded := x.recorded ++ [exit] }

def flag (x : Custody) (exit : Exit) : Custody :=
  let manager := x.manager.flagExit exit.pid
  { x with
    manager := { manager with untold := manager.untold ++ [exit] }
    recorded := x.recorded.erase exit }

def onManager (x : Custody) (step : Manager × List Effect) : Custody × List Effect :=
  ({ x with manager := step.1 }, step.2)

/-- What becomes of a manager and its children, and what is done outside; none when the move cannot
happen now. -/
def next? (x : Custody) : Move → Option (Custody × List Effect)
  | .start spawned => if x.stage = .idle then x.start? spawned else none
  | .begin order => if x.stage = .idle then some (x.begin order) else none
  | .advance => x.advance?
  | .notice =>
    if x.awaiting?.isSome ∧ x.manager.exitSeen then
      some ({ x with stage := .ending (.stop .graceful) }, [])
    else none
  | .timeUp =>
    match x.awaiting? with
    | some pid => if x.manager.exitSeen then none else some ({ x with stage := .overdue pid }, [])
    | none => none
  | .abandon => if x.awaiting?.isSome then some ({ x with stage := .idle }, []) else none
  | .record exit => if exit.pid ∈ x.children then some (x.record exit, []) else none
  | .flag exit => if exit ∈ x.recorded then some (x.flag exit, []) else none
  | .tellExit => x.manager.tellExit?.map fun (m, exit) => x.onManager (m, [.exited exit])
  | .takeConnection => x.manager.takeConnection.toOption.map fun (m, _) => x.onManager (m, [])
  | .errorOutput pid bytes => some (x.onManager (x.manager.errorOutput pid bytes))
  | .errorEnd pid => some (x.onManager (x.manager.errorEnd pid))

/-- A move, with what there was before it and what came of it. -/
structure Stride where
  before : Custody
  move : Move
  after : Custody
  effects : List Effect

/-- The moves of a manager and its children one after the other. -/
inductive Run (x : Custody) : List Stride → Custody → Prop where
  | start : Run x [] x
  | step {trace : List Stride} {y z : Custody} {move : Move} {effects : List Effect}
      (prior : Run x trace y) (last : y.next? move = some (z, effects)) :
      Run x (trace ++ [⟨y, move, z, effects⟩]) z

/-- What comes of given moves one after the other, if each of them can happen. -/
def follow? (x : Custody) : List Move → Option (List Stride × Custody)
  | [] => some ([], x)
  | move :: rest =>
    match x.next? move with
    | none => none
    | some (y, effects) => (follow? y rest).map fun (trace, z) => (⟨x, move, y, effects⟩ :: trace, z)

variable {x y z : Custody} {trace earlier later : List Stride} {s : Stride} {move : Move}
  {effects : List Effect} {pid : Nat}

theorem Run.cons (hStep : x.next? move = some (y, effects)) (hRest : Run y trace z) :
    Run x (⟨x, move, y, effects⟩ :: trace) z := by
  induction hRest with
  | start => exact .step .start hStep
  | step prior last ih => exact .step ih last

theorem run_of_follow? {moves : List Move} (h : x.follow? moves = some (trace, y)) :
    Run x trace y := by
  induction moves generalizing x trace with
  | nil =>
    cases h
    exact .start
  | cons move rest ih =>
    unfold follow? at h
    split at h
    · cases h
    · rename_i z effects hStep
      obtain ⟨⟨more, w⟩, hRest, hEnd⟩ := Option.map_eq_some_iff.mp h
      cases hEnd
      exact .cons hStep (ih hRest)

/-- A stride of a run can be made where the moves before it have led. -/
theorem Run.cut (h : Run x trace y) (hTrace : trace = earlier ++ s :: later) :
    Run x earlier s.before ∧ s.before.next? s.move = some (s.after, s.effects) := by
  induction h generalizing later with
  | start => simp at hTrace
  | step prior last ih =>
    rcases List.eq_nil_or_concat later with rfl | ⟨front, t, rfl⟩
    · obtain ⟨rfl, hLast⟩ := List.append_inj' hTrace rfl
      obtain rfl := List.singleton_inj.mp hLast
      exact ⟨prior, last⟩
    · rw [List.concat_eq_append, ← List.cons_append, ← List.append_assoc] at hTrace
      exact ih (List.append_inj' hTrace rfl).1

/-- The moves that leave the status, the latest child and the operation alone. -/
def Move.isAside : Move → Bool
  | .start _ | .tellExit | .takeConnection | .errorOutput _ _ | .errorEnd _ => true
  | _ => false

/-- All that a step can be. -/
inductive Turn (x : Custody) : Move → Custody → List Effect → Prop where
  | aside {move : Move} {m : Manager} {effects : List Effect} (hAside : move.isAside = true)
      (hStarted : ∀ pid, move = .start (.ok pid) → x.manager.isRunning = true)
      (hStatus : m.status = x.manager.status) (hLatest : m.latest = x.manager.latest)
      (hSilent : effects.filterMap Effect.signal? = []) :
      Turn x move { x with manager := m } effects
  | started {pid : Nat} {m : Manager} {effects : List Effect} (hIdle : x.stage = .idle)
      (hNew : pid ∉ x.recorded.map Exit.pid) (hStopped : x.manager.isRunning = false)
      (hStatus : m.status = .running pid)
      (hLatest : m.latest = some ⟨pid, false⟩) (hSilent : effects.filterMap Effect.signal? = []) :
      Turn x (.start (.ok pid)) { x with manager := m, children := pid :: x.children } effects
  | refused {order : Order} (hIdle : x.stage = .idle) (hStopped : x.manager.isRunning = false) :
      Turn x (.begin order) x []
  | aimed {order : Order} {pid : Nat} {m : Manager} {effects : List Effect} (hIdle : x.stage = .idle)
      (hRunning : x.manager.status = .running pid) (hStatus : m.status = x.manager.status)
      (hLatest : m.latest = x.manager.latest) (hSilent : effects.filterMap Effect.signal? = []) :
      Turn x (.begin order) { x with manager := m, stage := .aimed order pid } effects
  | asked {pid : Nat} (hStage : x.stage = .aimed (.stop .graceful) pid) :
      Turn x .advance { x with manager := x.manager.awaitExit pid, stage := .awaiting pid }
        [.signal pid .terminate]
  | killed {order : Order} {pid : Nat} (hStage : x.stage = .aimed order pid)
      (hOther : order ≠ .stop .graceful) :
      Turn x .advance { x with stage := .ending order } [.signal pid .kill]
  | noticed {pid : Nat} (hStage : x.stage = .awaiting pid) (hSeen : x.manager.exitSeen = true) :
      Turn x .notice { x with stage := .ending (.stop .graceful) } []
  | timeUp {pid : Nat} (hStage : x.stage = .awaiting pid) (hUnseen : x.manager.exitSeen = false) :
      Turn x .timeUp { x with stage := .overdue pid } []
  | abandoned {pid : Nat} (hStage : x.stage = .awaiting pid) :
      Turn x .abandon { x with stage := .idle } []
  | overdue {pid : Nat} (hStage : x.stage = .overdue pid) :
      Turn x .advance { x with stage := .ending (.stop .graceful) } [.signal pid .kill]
  | ended {order : Order} {m : Manager} {effects : List Effect} (hStage : x.stage = .ending order)
      (hStatus : m.status = .stopped) (hLatest : m.latest = x.manager.latest)
      (hSilent : effects.filterMap Effect.signal? = []) :
      Turn x .advance { x with manager := m, stage := .idle } effects
  | recorded {exit : Exit} (hChild : exit.pid ∈ x.children) : Turn x (.record exit) (x.record exit) []
  | flagged {exit : Exit} (hRecorded : exit ∈ x.recorded) : Turn x (.flag exit) (x.flag exit) []

end Custody

namespace Manager

variable (m : Manager)

theorem monitor_latest (pid : Nat) : (m.monitor pid).1.latest = m.latest := by
  unfold monitor
  cases m.monitored <;> rfl

theorem dropMonitor_latest : m.dropMonitor.1.latest = m.latest := by
  unfold dropMonitor
  cases m.monitored <;> rfl

theorem onMonitor_latest (pid : Nat) (f : ErrorLines → ErrorLines × List String) :
    (m.onMonitor pid f).1.latest = m.latest := by
  obtain ⟨monitors, hSame⟩ := m.onMonitor_eq pid f
  rw [hSame]

/-- A monitor that reads hands on lines or closes what it reads; it signals nobody. -/
theorem onMonitor_signals (pid : Nat) (f : ErrorLines → ErrorLines × List String) :
    (m.onMonitor pid f).2.filterMap Effect.signal? = [] := by
  have hLines (forwards : Bool) (texts : List String) :
      (if forwards then texts.map Effect.line else []).filterMap Effect.signal? = [] := by
    cases forwards <;> simp [List.filterMap_map, Effect.signal?, Function.comp_def]
  unfold onMonitor
  split
  · rfl
  · simp only
    split
    · exact hLines _ _
    · rw [List.filterMap_append, hLines]
      rfl

/-- What an operation does ahead of its signal. -/
theorem prepare_frame (order : Order) : (order.prepare m).1.status = m.status ∧
    (order.prepare m).1.latest = m.latest ∧
      (order.prepare m).2.filterMap Effect.signal? = [] := by
  cases order with
  | stop mode => exact ⟨rfl, rfl, signals_of_closes m.dropConnection_closes⟩
  | kill => exact ⟨rfl, rfl, rfl⟩

/-- What an operation does at its end. -/
theorem finish_frame (order : Order) : (order.finish m).1.status = .stopped ∧
    (order.finish m).1.latest = m.latest ∧
      (order.finish m).2.filterMap Effect.signal? = [] := by
  cases order with
  | stop mode => exact ⟨rfl, m.dropMonitor_latest, signals_of_closes m.dropMonitor_closes⟩
  | kill => exact ⟨rfl, m.dropMonitor_latest, signals_of_closes m.dropMonitor_closes⟩

end Manager

namespace Custody

variable {x y : Custody} {move : Move} {effects : List Effect} {pid : Nat}

theorem start?_turn {spawned : Except String Nat} (hIdle : x.stage = .idle)
    (h : x.start? spawned = some (y, effects)) : Turn x (.start spawned) y effects := by
  cases spawned with
  | error reason =>
    cases h
    exact .aside rfl (fun _ hMove => by cases hMove) rfl rfl rfl
  | ok pid =>
    obtain ⟨hNew, hStart⟩ := Option.ite_none_left_eq_some.mp h
    cases hRunning : x.manager.isRunning with
    | true =>
      rw [Manager.start_eq_error hRunning] at hStart
      cases hStart
      exact .aside rfl (fun _ _ => hRunning) rfl rfl rfl
    | false =>
      rw [Manager.start_eq hRunning] at hStart
      cases hStart
      refine .started hIdle (not_or.mp hNew).2 hRunning (Manager.monitor_status _ _).1 ?_ ?_
      · rw [Manager.monitor_latest]
        rfl
      · rw [List.filterMap_append, signals_of_closes x.manager.dropConnection_closes,
          signals_of_closes (Manager.monitor_closes _ _)]
        rfl

theorem begin_turn (hIdle : x.stage = .idle) (order : Order) :
    Turn x (.begin order) (x.begin order).1 (x.begin order).2 := by
  unfold begin
  split
  · rename_i hNone
    exact .refused hIdle (by rw [Manager.isRunning, hNone]; rfl)
  · rename_i pid hPid
    obtain ⟨hStatus, hLatest, hSilent⟩ := x.manager.prepare_frame order
    refine .aimed hIdle ?_ hStatus hLatest hSilent
    cases hRunning : x.manager.status <;> rw [hRunning] at hPid <;> cases hPid
    rfl

theorem advance?_turn (h : x.advance? = some (y, effects)) : Turn x .advance y effects := by
  unfold advance? at h
  split at h
  · rename_i pid hStage
    cases h
    exact .asked hStage
  · rename_i order pid hOther hStage
    cases h
    exact .killed hStage hOther
  · rename_i pid hStage
    cases h
    exact .overdue hStage
  · rename_i order hStage
    obtain ⟨hStatus, hLatest, hSilent⟩ := x.manager.finish_frame order
    cases h
    exact .ended hStage hStatus hLatest hSilent
  · cases h
  · cases h

theorem awaiting?_eq (h : x.awaiting? = some pid) : x.stage = .awaiting pid := by
  unfold awaiting? at h
  split at h
  · rename_i hStage
    cases h
    exact hStage
  · cases h

/-- Every step is one of the turns. -/
theorem turn (h : x.next? move = some (y, effects)) : Turn x move y effects := by
  cases move with
  | start spawned =>
    obtain ⟨hIdle, hStart⟩ := Option.ite_none_right_eq_some.mp h
    exact start?_turn hIdle hStart
  | begin order =>
    obtain ⟨hIdle, hBegin⟩ := Option.ite_none_right_eq_some.mp h
    obtain ⟨rfl, rfl⟩ := Prod.mk.inj (Option.some.inj hBegin)
    exact begin_turn hIdle order
  | advance => exact advance?_turn h
  | notice =>
    obtain ⟨⟨hAwaits, hSeen⟩, hNotice⟩ := Option.ite_none_right_eq_some.mp h
    obtain ⟨pid, hAwaiting⟩ := Option.isSome_iff_exists.mp hAwaits
    cases hNotice
    exact .noticed (awaiting?_eq hAwaiting) hSeen
  | timeUp =>
    simp only [next?] at h
    split at h
    · rename_i pid hAwaiting
      obtain ⟨hUnseen, hTime⟩ := Option.ite_none_left_eq_some.mp h
      cases hTime
      exact .timeUp (awaiting?_eq hAwaiting) (Bool.eq_false_iff.mpr hUnseen)
    · cases h
  | abandon =>
    obtain ⟨hAwaits, hAbandon⟩ := Option.ite_none_right_eq_some.mp h
    obtain ⟨pid, hAwaiting⟩ := Option.isSome_iff_exists.mp hAwaits
    cases hAbandon
    exact .abandoned (awaiting?_eq hAwaiting)
  | record exit =>
    obtain ⟨hChild, hRecord⟩ := Option.ite_none_right_eq_some.mp h
    cases hRecord
    exact .recorded hChild
  | flag exit =>
    obtain ⟨hRecorded, hFlag⟩ := Option.ite_none_right_eq_some.mp h
    cases hFlag
    exact .flagged hRecorded
  | tellExit =>
    obtain ⟨⟨m, exit⟩, hTell, hEq⟩ := Option.map_eq_some_iff.mp h
    cases hEq
    unfold Manager.tellExit? at hTell
    split at hTell <;> cases hTell
    exact .aside rfl (fun _ hMove => by cases hMove) rfl rfl rfl
  | takeConnection =>
    obtain ⟨⟨m, pid⟩, hTake, hEq⟩ := Option.map_eq_some_iff.mp h
    cases hEq
    unfold Manager.takeConnection at hTake
    split at hTake <;> cases hTake
    exact .aside rfl (fun _ hMove => by cases hMove) rfl rfl rfl
  | errorOutput pid bytes =>
    cases h
    exact .aside rfl (fun _ hMove => by cases hMove) (Manager.onMonitor_status _ _ _).1
      (Manager.onMonitor_latest _ _ _) (Manager.onMonitor_signals _ _ _)
  | errorEnd pid =>
    cases h
    exact .aside rfl (fun _ hMove => by cases hMove) (Manager.onMonitor_status _ _ _).1
      (Manager.onMonitor_latest _ _ _) (Manager.onMonitor_signals _ _ _)

/-- With nothing in between, a stop is that of the manager, -/
theorem stop_uninterrupted (hIdle : x.stage = .idle) (hRunning : x.manager.status = .running pid) :
    (∃ trace m, x.manager.requestStop .graceful = .ok (m, trace.flatMap Stride.effects) ∧
      x.follow? [.begin (.stop .graceful), .advance] =
        some (trace, { x with manager := m, stage := .awaiting pid })) ∧
    ∃ trace m, x.manager.requestStop .force = .ok (m, trace.flatMap Stride.effects) ∧
      x.follow? [.begin (.stop .force), .advance, .advance] =
        some (trace, { x with manager := m, stage := .idle }) := by
  have hPid : x.manager.status.pid? = some pid := by rw [hRunning]; rfl
  constructor
  · rw [Manager.requestStop_graceful hRunning]
    simp only [follow?, next?, hIdle, if_true, begin, hPid, advance?, Option.map_some]
    refine ⟨_, _, ?_, rfl⟩
    simp only [Order.prepare, List.flatMap_cons, List.flatMap_nil, List.append_nil]
    rfl
  · rw [Manager.requestStop_force hRunning]
    simp only [follow?, next?, hIdle, if_true, begin, hPid, advance?, Option.map_some]
    refine ⟨_, _, ?_, rfl⟩
    simp only [Order.prepare, List.flatMap_cons, List.flatMap_nil, List.append_nil]
    rfl

/-- the end of one that has waited for too long too, -/
theorem graceOver_uninterrupted (hStage : x.stage = .awaiting pid)
    (hStopping : x.manager.stopping = some pid) (hUnseen : x.manager.exitSeen = false) :
    ∃ trace, x.manager.graceOver.2 = trace.flatMap Stride.effects ∧
      x.follow? [.timeUp, .advance, .advance] =
        some (trace, { x with manager := x.manager.graceOver.1, stage := .idle }) := by
  have hAwaiting : x.awaiting? = some pid := by rw [awaiting?, hStage]
  rw [Manager.graceOver_eq hStopping]
  simp only [follow?, next?, hAwaiting, hUnseen, Bool.false_eq_true, if_false, advance?,
    Option.map_some]
  refine ⟨_, ?_, rfl⟩
  simp only [List.flatMap_cons, List.flatMap_nil, List.append_nil, List.nil_append]
  rfl

/-- and so is a kill; -/
theorem kill_uninterrupted (hIdle : x.stage = .idle) (hRunning : x.manager.status = .running pid) :
    ∃ trace, x.manager.kill.2 = trace.flatMap Stride.effects ∧
      x.follow? [.begin .kill, .advance, .advance] =
        some (trace, { x with manager := x.manager.kill.1, stage := .idle }) := by
  have hPid : x.manager.status.pid? = some pid := by rw [hRunning]; rfl
  rw [Manager.kill_eq hRunning]
  simp only [follow?, next?, hIdle, if_true, begin, hPid, advance?, Option.map_some]
  refine ⟨_, ?_, rfl⟩
  simp only [Order.prepare, List.flatMap_cons, List.flatMap_nil, List.append_nil, List.nil_append]
  rfl

/-- and the manager sees the exit of a child. -/
theorem exit_uninterrupted {exit : Exit} (hChild : exit.pid ∈ x.children) :
    ∃ trace y, x.follow? [.record exit, .flag exit] = some (trace, y) ∧
      y.manager = x.manager.observeExit exit := by
  have hRecorded : exit ∈ (x.record exit).recorded := by simp [record]
  simp only [follow?, next?, hChild, hRecorded, if_true, Option.map_some]
  exact ⟨_, _, rfl, rfl⟩

end Custody
end EditorBridge.Process
