import EditorBridge.Process.Manager
/-!
A process manager over several generations of children. The task that waits for a child writes the
status when its own child exits, whichever child the status belongs to by then. So the status is
that of the latest child until an exit of an earlier one is seen; from then on the manager takes the
latest child for stopped, and while it lives it can be neither stopped nor killed any more.
-/
namespace EditorBridge.Process

/-- The child that was started last. -/
structure Generation where
  pid : Nat
  /-- Was its exit seen? -/
  exited : Bool
  /-- Was it stopped or killed? -/
  ended : Bool
  /-- Was the exit of an earlier child seen since it started? -/
  disturbed : Bool
deriving DecidableEq, Repr

namespace Generation

def fresh (pid : Nat) : Generation := ⟨pid, false, false, false⟩

def live (g : Generation) : Bool := !g.exited && !g.ended

def finish (g : Generation) : Generation := { g with ended := true }

/-- The exit of a child is seen, this one or an earlier one. -/
def see (g : Generation) (pid : Nat) : Generation :=
  if g.pid = pid then { g with exited := true } else { g with disturbed := true }

end Generation

/-- A manager with the children that it has started and whose exit was not seen. -/
structure Lineage where
  manager : Manager
  children : List Nat
  latest : Option Generation

/-- What can happen to a manager and its children. -/
inductive Event where
  | start (spawned : Except String Nat)
  | stop (mode : StopMode)
  /-- A stop under way goes on, for the exit was seen, -/
  | stopStep
  /-- or for the time is over. -/
  | graceOver
  | kill
  /-- The task that waits for a child sees its exit. -/
  | exit (exit : Exit)
  | tellExit
  | takeConnection
  | errorOutput (pid : Nat) (bytes : List UInt8)
  | errorEnd (pid : Nat)

namespace Lineage

def create (program : Program) (grace : Duration) (handler : Bool) : Lineage :=
  ⟨.create program grace handler, [], none⟩

/-- Is no stop under way? -/
def atRest (l : Lineage) : Bool := l.manager.stopping.isNone

def onManager (l : Lineage) (manager : Manager) : Lineage := { l with manager }

/-- The latest child is stopped or killed. -/
def finish (l : Lineage) (manager : Manager) : Lineage :=
  { l with manager, latest := l.latest.map Generation.finish }

def see (l : Lineage) (exit : Exit) : Lineage where
  manager := l.manager.observeExit exit
  children := l.children.erase exit.pid
  latest := l.latest.map (·.see exit.pid)

/-- What becomes of a manager and its children; none when the event cannot happen now. An operation
has the manager for itself, so none begins while a stop is under way, and the system gives a new
child no number that a child has whose exit was not seen. -/
def next? (l : Lineage) : Event → Option Lineage
  | .start spawned =>
    if l.atRest then
      match spawned with
      | .error _ => some l
      | .ok pid =>
        if pid ∈ l.children then none
        else
          match l.manager.start (.ok pid) with
          | .error _ => some l
          | .ok (m, _) => some ⟨m, pid :: l.children, some (.fresh pid)⟩
    else none
  | .stop mode =>
    if l.atRest then
      match l.manager.requestStop mode with
      | .error _ => some l
      | .ok (m, _) =>
        match mode with
        | .graceful => some (l.onManager m)
        | .force => some (l.finish m)
    else none
  | .stopStep => l.manager.stopStep?.map fun (m, _) => l.finish m
  | .graceOver =>
    if l.atRest || l.manager.exitSeen then none else some (l.finish l.manager.graceOver.1)
  | .kill =>
    if l.atRest then
      if l.manager.isRunning then some (l.finish l.manager.kill.1) else some l
    else none
  | .exit exit => if exit.pid ∈ l.children then some (l.see exit) else none
  | .tellExit => l.manager.tellExit?.map fun (m, _) => l.onManager m
  | .takeConnection => l.manager.takeConnection.toOption.map fun (m, _) => l.onManager m
  | .errorOutput pid bytes => some (l.onManager (l.manager.errorOutput pid bytes).1)
  | .errorEnd pid => some (l.onManager (l.manager.errorEnd pid).1)

end Lineage

/-- A step of a run. -/
structure Step where
  before : Lineage
  event : Event
  after : Lineage

/-- What comes of given events one after the other, if each of them can happen. -/
def Lineage.follow? (l : Lineage) : List Event → Option (List Step × Lineage)
  | [] => some ([], l)
  | event :: rest =>
    match l.next? event with
    | none => none
    | some m => (follow? m rest).map fun (trace, n) => (⟨l, event, m⟩ :: trace, n)

/-- The steps of a manager and its children one after the other. -/
inductive Run (l : Lineage) : List Step → Lineage → Prop where
  | start : Run l [] l
  | step {trace : List Step} {m n : Lineage} {event : Event} (prior : Run l trace m)
      (last : m.next? event = some n) : Run l (trace ++ [⟨m, event, n⟩]) n

theorem Run.trans {l m n : Lineage} {first second : List Step} (hFirst : Run l first m)
    (hSecond : Run m second n) : Run l (first ++ second) n := by
  induction hSecond with
  | start => simpa using hFirst
  | step prior last ih => rw [← List.append_assoc]; exact .step ih last

theorem Lineage.run_of_follow? {l m : Lineage} {events : List Event} {trace : List Step}
    (h : l.follow? events = some (trace, m)) : Run l trace m := by
  induction events generalizing l trace with
  | nil =>
    cases h
    exact .start
  | cons event rest ih =>
    unfold follow? at h
    split at h
    · cases h
    · rename_i n hStep
      obtain ⟨⟨more, o⟩, hRest, hEnd⟩ := Option.map_eq_some_iff.mp h
      cases hEnd
      exact Run.trans (.step .start hStep) (ih hRest)

namespace Manager

variable {m : Manager}

theorem monitor_status (m : Manager) (pid : Nat) :
    (m.monitor pid).1.status = m.status ∧ (m.monitor pid).1.stopping = m.stopping := by
  unfold monitor
  cases m.monitored <;> exact ⟨rfl, rfl⟩

theorem dropMonitor_status (m : Manager) :
    m.dropMonitor.1.status = m.status ∧ m.dropMonitor.1.stopping = m.stopping := by
  unfold dropMonitor
  cases m.monitored <;> exact ⟨rfl, rfl⟩

theorem onMonitor_status (m : Manager) (pid : Nat) (f : ErrorLines → ErrorLines × List String) :
    (m.onMonitor pid f).1.status = m.status ∧ (m.onMonitor pid f).1.stopping = m.stopping := by
  unfold onMonitor
  cases m.monitors.find? (·.pid == pid) with
  | none => exact ⟨rfl, rfl⟩
  | some monitor =>
    simp only
    split <;> exact ⟨rfl, rfl⟩

theorem isRunning_iff : m.isRunning = true ↔ ∃ pid, m.status = .running pid := by
  unfold isRunning
  cases m.status <;> simp [Status.pid?]

/-- A manager that takes no child for running starts one. -/
theorem start_eq_ok (h : m.isRunning = false) (pid : Nat) :
    ∃ n effects, m.start (.ok pid) = .ok (n, effects) ∧ n.status = .running pid ∧
      n.stopping = m.stopping := by
  simp only [start, h, Bool.false_eq_true, if_false]
  exact ⟨_, _, rfl, (monitor_status ..).1, (monitor_status ..).2⟩

theorem start_eq_error (h : m.isRunning = true) (spawned : Except String Nat) :
    m.start spawned = .error .alreadyStarted := by
  simp only [start, h, if_true]

theorem requestStop_eq_error (h : m.isRunning = false) (mode : StopMode) :
    m.requestStop mode = .error .notStarted := by
  unfold isRunning at h
  unfold requestStop
  cases hStatus : m.status <;> simp_all [Status.pid?]

/-- The signal with which a child is stopped. -/
def signalOf : StopMode → Signal
  | .graceful => .terminate
  | .force => .kill

/-- A running child is signalled. With force that is all, else the stop is then under way. -/
theorem requestStop_of_running {pid : Nat} (h : m.status = .running pid) (mode : StopMode) :
    ∃ n effects, m.requestStop mode = .ok (n, effects) ∧
      Effect.signal pid (signalOf mode) ∈ effects ∧
      match mode with
      | .graceful => n.status = m.status ∧ n.stopping = some pid
      | .force => n.status = .stopped ∧ n.stopping = none := by
  cases mode with
  | graceful =>
    simp only [requestStop, h, Status.pid?]
    exact ⟨_, _, rfl, by simp [signalOf], h, rfl⟩
  | force =>
    simp only [requestStop, h, Status.pid?]
    exact ⟨_, _, rfl, by simp [signalOf], rfl, rfl⟩

theorem kill_of_running {pid : Nat} (h : m.status = .running pid) :
    m.kill.1.status = .stopped ∧ m.kill.1.stopping = m.stopping ∧
      Effect.signal pid .kill ∈ m.kill.2 := by
  simp only [kill, h, Status.pid?]
  exact ⟨rfl, (dropMonitor_status m).2, List.mem_cons_self⟩

theorem kill_of_not_running (h : m.isRunning = false) : m.kill = (m, []) := by
  unfold isRunning at h
  unfold kill
  cases hStatus : m.status <;> simp_all [Status.pid?]

theorem graceOver_status {pid : Nat} (h : m.stopping = some pid) :
    m.graceOver.1.status = .stopped ∧ m.graceOver.1.stopping = none := by
  simp only [graceOver, h]
  exact ⟨rfl, rfl⟩

end Manager

namespace Lineage

variable {l m : Lineage} {event : Event}

/-- What a step can do. -/
inductive Turn (l : Lineage) : Event → Lineage → Prop where
  /-- Nothing to the status of the child, -/
  | aside {event : Event} {n : Manager} (hStatus : n.status = l.manager.status)
      (hStopping : n.stopping = l.manager.stopping) : Turn l event (l.onManager n)
  /-- a new child, -/
  | started {event : Event} {n : Manager} {pid : Nat} (hNew : pid ∉ l.children)
      (hStatus : n.status = .running pid) (hStopping : n.stopping = none) :
      Turn l event ⟨n, pid :: l.children, some (.fresh pid)⟩
  /-- the begin of a stop, -/
  | stopping {event : Event} {n : Manager} {pid : Nat} (hRunning : l.manager.status = .running pid)
      (hStatus : n.status = l.manager.status) (hStopping : n.stopping = some pid) :
      Turn l event (l.onManager n)
  /-- the end of a stop or a kill, -/
  | ended {event : Event} {n : Manager}
      (hWas : l.manager.isRunning = true ∨ l.manager.stopping.isSome = true)
      (hStatus : n.status = .stopped) (hStopping : n.stopping = none) :
      Turn l event (l.finish n)
  /-- or the exit of a child. -/
  | exited {exit : Exit} (hChild : exit.pid ∈ l.children) : Turn l (.exit exit) (l.see exit)

theorem Turn.same : Turn l event l := .aside rfl rfl

theorem turn_of_start {spawned : Except String Nat} (h : l.next? (.start spawned) = some m) : Turn l (.start spawned) m := by
  simp only [next?] at h
  split at h
  · rename_i hRest
    cases spawned with
    | error reason =>
      obtain rfl := Option.some.inj h
      exact .same
    | ok pid =>
      simp only at h
      split at h
      · cases h
      · rename_i hNew
        cases hRunning : l.manager.isRunning with
        | true =>
          rw [Manager.start_eq_error hRunning] at h
          obtain rfl := Option.some.inj h
          exact .same
        | false =>
          obtain ⟨n, effects, hStart, hStatus, hStopping⟩ := Manager.start_eq_ok hRunning pid
          rw [hStart] at h
          obtain rfl := Option.some.inj h
          exact .started hNew hStatus (hStopping.trans (Option.isNone_iff_eq_none.mp hRest))
  · cases h

theorem turn_of_stop {mode : StopMode} (h : l.next? (.stop mode) = some m) : Turn l (.stop mode) m := by
  simp only [next?] at h
  split at h
  · cases hRunning : l.manager.isRunning with
    | false =>
      rw [Manager.requestStop_eq_error hRunning] at h
      obtain rfl := Option.some.inj h
      exact .same
    | true =>
      obtain ⟨pid, hPid⟩ := Manager.isRunning_iff.mp hRunning
      obtain ⟨n, effects, hStop, -, hAfter⟩ := Manager.requestStop_of_running hPid mode
      rw [hStop] at h
      cases mode with
      | graceful =>
        obtain rfl := Option.some.inj h
        exact .stopping hPid hAfter.1 hAfter.2
      | force =>
        obtain rfl := Option.some.inj h
        exact .ended (.inl hRunning) hAfter.1 hAfter.2
  · cases h

theorem turn_of_stopStep (h : l.next? .stopStep = some m) : Turn l .stopStep m := by
  obtain ⟨⟨n, effects⟩, hStep, rfl⟩ := Option.map_eq_some_iff.mp h
  unfold Manager.stopStep? at hStep
  split at hStep
  · cases hStep
  · rename_i pid hPid
    split at hStep
    · obtain hFinish := Option.some.inj hStep
      obtain rfl : l.manager.finishStop.1 = n := congrArg Prod.fst hFinish
      exact .ended (.inr (by rw [hPid]; rfl)) rfl rfl
    · cases hStep

theorem turn_of_graceOver (h : l.next? .graceOver = some m) : Turn l .graceOver m := by
  obtain ⟨hGuard, hAfter⟩ := Option.ite_none_left_eq_some.mp h
  obtain rfl := Option.some.inj hAfter
  cases hStopping : l.manager.stopping with
  | none => simp [atRest, hStopping] at hGuard
  | some pid =>
    obtain ⟨hStatus, hNone⟩ := Manager.graceOver_status hStopping
    exact .ended (.inr (by rw [hStopping]; rfl)) hStatus hNone

theorem turn_of_kill (h : l.next? .kill = some m) : Turn l .kill m := by
  simp only [next?] at h
  split at h
  · rename_i hRest
    split at h
    · rename_i hRunning
      obtain ⟨pid, hPid⟩ := Manager.isRunning_iff.mp hRunning
      obtain ⟨hStatus, hStopping, -⟩ := Manager.kill_of_running hPid
      obtain rfl := Option.some.inj h
      exact .ended (.inl hRunning) hStatus
        (hStopping.trans (Option.isNone_iff_eq_none.mp hRest))
    · obtain rfl := Option.some.inj h
      exact .same
  · cases h

theorem turn_of_tellExit (h : l.next? .tellExit = some m) : Turn l .tellExit m := by
  obtain ⟨⟨n, exit⟩, hTell, rfl⟩ := Option.map_eq_some_iff.mp h
  unfold Manager.tellExit? at hTell
  split at hTell
  · cases hTell
  · cases hTell
    exact .aside rfl rfl

theorem turn_of_takeConnection (h : l.next? .takeConnection = some m) : Turn l .takeConnection m := by
  obtain ⟨⟨n, pid⟩, hTake, rfl⟩ := Option.map_eq_some_iff.mp h
  unfold Manager.takeConnection at hTake
  split at hTake
  · cases hTake
    exact .aside rfl rfl
  · cases hTake

theorem turn_of_next? (h : l.next? event = some m) : Turn l event m := by
  cases event with
  | start => exact turn_of_start h
  | stop => exact turn_of_stop h
  | stopStep => exact turn_of_stopStep h
  | graceOver => exact turn_of_graceOver h
  | kill => exact turn_of_kill h
  | exit exit =>
    simp only [next?] at h
    split at h
    · rename_i hChild
      obtain rfl := Option.some.inj h
      exact .exited hChild
    · cases h
  | tellExit => exact turn_of_tellExit h
  | takeConnection => exact turn_of_takeConnection h
  | errorOutput pid bytes =>
    obtain rfl := Option.some.inj h
    exact .aside (Manager.onMonitor_status ..).1 (Manager.onMonitor_status ..).2
  | errorEnd pid =>
    obtain rfl := Option.some.inj h
    exact .aside (Manager.onMonitor_status ..).1 (Manager.onMonitor_status ..).2

/-- The status that there is for the latest child: running until it is gone or an earlier one is
seen to be. -/
def statusOf : Option Generation → Status
  | none => .notStarted
  | some g => if g.live ∧ g.disturbed = false then .running g.pid else .stopped

structure Sound (l : Lineage) : Prop where
  status : l.manager.status = statusOf l.latest
  /-- What is being stopped is the latest child. -/
  stopping : l.manager.stopping.isSome = true → ∃ g ∈ l.latest, g.ended = false
  /-- Its exit is waited for until it is seen. -/
  waited : ∀ g ∈ l.latest, g.pid ∈ l.children ↔ g.exited = false
  children : l.children.Nodup
  childless : l.latest = none → l.children = []

theorem statusOf_running_iff {latest : Option Generation} {pid : Nat} :
    statusOf latest = .running pid ↔
      ∃ g ∈ latest, g.pid = pid ∧ g.live = true ∧ g.disturbed = false := by
  cases latest with
  | none => simp [statusOf]
  | some g =>
    by_cases hLive : g.live = true ∧ g.disturbed = false
    · simp [statusOf, hLive]
    · simp only [statusOf, hLive, if_false]
      simpa using fun _ => not_and.mp hLive

theorem sound_create (program : Program) (grace : Duration) (handler : Bool) :
    (create program grace handler).Sound where
  status := rfl
  stopping h := by cases h
  waited g h := by cases h
  children := List.nodup_nil
  childless _ := rfl

theorem Sound.turn (hSound : l.Sound) (hTurn : Turn l event m) : m.Sound := by
  cases hTurn with
  | aside hStatus hStopping =>
    refine ⟨hStatus.trans hSound.status, ?_, hSound.waited, hSound.children, hSound.childless⟩
    exact fun h => hSound.stopping (hStopping ▸ h)
  | started hNew hStatus hStopping =>
    refine ⟨hStatus, ?_, ?_, List.nodup_cons.mpr ⟨hNew, hSound.children⟩, ?_⟩
    · intro h
      simp only [hStopping] at h
      cases h
    · rintro g ⟨⟩
      simp [Generation.fresh]
    · intro h
      cases h
  | stopping hRunning hStatus hStopping =>
    refine ⟨hStatus.trans hSound.status, ?_, hSound.waited, hSound.children, hSound.childless⟩
    intro _
    obtain ⟨g, hLatest, -, hLive, -⟩ :=
      statusOf_running_iff.mp (hSound.status.symm.trans hRunning)
    refine ⟨g, hLatest, ?_⟩
    simp only [Generation.live, Bool.and_eq_true, Bool.not_eq_true'] at hLive
    exact hLive.2
  | ended hWas hStatus hStopping =>
    have hSome : ∃ g, l.latest = some g := by
      rcases hWas with hRunning | hStopping
      · obtain ⟨pid, hPid⟩ := Manager.isRunning_iff.mp hRunning
        obtain ⟨g, hLatest, -⟩ := statusOf_running_iff.mp (hSound.status.symm.trans hPid)
        exact ⟨g, hLatest⟩
      · obtain ⟨g, hLatest, -⟩ := hSound.stopping hStopping
        exact ⟨g, hLatest⟩
    obtain ⟨g, hLatest⟩ := hSome
    refine ⟨?_, ?_, ?_, hSound.children, ?_⟩
    · show _ = statusOf (l.latest.map Generation.finish)
      rw [hLatest]
      simpa [statusOf, finish, Generation.finish, Generation.live] using hStatus
    · intro h
      simp only [finish, hStopping] at h
      cases h
    · simp only [finish, hLatest]
      rintro _ ⟨⟩
      exact hSound.waited g hLatest
    · simp [finish, hLatest]
  | exited hChild =>
    rename_i exit
    cases hLatest : l.latest with
    | none =>
      rw [hSound.childless hLatest] at hChild
      cases hChild
    | some g =>
      have hWaited := hSound.waited g hLatest
      refine ⟨?_, ?_, ?_, hSound.children.erase _, ?_⟩
      · show Status.stopped = statusOf (l.latest.map _)
        rw [hLatest]
        by_cases hOwn : g.pid = exit.pid <;>
          simp [statusOf, Generation.see, Generation.live, hOwn]
      · intro h
        obtain ⟨g', hLatest', hEnded⟩ := hSound.stopping h
        refine ⟨g'.see exit.pid, Option.mem_map_of_mem _ hLatest', ?_⟩
        unfold Generation.see
        split <;> exact hEnded
      · simp only [see, hLatest]
        rintro _ ⟨⟩
        by_cases hOwn : g.pid = exit.pid
        · simp [Generation.see, hOwn, hSound.children.not_mem_erase]
        · simpa [Generation.see, hOwn, List.mem_erase_of_ne hOwn] using hWaited
      · simp [see, hLatest]

theorem Sound.run (hSound : l.Sound) {trace : List Step} (hRun : Run l trace m) : m.Sound := by
  induction hRun with
  | start => exact hSound
  | step prior last ih => exact ih.turn (turn_of_next? last)

/-- The status is running with a number exactly when this is the number of the latest child, whose
exit was not seen and which was not stopped or killed. -/
def Faithful (l : Lineage) : Prop :=
  ∀ pid, l.manager.status = .running pid ↔ ∃ g ∈ l.latest, g.pid = pid ∧ g.live = true

/-- A latest child that lives and whose status is lost is being stopped. -/
def Calm (l : Lineage) : Prop :=
  ∀ g ∈ l.latest, g.live = true → g.disturbed = true → l.atRest = false

theorem Sound.faithful_iff (hSound : l.Sound) :
    l.Faithful ↔ ∀ g ∈ l.latest, g.live = true → g.disturbed = false := by
  constructor
  · intro hFaithful g hLatest hLive
    have hRunning := (hFaithful g.pid).mpr ⟨g, hLatest, rfl, hLive⟩
    obtain ⟨g', hLatest', -, -, hDisturbed⟩ :=
      statusOf_running_iff.mp (hSound.status.symm.trans hRunning)
    obtain rfl := Option.mem_unique hLatest hLatest'
    exact hDisturbed
  · intro hUndisturbed pid
    rw [hSound.status, statusOf_running_iff]
    constructor
    · rintro ⟨g, hLatest, hPid, hLive, -⟩
      exact ⟨g, hLatest, hPid, hLive⟩
    · rintro ⟨g, hLatest, hPid, hLive⟩
      exact ⟨g, hLatest, hPid, hLive, hUndisturbed g hLatest hLive⟩

end Lineage

/-- Is this the exit of an earlier child, seen while the latest one lives and is not being
stopped? -/
def Step.lateExit (step : Step) : Bool :=
  match step.event with
  | .exit exit =>
    step.before.atRest && step.before.latest.any fun g => g.live && g.pid != exit.pid
  | _ => false

namespace Lineage

variable {l m : Lineage} {event : Event}

theorem Calm.turn (hCalm : l.Calm) (hTurn : Turn l event m)
    (hOther : Step.lateExit ⟨l, event, m⟩ = false) : m.Calm := by
  cases hTurn with
  | aside hStatus hStopping =>
    intro g hLatest hLive hDisturbed
    have hStopped := hCalm g hLatest hLive hDisturbed
    simpa [atRest, onManager, hStopping] using hStopped
  | started hNew hStatus hStopping =>
    rintro g ⟨⟩ hLive hDisturbed
    cases hDisturbed
  | stopping hRunning hStatus hStopping =>
    intro g hLatest hLive hDisturbed
    simp [atRest, onManager, hStopping]
  | ended hWas hStatus hStopping =>
    intro g hLatest hLive hDisturbed
    obtain ⟨g', -, rfl⟩ := Option.map_eq_some_iff.mp hLatest
    simp [Generation.live, Generation.finish] at hLive
  | exited hChild =>
    rename_i exit
    intro g hLatest hLive hDisturbed
    obtain ⟨g', hLatest', rfl⟩ := Option.map_eq_some_iff.mp hLatest
    by_cases hOwn : g'.pid = exit.pid
    · simp [Generation.see, Generation.live, hOwn] at hLive
    · -- The exit of another child while this one lives: a stop is under way.
      have hLives : g'.live = true := by simpa [Generation.see, hOwn, Generation.live] using hLive
      have hStopped : l.atRest = false := by
        simpa [Step.lateExit, hLatest', hLives, hOwn] using hOther
      exact hStopped

theorem Calm.run (hCalm : l.Calm) {trace : List Step} (hRun : Run l trace m)
    (hOther : ∀ step ∈ trace, step.lateExit = false) :
    m.Calm ∧ ∀ step ∈ trace, step.after.Calm := by
  induction hRun with
  | start => exact ⟨hCalm, by simp⟩
  | step prior last ih =>
    obtain ⟨hBefore, hAll⟩ := ih fun step hStep => hOther step (List.mem_append_left _ hStep)
    have hAfter := hBefore.turn (turn_of_next? last)
      (hOther _ (List.mem_append_right _ List.mem_cons_self))
    refine ⟨hAfter, fun step hStep => ?_⟩
    rcases List.mem_append.mp hStep with hOld | hNew
    · exact hAll step hOld
    · rw [List.mem_singleton.mp hNew]
      exact hAfter

/-- Every step of a run is one that can happen, and the status is known behind it. -/
theorem Sound.steps (hSound : l.Sound) {trace : List Step} (hRun : Run l trace m) :
    ∀ step ∈ trace, step.before.next? step.event = some step.after ∧ step.after.Sound := by
  induction hRun with
  | start => simp
  | step prior last ih =>
    intro step hStep
    rcases List.mem_append.mp hStep with hOld | hNew
    · exact ih step hOld
    · rw [List.mem_singleton.mp hNew]
      exact ⟨last, (hSound.run prior).turn (turn_of_next? last)⟩

/-- A late exit leaves a manager that takes the latest child, which lives, for stopped. -/
theorem unfaithful_of_lateExit {step : Step}
    (hStep : step.before.next? step.event = some step.after) (hSound : step.after.Sound)
    (hLate : step.lateExit = true) : step.after.atRest = true ∧ ¬step.after.Faithful := by
  obtain ⟨before, event, after⟩ := step
  cases event with
  | exit exit =>
    simp only [Step.lateExit, Bool.and_eq_true, Option.any_eq_true, bne_iff_ne, ne_eq] at hLate
    obtain ⟨hRest, g, hLatest, hLive, hOther⟩ := hLate
    simp only [next?] at hStep
    split at hStep
    · obtain rfl := Option.some.inj hStep
      refine ⟨hRest, fun hFaithful => ?_⟩
      have hSeen : g.see exit.pid = { g with disturbed := true } := if_neg hOther
      have hUndisturbed := hSound.faithful_iff.mp hFaithful (g.see exit.pid)
        (Option.mem_map_of_mem _ hLatest)
      rw [hSeen] at hUndisturbed
      cases hUndisturbed hLive
    · cases hStep
  | _ => cases hLate

end Lineage

open Lineage

/-- In every run the status says of the latest child, at all moments at which no stop is under way,
whether it runs, exactly if no exit of an earlier child is seen while it lives and is not being
stopped. At each moment the status is that of the latest child until such an exit; until then the
child can be stopped in either way, and behind it neither stopped nor killed. -/
theorem late_exits_harmless_iff {program : Program} {grace : Duration} {handler : Bool}
    {trace : List Step} {l : Lineage} (hRun : Run (.create program grace handler) trace l) :
    ((∀ step ∈ trace, step.after.atRest = true → step.after.Faithful) ↔
      ∀ step ∈ trace, step.lateExit = false) ∧
    l.manager.status = statusOf l.latest ∧
    ∀ g ∈ l.latest, g.live = true → ∀ mode,
      (g.disturbed = false → ∃ m effects, l.manager.requestStop mode = .ok (m, effects) ∧
        Effect.signal g.pid (Manager.signalOf mode) ∈ effects) ∧
      (g.disturbed = true → l.manager.requestStop mode = .error .notStarted ∧
        l.manager.kill = (l.manager, [])) := by
  have hCreated := sound_create program grace handler
  have hSound := hCreated.run hRun
  refine ⟨⟨fun hFaithful step hStep => ?_, fun hOther step hStep hRest => ?_⟩, hSound.status,
    fun g hLatest hLive mode => ⟨fun hUndisturbed => ?_, fun hDisturbed => ?_⟩⟩
  · rw [← Bool.not_eq_true]
    intro hLate
    obtain ⟨hNext, hAfter⟩ := hCreated.steps hRun step hStep
    obtain ⟨hRest, hUnfaithful⟩ := unfaithful_of_lateExit hNext hAfter hLate
    exact hUnfaithful (hFaithful step hStep hRest)
  · obtain ⟨-, hAfter⟩ := hCreated.steps hRun step hStep
    have hCalm := (Calm.run (l := .create program grace handler) (fun g h => by cases h) hRun
      hOther).2 step hStep
    refine hAfter.faithful_iff.mpr fun g hLatest hLive => ?_
    rw [← Bool.not_eq_true]
    intro hDisturbed
    rw [hCalm g hLatest hLive hDisturbed] at hRest
    cases hRest
  · have hRunning : l.manager.status = .running g.pid :=
      hSound.status.trans (statusOf_running_iff.mpr ⟨g, hLatest, rfl, hLive, hUndisturbed⟩)
    obtain ⟨m, effects, hStop, hSignal, -⟩ := Manager.requestStop_of_running hRunning mode
    exact ⟨m, effects, hStop, hSignal⟩
  · have hStopped : l.manager.isRunning = false := by
      rw [Manager.isRunning, hSound.status, hLatest]
      simp [statusOf, hDisturbed, Status.pid?]
    exact ⟨Manager.requestStop_eq_error hStopped mode, Manager.kill_of_not_running hStopped⟩

/-- A child is killed and another started, and then the exit of the first is seen. -/
def lateExit : Option (List Step × Lineage) :=
  (create ⟨.ofString "/server", [], none, []⟩ standardGrace true).follow?
    [.start (.ok 1), .stop .force, .start (.ok 2), .exit ⟨1, none⟩]

theorem lateExit_shown :
    lateExit.map (fun (trace, l) =>
      (trace.map (·.lateExit), l.atRest, l.latest, l.manager.status)) =
      some ([false, false, false, true], true, some ⟨2, false, false, true⟩, .stopped) := by
  decide +kernel

theorem lateExit_unfaithful :
    ∃ trace l, lateExit = some (trace, l) ∧
      ¬(∀ step ∈ trace, step.after.atRest = true → step.after.Faithful) ∧
      l.manager.requestStop .force = .error .notStarted := by
  obtain ⟨⟨trace, l⟩, hEval, hShown⟩ := Option.map_eq_some_iff.mp lateExit_shown
  simp only [Prod.mk.injEq] at hShown
  obtain ⟨hLate, -, hLatest, -⟩ := hShown
  obtain ⟨hIff, -, hStop⟩ := late_exits_harmless_iff (run_of_follow? hEval)
  refine ⟨trace, l, hEval, fun hFaithful => ?_, ?_⟩
  · have hNone := hIff.mp hFaithful
    have hTrue : true ∈ trace.map (·.lateExit) := by rw [hLate]; decide
    obtain ⟨step, hStep, hStepLate⟩ := List.mem_map.mp hTrue
    rw [hNone step hStep] at hStepLate
    cases hStepLate
  · exact ((hStop _ hLatest rfl .force).2 rfl).1

/-- The exit of a child that was killed can take a running child for stopped, and then it can not
be stopped any more. -/
theorem late_exit_stops_running_child :
    ¬ ∀ trace l, Run (create ⟨.ofString "/server", [], none, []⟩ standardGrace true) trace l →
      l.atRest = true → l.Faithful ∧
        ∀ g ∈ l.latest, g.live = true → (l.manager.requestStop .force).toBool = true := by
  intro hAlways
  obtain ⟨⟨trace, l⟩, hEval, hShown⟩ := Option.map_eq_some_iff.mp lateExit_shown
  simp only [Prod.mk.injEq] at hShown
  obtain ⟨-, hRest, hLatest, hStatus⟩ := hShown
  obtain ⟨hFaithful, -⟩ := hAlways trace l (run_of_follow? hEval) hRest
  have hRunning := (hFaithful 2).mpr ⟨_, hLatest, rfl, rfl⟩
  rw [hStatus] at hRunning
  cases hRunning

end EditorBridge.Process
