import EditorBridge.Proofs.Process.Generations
import Mathlib.Data.List.Induction
/-!
What a process manager does to its children, step by step: the signals that it sends and the lines
that it hands on. `Does` lists all that a step can be, with what becomes of the manager and what is
done outside it. A trace tells which child was started last and what was seen of it since; this is
what the manager goes by.
-/
namespace EditorBridge.Process

/-- A signal that is sent, and the child that it is sent to. -/
def Effect.signal? : Effect → Option (Nat × Signal)
  | .signal pid sent => some (pid, sent)
  | _ => none

/-- A line that the handler of lines receives. -/
def Effect.line? : Effect → Option String
  | .line text => some text
  | _ => none

def Effect.closes : Effect → Bool
  | .dropConnection _ | .closeErrors _ => true
  | _ => false

/-- What an event does outside the manager, by the operation that next? takes for it. -/
def Lineage.effects (l : Lineage) : Event → List Effect
  | .start spawned =>
    match l.manager.start spawned with
    | .ok (_, effects) => effects
    | .error _ => []
  | .stop mode =>
    match l.manager.requestStop mode with
    | .ok (_, effects) => effects
    | .error _ => []
  | .stopStep =>
    match l.manager.stopStep? with
    | some (_, effects) => effects
    | none => []
  | .graceOver => l.manager.graceOver.2
  | .kill => l.manager.kill.2
  | .exit _ => []
  | .tellExit =>
    match l.manager.tellExit? with
    | some (_, exit) => [.exited exit]
    | none => []
  | .takeConnection => []
  | .errorOutput pid bytes => (l.manager.errorOutput pid bytes).2
  | .errorEnd pid => (l.manager.errorEnd pid).2

namespace Step

def effects (step : Step) : List Effect := step.before.effects step.event

def lines (step : Step) : List String := step.effects.filterMap Effect.line?

/-- The child that is started. -/
def started? (step : Step) : Option Nat :=
  match step.event with
  | .start (.ok pid) => if step.before.manager.isRunning then none else some pid
  | _ => none

/-- Does a stop or a kill come to its end? -/
def ends (step : Step) : Bool :=
  match step.event with
  | .stop .force | .kill => step.before.manager.isRunning
  | .stopStep | .graceOver => true
  | _ => false

/-- Is the exit of this child seen? -/
def sees (step : Step) (pid : Nat) : Bool :=
  match step.event with
  | .exit exit => exit.pid == pid
  | _ => false

end Step

namespace Manager

variable {m : Manager} {pid : Nat}

/-- A manager that has started a child and has not yet given it a monitor. -/
def launched (m : Manager) (pid : Nat) : Manager :=
  { m.dropConnection.1 with
    status := .running pid, connection := some pid, latest := some ⟨pid, false⟩ }

theorem start_eq (h : m.isRunning = false) (pid : Nat) :
    m.start (.ok pid) = .ok (((m.launched pid).monitor pid).1,
      m.dropConnection.2 ++ ((m.launched pid).monitor pid).2) := by
  simp only [start, h, Bool.false_eq_true, if_false]
  rfl

/-- A manager that has asked its child to terminate. -/
def asking (m : Manager) (pid : Nat) : Manager := { m.dropConnection.1 with stopping := some pid }

theorem requestStop_graceful (h : m.status = .running pid) :
    m.requestStop .graceful = .ok (m.asking pid, m.dropConnection.2 ++ [.signal pid .terminate]) := by
  simp only [requestStop, h, Status.pid?]
  rfl

theorem requestStop_force (h : m.status = .running pid) :
    m.requestStop .force = .ok (m.dropConnection.1.finishStop.1,
      m.dropConnection.2 ++ .signal pid .kill :: m.dropConnection.1.dropMonitor.2) := by
  simp only [requestStop, h, Status.pid?]
  rfl

theorem kill_eq (h : m.status = .running pid) :
    m.kill = ({ m.dropMonitor.1 with status := .stopped }, .signal pid .kill :: m.dropMonitor.2) := by
  simp only [kill, h, Status.pid?]
  rfl

theorem graceOver_eq (h : m.stopping = some pid) :
    m.graceOver = (m.finishStop.1, .signal pid .kill :: m.dropMonitor.2) := by
  simp only [graceOver, h]
  rfl

theorem dropConnection_closes (m : Manager) : ∀ effect ∈ m.dropConnection.2, effect.closes := by
  cases h : m.connection <;> simp [dropConnection, h, Effect.closes]

theorem dropMonitor_closes (m : Manager) : ∀ effect ∈ m.dropMonitor.2, effect.closes := by
  unfold dropMonitor
  split
  · simp
  · simp only
    split <;> simp [Effect.closes]

theorem monitor_closes (m : Manager) (pid : Nat) :
    ∀ effect ∈ (m.monitor pid).2, effect.closes := by
  unfold monitor
  split <;> simp [Effect.closes]

/-- When a monitor goes on, the manager changes nothing but its monitors. -/
theorem onMonitor_eq (m : Manager) (pid : Nat) (f : ErrorLines → ErrorLines × List String) :
    ∃ monitors, (m.onMonitor pid f).1 = { m with monitors } := by
  unfold onMonitor
  split
  · exact ⟨m.monitors, rfl⟩
  · simp only
    split
    · exact ⟨_, rfl⟩
    · exact ⟨_, rfl⟩

end Manager

/-- Closing something sends no signal and hands on no line. -/
theorem signals_of_closes {effects : List Effect} (h : ∀ effect ∈ effects, effect.closes) :
    effects.filterMap Effect.signal? = [] := by
  rw [List.filterMap_eq_nil_iff]
  intro effect hEffect
  have hCloses := h effect hEffect
  cases effect with
  | dropConnection | closeErrors => rfl
  | _ => cases hCloses

theorem lines_of_closes {effects : List Effect} (h : ∀ effect ∈ effects, effect.closes) :
    effects.filterMap Effect.line? = [] := by
  rw [List.filterMap_eq_nil_iff]
  intro effect hEffect
  have hCloses := h effect hEffect
  cases effect with
  | dropConnection | closeErrors => rfl
  | _ => cases hCloses

namespace Lineage

variable {l m : Lineage} {event : Event}

/-- All that a step can be: what has happened, what becomes of the manager and its children, and
what is done outside. -/
inductive Does (l : Lineage) : Event → Lineage → List Effect → Prop where
  | notStarted {spawned : Except String Nat}
      (h : l.manager.isRunning = true ∨ ∃ reason, spawned = .error reason) :
      Does l (.start spawned) l []
  | started {pid : Nat} (hRest : l.atRest = true) (hIdle : l.manager.isRunning = false)
      (hNew : pid ∉ l.children) :
      Does l (.start (.ok pid))
        ⟨((l.manager.launched pid).monitor pid).1, pid :: l.children, some (.fresh pid)⟩
        (l.manager.dropConnection.2 ++ ((l.manager.launched pid).monitor pid).2)
  | notStopped {mode : StopMode} (hIdle : l.manager.isRunning = false) : Does l (.stop mode) l []
  | asked {pid : Nat} (hRest : l.atRest = true) (hRunning : l.manager.status = .running pid) :
      Does l (.stop .graceful) (l.onManager (l.manager.asking pid))
        (l.manager.dropConnection.2 ++ [.signal pid .terminate])
  | forced {pid : Nat} (hRest : l.atRest = true) (hRunning : l.manager.status = .running pid) :
      Does l (.stop .force) (l.finish l.manager.dropConnection.1.finishStop.1)
        (l.manager.dropConnection.2 ++
          .signal pid .kill :: l.manager.dropConnection.1.dropMonitor.2)
  /-- The exit that a stop waits for was seen. -/
  | stopped (hStopping : l.atRest = false) (hSeen : l.manager.exitSeen = true) :
      Does l .stopStep (l.finish l.manager.finishStop.1) l.manager.dropMonitor.2
  /-- It was not seen within the grace period. -/
  | overdue {pid : Nat} (hStopping : l.manager.stopping = some pid)
      (hUnseen : l.manager.exitSeen = false) :
      Does l .graceOver (l.finish l.manager.finishStop.1)
        (.signal pid .kill :: l.manager.dropMonitor.2)
  | notKilled (hIdle : l.manager.isRunning = false) : Does l .kill l []
  | killed {pid : Nat} (hRest : l.atRest = true) (hRunning : l.manager.status = .running pid) :
      Does l .kill (l.finish { l.manager.dropMonitor.1 with status := .stopped })
        (.signal pid .kill :: l.manager.dropMonitor.2)
  | exited {exit : Exit} (hChild : exit.pid ∈ l.children) : Does l (.exit exit) (l.see exit) []
  | told {exit : Exit} {rest : List Exit} (hUntold : l.manager.untold = exit :: rest) :
      Does l .tellExit (l.onManager { l.manager with untold := rest }) [.exited exit]
  | taken {pid : Nat} (hConnection : l.manager.connection = some pid) :
      Does l .takeConnection (l.onManager { l.manager with connection := none }) []
  | output {pid : Nat} {bytes : List UInt8} :
      Does l (.errorOutput pid bytes) (l.onManager (l.manager.errorOutput pid bytes).1)
        (l.manager.errorOutput pid bytes).2
  | outputEnd {pid : Nat} :
      Does l (.errorEnd pid) (l.onManager (l.manager.errorEnd pid).1) (l.manager.errorEnd pid).2

theorem does_of_start {spawned : Except String Nat} (h : l.next? (.start spawned) = some m) :
    Does l (.start spawned) m (l.effects (.start spawned)) := by
  simp only [next?, Option.ite_none_right_eq_some] at h
  obtain ⟨hRest, h⟩ := h
  cases spawned with
  | error reason =>
    obtain rfl := Option.some.inj h
    have hEffects : l.effects (.start (.error reason)) = [] := by
      unfold effects
      cases hRunning : l.manager.isRunning <;> simp [Manager.start, hRunning]
    rw [hEffects]
    exact .notStarted (.inr ⟨reason, rfl⟩)
  | ok pid =>
    simp only [Option.ite_none_left_eq_some] at h
    obtain ⟨hNew, h⟩ := h
    cases hRunning : l.manager.isRunning with
    | true =>
      rw [Manager.start_eq_error hRunning] at h
      obtain rfl := Option.some.inj h
      simp only [effects, Manager.start_eq_error hRunning]
      exact .notStarted (.inl hRunning)
    | false =>
      rw [Manager.start_eq hRunning] at h
      obtain rfl := Option.some.inj h
      simp only [effects, Manager.start_eq hRunning]
      exact .started hRest hRunning hNew

theorem does_of_stop {mode : StopMode} (h : l.next? (.stop mode) = some m) :
    Does l (.stop mode) m (l.effects (.stop mode)) := by
  simp only [next?, Option.ite_none_right_eq_some] at h
  obtain ⟨hRest, h⟩ := h
  cases hRunning : l.manager.isRunning with
  | false =>
    rw [Manager.requestStop_eq_error hRunning] at h
    obtain rfl := Option.some.inj h
    simp only [effects, Manager.requestStop_eq_error hRunning]
    exact .notStopped hRunning
  | true =>
    obtain ⟨pid, hPid⟩ := Manager.isRunning_iff.mp hRunning
    cases mode with
    | graceful =>
      rw [Manager.requestStop_graceful hPid] at h
      obtain rfl := Option.some.inj h
      simp only [effects, Manager.requestStop_graceful hPid]
      exact .asked hRest hPid
    | force =>
      rw [Manager.requestStop_force hPid] at h
      obtain rfl := Option.some.inj h
      simp only [effects, Manager.requestStop_force hPid]
      exact .forced hRest hPid

theorem does_of_stopStep (h : l.next? .stopStep = some m) :
    Does l .stopStep m (l.effects .stopStep) := by
  obtain ⟨⟨n, done⟩, hStep, rfl⟩ := Option.map_eq_some_iff.mp h
  have hEffects : l.effects .stopStep = done := by simp only [effects, hStep]
  unfold Manager.stopStep? at hStep
  split at hStep
  · cases hStep
  · rename_i pid hPid
    obtain ⟨hSeen, hFinish⟩ := Option.ite_none_right_eq_some.mp hStep
    obtain ⟨rfl, rfl⟩ := Prod.mk.inj (Option.some.inj hFinish)
    rw [hEffects]
    exact .stopped (by simp [atRest, hPid]) hSeen

theorem does_of_graceOver (h : l.next? .graceOver = some m) :
    Does l .graceOver m (l.effects .graceOver) := by
  obtain ⟨hGuard, hAfter⟩ := Option.ite_none_left_eq_some.mp h
  obtain rfl := Option.some.inj hAfter
  simp only [Bool.or_eq_true, not_or, Bool.not_eq_true] at hGuard
  obtain ⟨hRest, hUnseen⟩ := hGuard
  cases hStopping : l.manager.stopping with
  | none => simp [atRest, hStopping] at hRest
  | some pid =>
    simp only [effects, Manager.graceOver_eq hStopping]
    exact .overdue hStopping hUnseen

theorem does_of_kill (h : l.next? .kill = some m) :
    Does l .kill m (l.effects .kill) := by
  simp only [next?, Option.ite_none_right_eq_some] at h
  obtain ⟨hRest, h⟩ := h
  cases hRunning : l.manager.isRunning with
  | false =>
    simp only [hRunning, Bool.false_eq_true, if_false] at h
    obtain rfl := Option.some.inj h
    simp only [effects, Manager.kill_of_not_running hRunning]
    exact .notKilled hRunning
  | true =>
    obtain ⟨pid, hPid⟩ := Manager.isRunning_iff.mp hRunning
    simp only [hRunning, if_true, Manager.kill_eq hPid] at h
    obtain rfl := Option.some.inj h
    simp only [effects, Manager.kill_eq hPid]
    exact .killed hRest hPid

theorem does_of_tellExit (h : l.next? .tellExit = some m) :
    Does l .tellExit m (l.effects .tellExit) := by
  obtain ⟨⟨n, exit⟩, hTell, rfl⟩ := Option.map_eq_some_iff.mp h
  have hEffects : l.effects .tellExit = [.exited exit] := by simp only [effects, hTell]
  unfold Manager.tellExit? at hTell
  split at hTell
  · cases hTell
  · rename_i first rest hUntold
    obtain ⟨rfl, rfl⟩ := Prod.mk.inj (Option.some.inj hTell)
    rw [hEffects]
    exact .told hUntold

theorem does_of_next? (h : l.next? event = some m) : Does l event m (l.effects event) := by
  cases event with
  | start => exact does_of_start h
  | stop => exact does_of_stop h
  | stopStep => exact does_of_stopStep h
  | graceOver => exact does_of_graceOver h
  | kill => exact does_of_kill h
  | exit exit =>
    obtain ⟨hChild, hAfter⟩ := Option.ite_none_right_eq_some.mp h
    obtain rfl := Option.some.inj hAfter
    exact .exited hChild
  | tellExit => exact does_of_tellExit h
  | takeConnection =>
    obtain ⟨⟨n, pid⟩, hTake, rfl⟩ := Option.map_eq_some_iff.mp h
    unfold Manager.takeConnection at hTake
    split at hTake
    · rename_i hConnection
      cases hTake
      exact .taken hConnection
    · cases hTake
  | errorOutput pid bytes =>
    obtain rfl := Option.some.inj h
    exact .output
  | errorEnd pid =>
    obtain rfl := Option.some.inj h
    exact .outputEnd

end Lineage

/-- A start that is refused or fails starts no child. -/
theorem started?_of_refused {l m : Lineage} {spawned : Except String Nat}
    (h : l.manager.isRunning = true ∨ ∃ reason, spawned = .error reason) :
    Step.started? ⟨l, .start spawned, m⟩ = none := by
  rcases h with hRunning | ⟨reason, rfl⟩
  · cases spawned with
    | error reason => rfl
    | ok pid => simp [Step.started?, hRunning]
  · rfl

/-- A stop or a kill that is refused ends nothing. -/
theorem ends_of_refused {l m : Lineage} (h : l.manager.isRunning = false) (mode : StopMode) :
    Step.ends ⟨l, .stop mode, m⟩ = false := by
  cases mode with
  | graceful => rfl
  | force => exact h

section Latest

variable {α : Type} {started? : α → Option Nat} {trace later later' : List α} {step : α}
  {pid pid' : Nat}

/-- The child `pid` was the last that a trace of steps tells to be started, and `later` is what has
happened since. -/
def LatestBy (started? : α → Option Nat) (trace : List α) (pid : Nat) (later : List α) : Prop :=
  ∃ earlier start, trace = earlier ++ start :: later ∧ started? start = some pid ∧
    ∀ step ∈ later, started? step = none

theorem LatestBy.start (h : started? step = some pid) :
    LatestBy started? (trace ++ [step]) pid [] :=
  ⟨trace, step, rfl, h, by simp⟩

theorem LatestBy.append {more : List α} (hLatest : LatestBy started? trace pid later)
    (h : ∀ step ∈ more, started? step = none) :
    LatestBy started? (trace ++ more) pid (later ++ more) := by
  obtain ⟨earlier, start, rfl, hStart, hLater⟩ := hLatest
  refine ⟨earlier, start, by simp, hStart, ?_⟩
  intro other hOther
  exact (List.mem_append.mp hOther).elim (hLater other) (h other)

theorem LatestBy.snoc (hLatest : LatestBy started? trace pid later) (h : started? step = none) :
    LatestBy started? (trace ++ [step]) pid (later ++ [step]) :=
  hLatest.append fun other hOther => by rwa [List.mem_singleton.mp hOther]

/-- Only one child was the last to be started. -/
theorem LatestBy.unique (h : LatestBy started? trace pid later)
    (h' : LatestBy started? trace pid' later') : pid = pid' ∧ later = later' := by
  obtain ⟨earlier, start, rfl, hStart, hLater⟩ := h
  obtain ⟨earlier', start', hTrace, hStart', hLater'⟩ := h'
  rcases List.append_eq_append_iff.mp hTrace with ⟨between, -, hRest⟩ | ⟨between, -, hRest⟩
  · cases between with
    | nil =>
      obtain ⟨rfl, rfl⟩ := List.cons.inj hRest
      exact ⟨Option.some.inj (hStart.symm.trans hStart'), rfl⟩
    | cons first between =>
      -- The second start would stand behind the first one, where there is none.
      obtain ⟨-, hMore⟩ := List.cons.inj hRest
      have hNone := hLater start' (by simp [hMore])
      rw [hStart'] at hNone
      cases hNone
  · cases between with
    | nil =>
      obtain ⟨rfl, rfl⟩ := List.cons.inj hRest
      exact ⟨Option.some.inj (hStart.symm.trans hStart'), rfl⟩
    | cons first between =>
      obtain ⟨-, hMore⟩ := List.cons.inj hRest
      have hNone := hLater' start (by simp [hMore])
      rw [hStart] at hNone
      cases hNone

end Latest

/-- The child `pid` was the last to be started, and `later` is what has happened since. -/
def Last (trace : List Step) (pid : Nat) (later : List Step) : Prop :=
  LatestBy Step.started? trace pid later

variable {trace later later' : List Step} {step : Step} {pid pid' : Nat} {l n : Lineage}

/-- A trace in which a child was started has a last one. -/
theorem unstarted_or_last (trace : List Step) :
    (∀ step ∈ trace, step.started? = none) ∨ ∃ pid later, Last trace pid later := by
  induction trace using List.reverseRecOn with
  | nil => simp
  | append_singleton trace last ih =>
    cases hLast : last.started? with
    | some pid => exact .inr ⟨pid, [], .start hLast⟩
    | none =>
      rcases ih with hNone | ⟨pid, later, hBefore⟩
      · refine .inl fun step hStep => ?_
        rcases List.mem_append.mp hStep with hOld | hNew
        · exact hNone step hOld
        · rw [List.mem_singleton.mp hNew]
          exact hLast
      · exact .inr ⟨pid, later ++ [last], hBefore.snoc hLast⟩

/-- What the manager has of its latest child is what the trace tells of it. -/
structure Told (trace : List Step) (l : Lineage) : Prop where
  unstarted : l.latest = none → ∀ step ∈ trace, step.started? = none
  latest : ∀ g ∈ l.latest, ∃ later, Last trace g.pid later ∧
    g.exited = later.any (·.sees g.pid) ∧ g.ended = later.any Step.ends

/-- A child that the trace knows as the last to be started is the latest one. -/
theorem Told.of_last (hTold : Told trace l) (hLast : Last trace pid later) :
    ∃ g ∈ l.latest, g.pid = pid ∧ g.exited = later.any (·.sees g.pid) ∧
      g.ended = later.any Step.ends := by
  cases hLatest : l.latest with
  | none =>
    obtain ⟨earlier, start, rfl, hStart, -⟩ := hLast
    rw [hTold.unstarted hLatest start (by simp)] at hStart
    cases hStart
  | some g =>
    obtain ⟨since, hSince, hExited, hEnded⟩ := hTold.latest g hLatest
    obtain ⟨rfl, rfl⟩ := hLast.unique hSince
    exact ⟨g, rfl, rfl, hExited, hEnded⟩

theorem told_create (program : Program) (grace : Duration) (handler : Bool) :
    Told [] (.create program grace handler) where
  unstarted _ := by simp
  latest g h := by cases h

/-- A step that starts no child marks of the latest one whether its exit is seen and whether it is
stopped or killed. -/
theorem Told.pass (hTold : Told trace l) (hStarted : step.started? = none)
    (f : Generation → Generation) (hLatest : n.latest = l.latest.map f)
    (hMarks : ∀ g, (f g).pid = g.pid ∧ (f g).exited = (g.exited || step.sees g.pid) ∧
      (f g).ended = (g.ended || step.ends)) : Told (trace ++ [step]) n := by
  constructor
  · intro hNone other hOther
    rw [hLatest, Option.map_eq_none_iff] at hNone
    rcases List.mem_append.mp hOther with hOld | hNew
    · exact hTold.unstarted hNone other hOld
    · rw [List.mem_singleton.mp hNew]
      exact hStarted
  · intro g hg
    rw [hLatest] at hg
    obtain ⟨g', hg', rfl⟩ := Option.map_eq_some_iff.mp hg
    obtain ⟨later, hLast, hExited, hEnded⟩ := hTold.latest g' hg'
    obtain ⟨hPid, hExited', hEnded'⟩ := hMarks g'
    refine ⟨later ++ [step], ?_, ?_, ?_⟩
    · rw [hPid]
      exact hLast.snoc hStarted
    · rw [hPid, hExited', hExited, List.any_append, List.any_cons, List.any_nil, Bool.or_false]
    · rw [hEnded', hEnded, List.any_append, List.any_cons, List.any_nil, Bool.or_false]

theorem Told.extend {event : Event} (hTold : Told trace l) (h : l.next? event = some n) :
    Told (trace ++ [⟨l, event, n⟩]) n := by
  have hKeep (hLatest : n.latest = l.latest) (hStarted : Step.started? ⟨l, event, n⟩ = none)
      (hSees : ∀ pid, Step.sees ⟨l, event, n⟩ pid = false) (hEnds : Step.ends ⟨l, event, n⟩ = false) :
      Told (trace ++ [⟨l, event, n⟩]) n := by
    apply hTold.pass hStarted id
    · simp [hLatest]
    · intro g
      simp [hSees, hEnds]
  have hFinish (hLatest : n.latest = l.latest.map Generation.finish)
      (hStarted : Step.started? ⟨l, event, n⟩ = none)
      (hSees : ∀ pid, Step.sees ⟨l, event, n⟩ pid = false) (hEnds : Step.ends ⟨l, event, n⟩ = true) :
      Told (trace ++ [⟨l, event, n⟩]) n := by
    apply hTold.pass hStarted _ hLatest
    intro g
    simp [Generation.finish, hSees, hEnds]
  have hDoes := Lineage.does_of_next? h
  generalize l.effects event = effects at hDoes
  cases hDoes with
  | notStarted hRefused => exact hKeep rfl (started?_of_refused hRefused) (fun _ => rfl) rfl
  | started hRest hIdle hNew =>
    refine ⟨by simp, ?_⟩
    rintro g ⟨⟩
    exact ⟨[], .start (by simp [Step.started?, hIdle, Generation.fresh]), rfl, rfl⟩
  | notStopped hIdle => exact hKeep rfl rfl (fun _ => rfl) (ends_of_refused hIdle _)
  | asked hRest hRunning => exact hKeep rfl rfl (fun _ => rfl) rfl
  | forced hRest hRunning =>
    exact hFinish rfl rfl (fun _ => rfl) (Manager.isRunning_iff.mpr ⟨_, hRunning⟩)
  | stopped => exact hFinish rfl rfl (fun _ => rfl) rfl
  | overdue => exact hFinish rfl rfl (fun _ => rfl) rfl
  | notKilled hIdle => exact hKeep rfl rfl (fun _ => rfl) hIdle
  | killed hRest hRunning =>
    exact hFinish rfl rfl (fun _ => rfl) (Manager.isRunning_iff.mpr ⟨_, hRunning⟩)
  | exited hChild =>
    rename_i exit
    apply hTold.pass rfl (·.see exit.pid) rfl
    intro g
    by_cases hOwn : g.pid = exit.pid
    · simp [Generation.see, hOwn, Step.sees, Step.ends]
    · simp [Generation.see, hOwn, Step.sees, Step.ends, Ne.symm hOwn]
  | _ => exact hKeep rfl rfl (fun _ => rfl) rfl

theorem Run.told {program : Program} {grace : Duration} {handler : Bool}
    (hRun : Run (.create program grace handler) trace l) : Told trace l := by
  induction hRun with
  | start => exact told_create program grace handler
  | step prior last ih => exact ih.extend last

/-- A run is cut at one of its steps: what comes before is a run, the step can happen there, and what
comes behind is a run. -/
theorem Run.cut {l' : Lineage} {earlier : List Step} (hRun : Run l' trace l)
    (hTrace : trace = earlier ++ step :: later) :
    Run l' earlier step.before ∧ step.before.next? step.event = some step.after ∧
      Run step.after later l := by
  induction hRun generalizing later with
  | start => simp at hTrace
  | step prior last ih =>
    rcases List.eq_nil_or_concat later with rfl | ⟨front, final, rfl⟩
    · obtain ⟨rfl, hLast⟩ := List.append_inj' hTrace rfl
      obtain rfl := List.head_eq_of_cons_eq hLast
      exact ⟨prior, last, .start⟩
    · rw [List.concat_eq_append, ← List.cons_append, ← List.append_assoc] at hTrace
      obtain ⟨hFront, hFinal⟩ := List.append_inj' hTrace rfl
      obtain rfl := List.head_eq_of_cons_eq hFinal
      obtain ⟨hBefore, hStep, hBehind⟩ := ih hFront
      rw [List.concat_eq_append]
      exact ⟨hBefore, hStep, .step hBehind last⟩

end EditorBridge.Process
