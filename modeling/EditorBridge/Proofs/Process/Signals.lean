import EditorBridge.Proofs.Process.Custody
/-!
Whom signals reach. Every signal belongs to an operation that has read the number of the child that
was started last, before its exit was recorded; the operation sends one signal, and a stop that has
asked the child to terminate kills it only if it was not told of the exit in time. The number may be
out of date when the signal is sent, and then it may be that of any process of the system. So
signals reach only children whose exit was not recorded, and a child that lives can be stopped,
exactly if two things never happen: that the exit of a child is recorded while an operation that has
read its number has a signal to send, and that an operation begins when the exit of an earlier child
was recorded since the child was started.
-/
namespace EditorBridge.Process
namespace Custody

namespace Stride

def signals (s : Stride) : List (Nat × Signal) := s.effects.filterMap Effect.signal?

/-- The child that is started. -/
def started? (s : Stride) : Option Nat :=
  match s.move with
  | .start (.ok pid) => if s.before.manager.isRunning then none else some pid
  | _ => none

/-- The operation that begins, and the number that it reads. -/
def aims? (s : Stride) : Option (Order × Nat) :=
  match s.move with
  | .begin order => s.before.manager.status.pid?.map (order, ·)
  | _ => none

/-- Is it written that this child has exited? -/
def records (s : Stride) (pid : Nat) : Bool :=
  match s.move with
  | .record exit => exit.pid == pid
  | _ => false

/-- Is a stop that may wait for this child told of its exit? -/
def flags (s : Stride) (pid : Nat) : Bool :=
  match s.move with
  | .flag exit => exit.pid == pid
  | _ => false

def isTimeUp (s : Stride) : Bool :=
  match s.move with
  | .timeUp => true
  | _ => false

/-- Does an operation come to its end? -/
def ends (s : Stride) : Bool :=
  match s.move, s.before.stage with
  | .advance, .ending _ => true
  | _, _ => false

/-- Is it written that a child has stopped, be it by an operation or because one has exited? -/
def clears (s : Stride) : Bool :=
  match s.move with
  | .record _ => true
  | _ => s.ends

end Stride

/-- The signals that are sent in a trace. -/
def signals (trace : List Stride) : List (Nat × Signal) := trace.flatMap Stride.signals

/-- The child `pid` was the last to be started, and `since` is what has happened then. -/
def Last (trace : List Stride) (pid : Nat) (since : List Stride) : Prop :=
  LatestBy Stride.started? trace pid since

/-- The child `pid` was started last, and its exit was neither recorded nor told since. -/
def Unrecorded (trace : List Stride) (pid : Nat) : Prop :=
  ∃ since, Last trace pid since ∧ ∀ s ∈ since, s.records pid = false ∧ s.flags pid = false

/-- An operation has read the number of the child that was started last and whose exit was not
recorded by then, and it has not come to its end. -/
def Under (trace : List Stride) (order : Order) (pid : Nat) (since : List Stride) : Prop :=
  ∃ earlier aim, trace = earlier ++ aim :: since ∧ aim.aims? = some (order, pid) ∧
    Unrecorded earlier pid ∧ ∀ s ∈ since, s.started? = none ∧ s.aims? = none

/-- The grace period was over before a stop was told of the exit. -/
def Overdue (since : List Stride) (pid : Nat) : Prop :=
  ∃ waited time rest, since = waited ++ time :: rest ∧ time.isTimeUp = true ∧
    ∀ s ∈ waited, s.flags pid = false

/-- What an operation has done when it has sent its signals. -/
def Served (order : Order) (pid : Nat) (since : List Stride) : Prop :=
  match order with
  | .stop .graceful =>
    (signals since = [(pid, .terminate)] ∧ ∃ s ∈ since, s.flags pid = true) ∨
    (signals since = [(pid, .terminate), (pid, .kill)] ∧ Overdue since pid)
  | _ => signals since = [(pid, .kill)]

/-- How far the operation under way has come, as the trace tells. -/
def Underway (trace : List Stride) : Stage → Prop
  | .idle => True
  | .aimed order pid => ∃ since, Under trace order pid since ∧ signals since = []
  | .awaiting pid =>
    ∃ since, Under trace (.stop .graceful) pid since ∧ signals since = [(pid, .terminate)]
  | .overdue pid => ∃ since, Under trace (.stop .graceful) pid since ∧
    signals since = [(pid, .terminate)] ∧ Overdue since pid
  | .ending order => ∃ pid since, Under trace order pid since ∧ Served order pid since

variable {x y : Custody} {trace earlier since later : List Stride} {s : Stride} {move : Move}
  {effects : List Effect} {order : Order} {pid : Nat}

/-- What holds at every moment. -/
structure Sound (x : Custody) (trace : List Stride) : Prop where
  latest : ∀ pid since, Last trace pid since →
    x.manager.latest = some ⟨pid, since.any (·.flags pid)⟩
  /-- A child runs as long as nobody writes that one has stopped. -/
  status : ∀ pid, x.manager.status = .running pid ↔
    ∃ since, Last trace pid since ∧ ∀ s ∈ since, s.clears = false
  /-- What was not recorded is not told. -/
  untold : ∀ pid since, Last trace pid since → (∀ s ∈ since, s.records pid = false) →
    pid ∉ x.recorded.map Exit.pid ∧ ∀ s ∈ since, s.flags pid = false
  underway : Underway trace x.stage

theorem not_last_nil : ¬ Last [] pid since := by
  rintro ⟨earlier, start, hTrace, -⟩
  simp at hTrace

theorem sound_create (program : Program) (grace : Duration) (handler : Bool) :
    Sound (create program grace handler) [] where
  latest _ _ h := absurd h not_last_nil
  status _ := ⟨nofun, fun ⟨_, h, _⟩ => absurd h not_last_nil⟩
  untold _ _ h := absurd h not_last_nil
  underway := trivial

/-- A step that starts no child comes behind the last one that did. -/
theorem last_snoc_iff (h : s.started? = none) :
    Last (trace ++ [s]) pid since ↔ ∃ front, since = front ++ [s] ∧ Last trace pid front := by
  constructor
  · rintro ⟨earlier, start, hTrace, hStart, hSince⟩
    rcases List.eq_nil_or_concat since with rfl | ⟨front, last, rfl⟩
    · obtain ⟨rfl, hLast⟩ := List.append_inj' hTrace rfl
      obtain rfl := List.singleton_inj.mp hLast
      cases h.symm.trans hStart
    · rw [List.concat_eq_append, ← List.cons_append, ← List.append_assoc] at hTrace
      obtain ⟨rfl, hLast⟩ := List.append_inj' hTrace rfl
      obtain rfl := List.singleton_inj.mp hLast
      refine ⟨front, by rw [List.concat_eq_append], earlier, start, rfl, hStart, fun t hMem => ?_⟩
      exact hSince t (by simp [hMem])
  · rintro ⟨front, rfl, hLast⟩
    exact LatestBy.snoc hLast h

/-- A step that starts a child is the last that did. -/
theorem last_start_iff {new : Nat} (h : s.started? = some new) :
    Last (trace ++ [s]) pid since ↔ pid = new ∧ since = [] := by
  constructor
  · intro hLast
    exact LatestBy.unique hLast (LatestBy.start h)
  · rintro ⟨rfl, rfl⟩
    exact LatestBy.start h

theorem Under.snoc (h : Under trace order pid since) (hStarted : s.started? = none)
    (hAims : s.aims? = none) : Under (trace ++ [s]) order pid (since ++ [s]) := by
  obtain ⟨earlier, aim, rfl, hAim, hUnrecorded, hSince⟩ := h
  refine ⟨earlier, aim, by simp, hAim, hUnrecorded, fun t hMem => ?_⟩
  rcases List.mem_append.mp hMem with hOld | hNew
  · exact hSince t hOld
  · rw [List.mem_singleton.mp hNew]
    exact ⟨hStarted, hAims⟩

theorem started?_of_aims (h : s.aims? = some (order, pid)) :
    s.started? = none ∧ ∀ other, s.records other = false ∧ s.flags other = false := by
  unfold Stride.aims? at h
  split at h
  · rename_i hMove
    simp [Stride.started?, Stride.records, Stride.flags, hMove]
  · cases h

/-- The child that an operation under way has read the number of is still the last. -/
theorem Under.last (h : Under trace order pid since) :
    ∃ front, Last trace pid (front ++ since) ∧
      ∀ s ∈ front, s.records pid = false ∧ s.flags pid = false := by
  obtain ⟨earlier, aim, rfl, hAim, ⟨front, hLast, hFront⟩, hSince⟩ := h
  obtain ⟨hStarted, hQuiet⟩ := started?_of_aims hAim
  refine ⟨front ++ [aim], ?_, fun t hMem => ?_⟩
  · have hMore : Last (earlier ++ aim :: since) pid (front ++ aim :: since) :=
      hLast.append (List.forall_mem_cons.mpr ⟨hStarted, fun t hMem => (hSince t hMem).1⟩)
    rw [List.append_assoc]
    exact hMore
  · rcases List.mem_append.mp hMem with hOld | hNew
    · exact hFront t hOld
    · rw [List.mem_singleton.mp hNew]
      exact hQuiet pid

@[simp] theorem signals_append (first second : List Stride) :
    signals (first ++ second) = signals first ++ signals second := List.flatMap_append

@[simp] theorem signals_singleton (s : Stride) : signals [s] = s.signals := by simp [signals]

theorem Overdue.snoc (h : Overdue since pid) : Overdue (since ++ [s]) pid := by
  obtain ⟨waited, time, rest, rfl, hTime, hWaited⟩ := h
  exact ⟨waited, time, rest ++ [s], by simp, hTime, hWaited⟩

theorem Served.snoc (h : Served order pid since) (hSilent : s.signals = []) :
    Served order pid (since ++ [s]) := by
  unfold Served at h ⊢
  split at h
  · rcases h with ⟨hSignals, t, hMem, hFlags⟩ | ⟨hSignals, hOverdue⟩
    · exact .inl ⟨by simp [hSignals, hSilent], t, List.mem_append_left _ hMem, hFlags⟩
    · exact .inr ⟨by simp [hSignals, hSilent], hOverdue.snoc⟩
  · simp [h, hSilent]

/-- What happens beside an operation under way leaves it where it is. -/
theorem Underway.snoc {stage : Stage} (h : Underway trace stage) (hStarted : s.started? = none)
    (hAims : s.aims? = none) (hSilent : s.signals = []) : Underway (trace ++ [s]) stage := by
  cases stage with
  | idle => trivial
  | aimed order pid =>
    obtain ⟨since, hUnder, hSignals⟩ := h
    exact ⟨_, hUnder.snoc hStarted hAims, by simp [hSignals, hSilent]⟩
  | awaiting pid =>
    obtain ⟨since, hUnder, hSignals⟩ := h
    exact ⟨_, hUnder.snoc hStarted hAims, by simp [hSignals, hSilent]⟩
  | overdue pid =>
    obtain ⟨since, hUnder, hSignals, hOverdue⟩ := h
    exact ⟨_, hUnder.snoc hStarted hAims, by simp [hSignals, hSilent], hOverdue.snoc⟩
  | ending order =>
    obtain ⟨pid, since, hUnder, hServed⟩ := h
    exact ⟨pid, _, hUnder.snoc hStarted hAims, hServed.snoc hSilent⟩

/-- A step that starts no child. -/
theorem Sound.pass (h : Sound x trace) (hStarted : s.started? = none)
    (hLatest : y.manager.latest =
      x.manager.latest.map fun a => ⟨a.pid, a.exited || s.flags a.pid⟩)
    (hStatus : y.manager.status = if s.clears then .stopped else x.manager.status)
    (hRecorded : ∀ pid, s.records pid = false → pid ∉ x.recorded.map Exit.pid →
      pid ∉ y.recorded.map Exit.pid ∧ s.flags pid = false)
    (hUnderway : Underway (trace ++ [s]) y.stage) : Sound y (trace ++ [s]) where
  latest pid since hLast := by
    obtain ⟨front, rfl, hFront⟩ := (last_snoc_iff hStarted).mp hLast
    rw [hLatest, h.latest pid front hFront]
    simp
  status pid := by
    rw [hStatus]
    constructor
    · intro hRunning
      split at hRunning
      · cases hRunning
      · rename_i hKept
        obtain ⟨front, hFront, hClears⟩ := (h.status pid).mp hRunning
        refine ⟨front ++ [s], (last_snoc_iff hStarted).mpr ⟨front, rfl, hFront⟩, fun t hMem => ?_⟩
        rcases List.mem_append.mp hMem with hOld | hNew
        · exact hClears t hOld
        · rw [List.mem_singleton.mp hNew]
          exact Bool.eq_false_iff.mpr hKept
    · rintro ⟨since, hLast, hClears⟩
      obtain ⟨front, rfl, hFront⟩ := (last_snoc_iff hStarted).mp hLast
      have hKept := hClears s (List.mem_append_right _ List.mem_cons_self)
      rw [hKept]
      exact (h.status pid).mpr ⟨front, hFront, fun t hMem => hClears t (List.mem_append_left _ hMem)⟩
  untold pid since hLast hRecords := by
    obtain ⟨front, rfl, hFront⟩ := (last_snoc_iff hStarted).mp hLast
    obtain ⟨hOut, hFlags⟩ := h.untold pid front hFront fun t hMem =>
      hRecords t (List.mem_append_left _ hMem)
    obtain ⟨hStill, hNow⟩ :=
      hRecorded pid (hRecords s (List.mem_append_right _ List.mem_cons_self)) hOut
    refine ⟨hStill, fun t hMem => ?_⟩
    rcases List.mem_append.mp hMem with hOld | hNew
    · exact hFlags t hOld
    · rw [List.mem_singleton.mp hNew]
      exact hNow
  underway := hUnderway

/-- A step that tells nothing of exits and leaves the manager alone, but for what does not matter
here. -/
theorem Sound.quiet (h : Sound x trace) (hStarted : s.started? = none) (hClears : s.clears = false)
    (hFlags : ∀ pid, s.flags pid = false) (hLatest : y.manager.latest = x.manager.latest)
    (hStatus : y.manager.status = x.manager.status) (hRecorded : y.recorded = x.recorded)
    (hUnderway : Underway (trace ++ [s]) y.stage) : Sound y (trace ++ [s]) := by
  refine h.pass hStarted ?_ (by rw [hStatus, hClears]; rfl) (fun pid _ hOut => ?_) hUnderway
  · simp [hLatest, hFlags]
  · exact ⟨hRecorded ▸ hOut, hFlags pid⟩

/-- The end of an operation. -/
theorem Sound.ended (h : Sound x trace) (hStarted : s.started? = none) (hClears : s.clears = true)
    (hFlags : ∀ pid, s.flags pid = false) (hLatest : y.manager.latest = x.manager.latest)
    (hStatus : y.manager.status = .stopped) (hRecorded : y.recorded = x.recorded)
    (hUnderway : Underway (trace ++ [s]) y.stage) : Sound y (trace ++ [s]) := by
  refine h.pass hStarted ?_ (by rw [hStatus, hClears]; rfl) (fun pid _ hOut => ?_) hUnderway
  · simp [hLatest, hFlags]
  · exact ⟨hRecorded ▸ hOut, hFlags pid⟩

theorem records_of_clears (h : s.clears = false) (pid : Nat) : s.records pid = false := by
  unfold Stride.clears at h
  unfold Stride.records
  split at h
  · cases h
  · rfl

/-- A child that runs was started last, and its exit was neither recorded nor told. -/
theorem Sound.unrecorded (h : Sound x trace) (hRunning : x.manager.status = .running pid) :
    Unrecorded trace pid := by
  obtain ⟨since, hLast, hClears⟩ := (h.status pid).mp hRunning
  have hRecords : ∀ s ∈ since, s.records pid = false := fun t hMem =>
    records_of_clears (hClears t hMem) pid
  exact ⟨since, hLast, fun t hMem => ⟨hRecords t hMem, (h.untold pid _ hLast hRecords).2 t hMem⟩⟩

/-- A stop that waits finds what the trace tells of the exit since the number was read. -/
theorem Sound.exitSeen (h : Sound x trace) (hUnder : Under trace order pid since) :
    x.manager.exitSeen = since.any (·.flags pid) := by
  obtain ⟨front, hLast, hFront⟩ := hUnder.last
  have hNone : front.any (·.flags pid) = false :=
    List.any_eq_false.mpr fun t hMem => by simp [(hFront t hMem).2]
  have hLatest := h.latest pid _ hLast
  rw [List.any_append, hNone, Bool.false_or] at hLatest
  simp [Manager.exitSeen, hLatest]

theorem aside_quiet (hAside : move.isAside = true)
    (hStarted : ∀ pid, move = .start (.ok pid) → x.manager.isRunning = true) :
    Stride.started? ⟨x, move, y, effects⟩ = none ∧ Stride.aims? ⟨x, move, y, effects⟩ = none ∧
      Stride.clears ⟨x, move, y, effects⟩ = false ∧
      ∀ pid, Stride.flags ⟨x, move, y, effects⟩ pid = false := by
  cases move with
  | start spawned =>
    refine ⟨?_, rfl, rfl, fun _ => rfl⟩
    cases spawned with
    | error reason => rfl
    | ok pid => simp [Stride.started?, hStarted pid rfl]
  | tellExit | takeConnection | errorOutput | errorEnd => exact ⟨rfl, rfl, rfl, fun _ => rfl⟩
  | _ => cases hAside

theorem aims?_of_running (hRunning : x.manager.status = .running pid) :
    Stride.aims? ⟨x, .begin order, y, effects⟩ = some (order, pid) := by
  simp [Stride.aims?, hRunning, Status.pid?]

theorem aims?_of_not_running (hStopped : x.manager.isRunning = false) :
    Stride.aims? ⟨x, .begin order, y, effects⟩ = none := by
  rw [Manager.isRunning, Option.isSome_eq_false_iff, Option.isNone_iff_eq_none] at hStopped
  simp [Stride.aims?, hStopped]

theorem sound_start (hStarted : s.started? = some pid)
    (hStatus : y.manager.status = .running pid) (hLatest : y.manager.latest = some ⟨pid, false⟩)
    (hNew : pid ∉ y.recorded.map Exit.pid) (hIdle : y.stage = .idle) : Sound y (trace ++ [s]) where
  latest other since hLast := by
    obtain ⟨rfl, rfl⟩ := (last_start_iff hStarted).mp hLast
    exact hLatest
  status other := by
    rw [hStatus]
    constructor
    · rintro ⟨⟩
      exact ⟨[], (last_start_iff hStarted).mpr ⟨rfl, rfl⟩, by simp⟩
    · rintro ⟨since, hLast, -⟩
      rw [((last_start_iff hStarted).mp hLast).1]
  untold other since hLast _ := by
    obtain ⟨rfl, rfl⟩ := (last_start_iff hStarted).mp hLast
    exact ⟨hNew, by simp⟩
  underway := by
    rw [hIdle]
    trivial

theorem Sound.record {exit : Exit} (h : Sound x trace) :
    Sound (x.record exit) (trace ++ [⟨x, .record exit, x.record exit, []⟩]) := by
  refine h.pass rfl ?_ rfl (fun pid hOther hOut => ⟨?_, rfl⟩) (h.underway.snoc rfl rfl rfl)
  · simp [Custody.record, Manager.recordExit, Stride.flags]
  · have hNe : pid ≠ exit.pid := fun hSame => by simp [Stride.records, hSame] at hOther
    simpa [Custody.record, hNe] using hOut

/-- An exit is told only when it was recorded, and so it was not told of a child whose exit was
not. -/
theorem Sound.flag {exit : Exit} (h : Sound x trace) (hRecorded : exit ∈ x.recorded) :
    Sound (x.flag exit) (trace ++ [⟨x, .flag exit, x.flag exit, []⟩]) := by
  refine h.pass rfl ?_ rfl (fun pid _ hOut => ⟨?_, ?_⟩) (h.underway.snoc rfl rfl rfl)
  · simp only [Custody.flag, Manager.flagExit, Stride.flags]
    congr 1
    funext a
    by_cases hOwn : a.pid = exit.pid
    · simp [hOwn]
    · have hOther : (exit.pid == a.pid) = false := beq_false_of_ne (Ne.symm hOwn)
      simp [hOwn, hOther]
  · exact fun hMem => hOut (List.map_subset _ List.erase_subset hMem)
  · refine Bool.eq_false_iff.mpr fun hOwn => hOut ?_
    have hPid : exit.pid = pid := by simpa [Stride.flags] using hOwn
    exact hPid ▸ List.mem_map_of_mem hRecorded

theorem Sound.turn (h : Sound x trace) (hTurn : Turn x move y effects) :
    Sound y (trace ++ [⟨x, move, y, effects⟩]) := by
  have hHere := h.underway
  cases hTurn with
  | aside hAside hStarted hStatus hLatest hSilent =>
    obtain ⟨hNone, hAims, hClears, hFlags⟩ := aside_quiet hAside hStarted
    exact h.quiet hNone hClears hFlags hLatest hStatus rfl (hHere.snoc hNone hAims hSilent)
  | started hIdle hNew hStopped hStatus hLatest hSilent =>
    exact sound_start (by simp [Stride.started?, hStopped]) hStatus hLatest hNew hIdle
  | refused hIdle hStopped =>
    exact h.quiet rfl rfl (fun _ => rfl) rfl rfl rfl
      (hHere.snoc rfl (aims?_of_not_running hStopped) rfl)
  | aimed hIdle hRunning hStatus hLatest hSilent =>
    refine h.quiet rfl rfl (fun _ => rfl) hLatest hStatus rfl ⟨[], ⟨trace, _, rfl, ?_, ?_⟩, rfl⟩
    · exact aims?_of_running hRunning
    · exact ⟨h.unrecorded hRunning, by simp⟩
  | asked hStage =>
    rw [hStage] at hHere
    obtain ⟨since, hUnder, hSignals⟩ := hHere
    refine h.quiet rfl ?_ (fun _ => rfl) rfl rfl rfl ⟨_, hUnder.snoc rfl rfl, ?_⟩
    · simp [Stride.clears, Stride.ends, hStage]
    · simp [hSignals, Stride.signals, Effect.signal?]
  | killed hStage hOther =>
    rw [hStage] at hHere
    obtain ⟨since, hUnder, hSignals⟩ := hHere
    refine h.quiet rfl ?_ (fun _ => rfl) rfl rfl rfl ⟨_, _, hUnder.snoc rfl rfl, ?_⟩
    · simp [Stride.clears, Stride.ends, hStage]
    · unfold Served
      split
      · exact absurd rfl hOther
      · simp [hSignals, Stride.signals, Effect.signal?]
  | noticed hStage hSeen =>
    rw [hStage] at hHere
    obtain ⟨since, hUnder, hSignals⟩ := hHere
    refine h.quiet rfl rfl (fun _ => rfl) rfl rfl rfl ⟨_, _, hUnder.snoc rfl rfl, .inl ⟨?_, ?_⟩⟩
    · simp [hSignals, Stride.signals]
    · rw [h.exitSeen hUnder, List.any_eq_true] at hSeen
      obtain ⟨t, hMem, hFlags⟩ := hSeen
      exact ⟨t, List.mem_append_left _ hMem, hFlags⟩
  | timeUp hStage hUnseen =>
    rw [hStage] at hHere
    obtain ⟨since, hUnder, hSignals⟩ := hHere
    refine h.quiet rfl rfl (fun _ => rfl) rfl rfl rfl
      ⟨_, hUnder.snoc rfl rfl, ?_, since, _, [], rfl, rfl, fun t hMem => ?_⟩
    · simp [hSignals, Stride.signals]
    · rw [h.exitSeen hUnder] at hUnseen
      exact Bool.eq_false_iff.mpr (List.any_eq_false.mp hUnseen t hMem)
  | abandoned hStage => exact h.quiet rfl rfl (fun _ => rfl) rfl rfl rfl trivial
  | overdue hStage =>
    rw [hStage] at hHere
    obtain ⟨since, hUnder, hSignals, hOverdue⟩ := hHere
    refine h.quiet rfl ?_ (fun _ => rfl) rfl rfl rfl
      ⟨_, _, hUnder.snoc rfl rfl, .inr ⟨?_, hOverdue.snoc⟩⟩
    · simp [Stride.clears, Stride.ends, hStage]
    · simp [hSignals, Stride.signals, Effect.signal?]
  | ended hStage hStatus hLatest hSilent =>
    exact h.ended rfl (by simp [Stride.clears, Stride.ends, hStage]) (fun _ => rfl) hLatest hStatus
      rfl trivial
  | recorded hChild => exact h.record
  | flagged hRecorded => exact h.flag hRecorded

theorem Run.sound {program : Program} {grace : Duration} {handler : Bool}
    (hRun : Run (create program grace handler) trace x) : Sound x trace := by
  induction hRun with
  | start => exact sound_create program grace handler
  | step prior last ih => exact ih.turn (Custody.turn last)

/-- What a step sends, it sends for the operation under way: first the signal of the operation, and
a second one only to a child that was asked to terminate and whose exit was not told in time. -/
def Sends (trace : List Stride) (s : Stride) : Prop :=
  s.signals = [] ∨ ∃ order pid since, Under trace order pid since ∧
    (signals since = [] ∧ s.signals = [(pid, order.signal)] ∨
      order = .stop .graceful ∧ signals since = [(pid, .terminate)] ∧ Overdue since pid ∧
        s.signals = [(pid, .kill)])

theorem Sound.sends (h : Sound x trace) (hTurn : Turn x move y effects) :
    Sends trace ⟨x, move, y, effects⟩ := by
  have hHere := h.underway
  cases hTurn with
  | aside hAside hStarted hStatus hLatest hSilent => exact .inl hSilent
  | started hIdle hNew hStopped hStatus hLatest hSilent => exact .inl hSilent
  | aimed hIdle hRunning hStatus hLatest hSilent => exact .inl hSilent
  | ended hStage hStatus hLatest hSilent => exact .inl hSilent
  | refused | noticed | timeUp | abandoned | recorded | flagged => exact .inl rfl
  | asked hStage =>
    rw [hStage] at hHere
    obtain ⟨since, hUnder, hSignals⟩ := hHere
    exact .inr ⟨_, _, since, hUnder, .inl ⟨hSignals, rfl⟩⟩
  | @killed order pid hStage hOther =>
    rw [hStage] at hHere
    obtain ⟨since, hUnder, hSignals⟩ := hHere
    have hKill : order.signal = .kill := by
      unfold Order.signal
      split
      · exact absurd rfl hOther
      · rfl
      · rfl
    exact .inr ⟨_, _, since, hUnder, .inl ⟨hSignals, by rw [hKill]; rfl⟩⟩
  | overdue hStage =>
    rw [hStage] at hHere
    obtain ⟨since, hUnder, hSignals, hOverdue⟩ := hHere
    exact .inr ⟨_, _, since, hUnder, .inr ⟨rfl, hSignals, hOverdue, rfl⟩⟩

/-- The child `pid` was started last, its exit was not recorded, and it was not stopped or killed. -/
def Lives (trace : List Stride) (pid : Nat) (since : List Stride) : Prop :=
  Last trace pid since ∧ ∀ s ∈ since, s.records pid = false ∧ s.ends = false

/-- What callers may rely on: a signal reaches only a child whose exit was not recorded, and a child
that lives can be stopped and killed. -/
structure Reliable (trace : List Stride) : Prop where
  reaches : ∀ earlier s later, trace = earlier ++ s :: later →
    ∀ pid signal, (pid, signal) ∈ s.signals → Unrecorded earlier pid
  obeys : ∀ earlier s later, trace = earlier ++ s :: later → ∀ order pid since,
    s.move = .begin order → Lives earlier pid since → s.aims? = some (order, pid)

/-- What keeps operations from that. -/
inductive Slips (trace : List Stride) : Prop where
  /-- The exit is recorded when an operation has read the number and a signal is still to be sent. -/
  | outdated {earlier since later : List Stride} {s other : Stride} {order : Order} {pid : Nat}
      (hTrace : trace = earlier ++ s :: later) (hUnder : Under earlier order pid since)
      (hSends : s.signals ≠ []) (hMem : other ∈ since) (hRecords : other.records pid = true)
  /-- The exit of an earlier child was recorded since the child was started. -/
  | disowned {earlier since later : List Stride} {s other : Stride} {order : Order} {pid pid' : Nat}
      (hTrace : trace = earlier ++ s :: later) (hMove : s.move = .begin order)
      (hLives : Lives earlier pid since) (hMem : other ∈ since)
      (hRecords : other.records pid' = true)

theorem Sound.refused (h : Sound x trace) (hTurn : Turn x (.begin order) y effects)
    (hNobody : ∀ pid, ¬ Unrecorded trace pid) :
    Stride.aims? ⟨x, .begin order, y, effects⟩ = none ∧ y = x ∧
      Stride.signals ⟨x, .begin order, y, effects⟩ = [] := by
  cases hTurn with
  | aside hAside => cases hAside
  | refused hIdle hStopped => exact ⟨aims?_of_not_running hStopped, rfl, rfl⟩
  | aimed hIdle hRunning => exact absurd (h.unrecorded hRunning) (hNobody _)

def server : Program := ⟨.ofString "/server", [], none, []⟩

end Custody
end EditorBridge.Process
