import EditorBridge.Proofs.Session.Stopping
import EditorBridge.Proofs.Session.Verdicts
/-!
How long a failure stays. The exit of a server and the task of its attempt tell of one death
independently. The exit is noted only while the session is up, but a task that fails writes its own
reason, whatever the status is. So a failed session keeps its reason until the next start, exactly
if no task fails with another one.
-/
namespace EditorBridge.Session

/-- The attempt whose task fails in a step, and why. -/
def Step.taskFailure? (p : Profile) (step : Step) : Option (Nat × String) :=
  step.event.task?.bind fun k => (step.before.taskError? p step.event).map fun e => (k, e.message)

/-- The failures of tasks in a run. -/
def taskFailures (p : Profile) (trace : List Step) : List (Nat × String) :=
  trace.filterMap (·.taskFailure? p)

/-- Why a session has failed, when it had failed for a given reason before a run without a start. -/
def latestReason (p : Profile) (reason : String) (trace : List Step) : String :=
  ((taskFailures p trace).getLast?.map Prod.snd).getD reason

/-- The session has failed, and nobody is ending one that was running. -/
structure Stuck (s : State) (reason : String) : Prop where
  status : s.status = .failed reason
  stop : ∀ stop k, s.stop = some stop → stop.target? ≠ some (k, true)

variable {p : Profile} {s t u : State} {event : Event} {k : Nat} {reason : String}
  {trace : List Step}

theorem Step.taskFailure?_eq_some {step : Step} : step.taskFailure? p = some (k, reason) ↔
    step.event.task? = some k ∧
      ∃ e, step.before.taskError? p step.event = some e ∧ e.message = reason := by
  simp only [Step.taskFailure?, Option.bind_eq_some_iff, Option.map_eq_some_iff, Prod.mk.injEq]
  constructor
  · rintro ⟨j, hTask, e, hError, rfl, rfl⟩
    exact ⟨hTask, e, hError, rfl⟩
  · rintro ⟨hTask, e, hError, rfl⟩
    exact ⟨k, hTask, e, hError, rfl, rfl⟩

theorem taskFailures_snoc (trace : List Step) (step : Step) :
    taskFailures p (trace ++ [step]) = taskFailures p trace ++ (step.taskFailure? p).toList := by
  cases h : step.taskFailure? p <;> simp [taskFailures, h]

theorem latestReason_snoc (trace : List Step) (step : Step) :
    latestReason p reason (trace ++ [step]) =
      ((step.taskFailure? p).map Prod.snd).getD (latestReason p reason trace) := by
  cases h : step.taskFailure? p <;> simp [latestReason, taskFailures_snoc, h]

namespace State

/-- A task that fails has ended. -/
theorem finished_of_taskError {e : Error} (h : s.next? p event = some t)
    (hTask : event.task? = some k) (hError : s.taskError? p event = some e) :
    t.phase? k = some .finished := by
  obtain ⟨phase, hPhase, -⟩ := unfinished_of_move h hTask
  have hKnown : (s.phase? k).isSome = true := by rw [hPhase]; rfl
  have hFails (c : Lsp.Client) (e : Error) :
      ((s.withClient k c).failStart k e).phase? k = some .finished :=
    phase?_failStart e (by rw [phase?_withClient]; exact hKnown)
  cases event with
  | launched j result =>
    obtain rfl := Option.some.inj hTask
    cases result with
    | ok connected => cases hError
    | error e' =>
      simp only [next?, launched] at h
      split at h
      · exact Option.some.inj h ▸ phase?_failStart e' hKnown
      · cases h
  | task j =>
    obtain rfl := Option.some.inj hTask
    simp only [next?, startStep?] at h
    split at h
    · cases h
    · rename_i a hAttempt
      simp only [taskError?, hAttempt, Option.bind_some] at hError
      split at h
      · rename_i c hConnected hClient
        obtain rfl := Option.some.inj h
        simp only [hConnected, hClient] at hError
        unfold askHandshake
        cases hParams : Lsp.handshakeParams p.processId p.clientName a.server.cwd with
        | error fault => exact phase?_failStart _ hKnown
        | ok params =>
          simp only [hParams] at hError
          cases hAsk : c.askHandshake params with
          | mk d result =>
            cases result with
            | error e' => simpa only [hAsk] using hFails d (.lsp e')
            | ok id => simp [hAsk] at hError
      · rename_i id c hHandshaking hClient
        obtain ⟨⟨c', outcome⟩, hEnd, rfl⟩ := Option.map_eq_some_iff.mp h
        simp only [hHandshaking, hClient, hEnd, Option.bind_some] at hError
        dsimp only
        unfold finishHandshake
        cases hFinish : c'.finishHandshake outcome with
        | mk d result =>
          cases result with
          | error e' => exact hFails d (handshakeError p e')
          | ok handshake => simp [hFinish] at hError
      · rename_i c hConfiguring hClient
        obtain rfl := Option.some.inj h
        simp only [hConfiguring, hClient] at hError
        unfold configure
        generalize hTell :
          c.tellConfiguration (Settings.payload s.settings p.options.settingsSection) = told
        cases told with
        | mk d result =>
          cases result with
          | error e' => exact hFails d (.lsp e')
          | ok told => simp [hTell] at hError
      · rename_i hPromoting
        simp [hPromoting] at hError
      · cases h
  | _ => cases hTask

/-- Only a start makes an attempt. -/
theorem next?_length (h : s.next? p event = some t)
    (hNoStart : event.isStart = false) :
    t.attempts.length = s.attempts.length := by
  rcases next?_cases h with ⟨path, root, rfl, -⟩ | ⟨j, -, -, -, rfl⟩ | hEbbs
  · cases hNoStart
  · exact promote_length s j
  · exact hEbbs.length

/-- Only a start makes a task that is unfinished. -/
theorem unfinished_back (h : s.next? p event = some t)
    (hLength : t.attempts.length = s.attempts.length) (hUnfinished : t.Unfinished k) :
    s.Unfinished k := by
  obtain ⟨phase, hPhase, hNot⟩ := hUnfinished
  have hKnown : k < s.attempts.length := hLength ▸ lt_length_of_phase? hPhase
  refine ⟨s.attempts[k].phase, by simp [phase?, hKnown], fun hFinished => ?_⟩
  obtain ⟨messages, hTurn⟩ := next?_turn h k
  have hEnded := hTurn.finished (by simp [phase?, hKnown, hFinished])
  exact hNot (Option.some.inj (hPhase.symm.trans hEnded))

end State

theorem Stuck.of_same (h : Stuck s reason) (hStatus : t.status = s.status)
    (hStop : t.stop = s.stop) : Stuck t reason :=
  ⟨hStatus.trans h.status, fun stop k hSome => h.stop stop k (hStop ▸ hSome)⟩

/-- A task writes the reason with which it fails, and otherwise leaves a failed session alone. -/
theorem Stuck.task_step (h : Stuck s reason) (hStep : s.next? p event = some t)
    (hTask : event.task? = some k) :
    Stuck t ((((⟨s, event, t⟩ : Step).taskFailure? p).map Prod.snd).getD reason) := by
  simp only [Step.taskFailure?, hTask, Option.bind_some]
  generalize hError : s.taskError? p event = error
  cases hError ▸ State.task_move hStep hTask with
  | onward hAside hStatus => exact h.of_same hStatus hAside.stop
  | failed e hAside hFailed => exact ⟨hFailed, hAside.stop ▸ h.stop⟩
  | promoted _ hStarting => simp [h.status] at hStarting

/-- Nothing but a task or a start changes a failed session. -/
theorem Stuck.other_step (h : Stuck s reason) (hStep : s.next? p event = some t)
    (hNoStart : event.isStart = false) (hTask : event.task? = none) : Stuck t reason := by
  have hDown : s.status.isUp = false := by rw [h.status]; rfl
  cases State.next?_shift hStep with
  | steady hSteady hStatus =>
    rcases hStatus with hSame | ⟨-, hUp | ⟨k, hEvent, -⟩⟩
    · exact h.of_same hSame hSteady.stop
    · simp [hDown] at hUp
    · simp [hTask] at hEvent
  | started _ _ hStatus =>
    rcases State.next?_cases hStep with ⟨path, root, rfl, -⟩ | ⟨j, -, -, hStarting, -⟩ | hEbbs
    · cases hNoStart
    · simp [hStarting, Status.isUp] at hDown
    · rw [hEbbs.isUp (by rw [hStatus]; rfl), h.status] at hStatus
      cases hStatus
  | stopping _ _ hAfter =>
    subst hAfter
    refine ⟨h.status, fun stop k hStop => ?_⟩
    obtain rfl := Option.some.inj hStop
    split <;> simp [Stop.target?]
  | promoted _ _ _ _ hStarting => simp [hStarting, Status.isUp] at hDown
  | joined _ _ hAfter =>
    subst hAfter
    refine ⟨h.status, fun stop k hStop => ?_⟩
    obtain rfl := Option.some.inj hStop
    simp [Stop.target?]
  | took _ _ hAfter =>
    subst hAfter
    have hRunning : s.status ≠ .running := by simp [h.status]
    rcases State.takeSlot_cases s with ⟨k, -, hStop, hStatus⟩ | ⟨-, hStop, hStatus⟩
    · rw [if_neg hRunning] at hStatus
      refine ⟨hStatus.trans h.status, fun stop j hSome => ?_⟩
      obtain rfl := Option.some.inj (hStop.symm.trans hSome)
      simp [Stop.target?, hRunning]
    · rw [if_neg hRunning] at hStatus
      exact ⟨hStatus.trans h.status, fun stop j hSome => by simp [hStop] at hSome⟩
  | closing hStop hTarget hStop' hTarget' hStatus =>
    refine ⟨hStatus.trans h.status, fun stop j hSome => ?_⟩
    obtain rfl := Option.some.inj (hStop'.symm.trans hSome)
    rw [hTarget', ← hTarget]
    exact h.stop _ j hStop
  | @returned k last _ hStop hTarget hStop' hStatus =>
    have hSame := hStatus.resolve_right (by simp [hDown])
    cases last with
    | true => exact absurd hTarget (h.stop _ k hStop)
    | false => exact ⟨hSame.trans h.status, fun stop j hSome => by simp [hStop'] at hSome⟩
  | forwarding hStatus _ _ hStop => exact h.of_same hStatus hStop

/-- A failed session stays failed until the next start, whatever happens, and only a task that fails
changes the reason. -/
theorem Stuck.step (h : Stuck s reason) (hStep : s.next? p event = some t)
    (hNoStart : event.isStart = false) :
    Stuck t ((((⟨s, event, t⟩ : Step).taskFailure? p).map Prod.snd).getD reason) := by
  cases hTask : event.task? with
  | some k => exact h.task_step hStep hTask
  | none =>
    have hNone : (⟨s, event, t⟩ : Step).taskFailure? p = none := by
      simp [Step.taskFailure?, hTask]
    rw [hNone]
    exact h.other_step hStep hNoStart hTask

/-- What a run without a start makes of a failed session. -/
theorem Run.stuck (hRun : Run p s trace t) (h : Stuck s reason)
    (hNoStart : ∀ step ∈ trace, step.event.isStart = false) :
    Stuck t (latestReason p reason trace) := by
  induction hRun with
  | start => exact h
  | @step trace t u event prior last ih =>
    have hBefore := ih fun step hStep => hNoStart step (List.mem_append_left _ hStep)
    rw [latestReason_snoc]
    exact hBefore.step last (hNoStart _ (List.mem_append_right _ List.mem_cons_self))

/-- The tasks that fail in a run without a start were under way before it, and each fails once. -/
theorem Run.taskFailures_once (hRun : Run p s trace t)
    (hNoStart : ∀ step ∈ trace, step.event.isStart = false) :
    (∀ j, t.Unfinished j → s.Unfinished j) ∧ ((taskFailures p trace).map Prod.fst).Nodup ∧
      ∀ failure ∈ taskFailures p trace,
        s.Unfinished failure.1 ∧ t.phase? failure.1 = some .finished := by
  induction hRun with
  | start => exact ⟨fun _ h => h, List.nodup_nil, by simp [taskFailures]⟩
  | @step trace t u event prior last ih =>
    obtain ⟨hBack, hOnce, hEnded⟩ := ih fun step hStep =>
      hNoStart step (List.mem_append_left _ hStep)
    have hLength := State.next?_length last
      (hNoStart _ (List.mem_append_right _ List.mem_cons_self))
    have hStays (j : Nat) (h : t.phase? j = some .finished) : u.phase? j = some .finished := by
      obtain ⟨messages, hTurn⟩ := State.next?_turn last j
      exact hTurn.finished h
    refine ⟨fun j hOpen => hBack j (State.unfinished_back last hLength hOpen), ?_⟩
    cases hFailure : (⟨t, event, u⟩ : Step).taskFailure? p with
    | none =>
      rw [taskFailures_snoc, hFailure, Option.toList_none, List.append_nil]
      exact ⟨hOnce, fun failure hMem => (hEnded failure hMem).imp_right (hStays _)⟩
    | some failure =>
      obtain ⟨j, other⟩ := failure
      obtain ⟨hTask, e, hError, -⟩ := Step.taskFailure?_eq_some.mp hFailure
      have hOpen : t.Unfinished j := State.unfinished_of_move last hTask
      have hNew (failure) (hMem : failure ∈ taskFailures p trace) : failure.1 ≠ j := by
        rintro rfl
        obtain ⟨phase, hPhase, hNot⟩ := hOpen
        exact hNot (Option.some.inj (hPhase.symm.trans (hEnded failure hMem).2))
      rw [taskFailures_snoc, hFailure, Option.toList_some, List.map_append, List.map_singleton]
      refine ⟨List.nodup_append.mpr ⟨hOnce, List.pairwise_singleton _ j, ?_⟩,
        fun failure hMem => ?_⟩
      · rintro i hMem i' hSame rfl
        obtain ⟨failure, hFailed, rfl⟩ := List.mem_map.mp hMem
        exact hNew failure hFailed (List.mem_singleton.mp hSame)
      · rcases List.mem_append.mp hMem with hOld | hSame
        · exact (hEnded failure hOld).imp_right (hStays _)
        · obtain rfl := List.mem_singleton.mp hSame
          exact ⟨hBack j hOpen, State.finished_of_taskError last hTask hError⟩

/-- The task of the latest start is awaited until it has ended. -/
theorem Run.latest_awaited (hRun : Run p (.create p) trace s) (hLatest : k + 1 = s.attempts.length)
    (hUnfinished : s.Unfinished k) : s.awaited? = some k := by
  induction hRun with
  | start => cases hLatest
  | @step trace s t event prior last ih =>
    cases hStart : event.isStart with
    | true =>
      obtain ⟨path, root, rfl⟩ : ∃ path root, event = .start path root := by
        cases event with
        | start path root => exact ⟨path, root, rfl⟩
        | _ => cases hStart
      obtain ⟨hRest, hAccepted⟩ := State.start_of_next? last
      obtain ⟨-, rfl⟩ := State.start_eq hAccepted
      rw [List.length_append, List.length_singleton] at hLatest
      obtain rfl : k = s.attempts.length := by omega
      simp [State.awaited?, State.stop_of_atRest hRest]
    | false =>
      have hLength := State.next?_length last hStart
      have hOpen := State.unfinished_back last hLength hUnfinished
      have hAwaited := ih (hLatest.trans hLength) hOpen
      have hSame (hTask : t.startTask = s.startTask) (hStop : t.stop = s.stop) :
          t.awaited? = some k := by
        rw [State.awaited?, hTask, hStop]
        exact hAwaited
      -- Behind the joining, the stopping awaits no task.
      have hJoining {stop : Stop} (hStop : s.stop = some stop) : stop = .joining k := by
        have hNone := prior.sound.startTask (by simp [hStop])
        simp only [State.awaited?, hStop, hNone] at hAwaited
        split at hAwaited
        · rename_i hJoins
          rw [Option.some.inj hJoins, Option.some.inj hAwaited]
        · cases hAwaited
      cases State.next?_shift last with
      | steady hSteady => exact hSame hSteady.startTask hSteady.stop
      | started _ _ _ _ hPhase => exact absurd (State.lt_length_of_phase? hPhase) (by omega)
      | stopping _ hRest hAfter =>
        subst hAfter
        rw [State.awaited?, State.stop_of_atRest hRest] at hAwaited
        simp [State.awaited?, State.requestStop, hAwaited]
      | promoted _ _ _ _ _ _ _ hTask hStop => exact hSame hTask hStop
      | joined hStop hPhase =>
        obtain ⟨phase, hOther, hNot⟩ := hOpen
        obtain rfl := Stop.joining.inj (hJoining hStop)
        exact absurd (Option.some.inj (hOther.symm.trans hPhase)) hNot
      | took _ hStop => cases hJoining hStop
      | closing hStop hTarget | returned hStop hTarget =>
        rw [hJoining hStop] at hTarget
        cases hTarget
      | forwarding _ _ hTask hStop => exact hSame hTask hStop

/-- The failures of tasks in a run are what its steps show as the status. -/
theorem Run.status_of_taskFailure (hRun : Run p s trace t) {step : Step} (hStep : step ∈ trace)
    (hFailure : step.taskFailure? p = some (k, reason)) : step.after.status = .failed reason := by
  obtain ⟨hTask, e, hError, rfl⟩ := Step.taskFailure?_eq_some.mp hFailure
  cases hError ▸ State.task_move (hRun.next? step hStep) hTask with
  | failed e hAside hFailed => exact hFailed

theorem latestReason_of_same (h : ∀ failure ∈ taskFailures p trace, failure.2 = reason) :
    latestReason p reason trace = reason := by
  unfold latestReason
  cases hLast : (taskFailures p trace).getLast? with
  | none => rfl
  | some failure => exact h failure (List.mem_of_getLast? hLast)

/-- A failure sticks when no task fails with another reason. -/
theorem Run.sticks (hRun : Run p s trace t) (h : Stuck s reason)
    (hNoStart : ∀ step ∈ trace, step.event.isStart = false)
    (hSame : ∀ failure ∈ taskFailures p trace, failure.2 = reason) :
    ∀ step ∈ trace, step.after.status = .failed reason := by
  intro step hStep
  obtain ⟨earlier, later, hTrace⟩ := List.append_of_mem hStep
  have hSplit : trace = (earlier ++ [step]) ++ later := by simp [hTrace]
  have hStuck := (hRun.through hTrace).stuck h fun step hMem =>
    hNoStart step (hSplit ▸ List.mem_append_left _ hMem)
  rw [latestReason_of_same fun failure hMem => hSame failure ?_] at hStuck
  · exact hStuck.status
  · rw [hSplit, taskFailures, List.filterMap_append]
    exact List.mem_append_left _ hMem

/-- When a session that is up fails by an exit, or by the task of the latest start, it stays failed
until the next start, and its reason is that of the last task that fails since. So the first reason
stays, exactly if every task that fails later gives the same one. These tasks were under way when
the session failed, and each of them fails at most once. -/
theorem failures_stick_iff {event : Event} {reason : String} {earlier later : List Step}
    (hRun : Run p (.create p) earlier s) (hStep : s.next? p event = some t)
    (hFailed : (⟨s, event, t⟩ : Step).verdict? p = some (k, .failed reason))
    (hOwn : s.status.isUp = true ∨ k + 1 = s.attempts.length) (hLater : Run p t later u)
    (hNoStart : ∀ step ∈ later, step.event.isStart = false) :
    ((∀ step ∈ later, step.after.status = .failed reason) ↔
      ∀ failure ∈ taskFailures p later, failure.2 = reason) ∧
    t.status = .failed reason ∧ u.status = .failed (latestReason p reason later) ∧
    ((taskFailures p later).map Prod.fst).Nodup ∧
    ∀ failure ∈ taskFailures p later, t.Unfinished failure.1 := by
  obtain ⟨hStatus, hLength, hStop, hKnown⟩ := State.next?_verdict hStep hFailed
  have hStuck : Stuck t reason := by
    refine ⟨hStatus, fun stop j hSome hTarget => ?_⟩
    rw [hStop] at hSome
    have hDown := (hRun.sound.emptied _ _ hSome hTarget).2
    rcases hOwn with hUp | hLatest
    · simp [hDown] at hUp
    · -- The task of the latest start is awaited, and the stopping that ends a session awaits none.
      have hTask : event.task? = some k := by
        cases Step.judgement hFailed with
        | exited _ hUp => simp [hDown] at hUp
        | failed hTask => exact hTask
      have hOpen := State.unfinished_of_move hStep hTask
      have hAwaited := hRun.latest_awaited hLatest hOpen
      simp only [State.awaited?, hSome, hRun.sound.startTask (by simp [hSome])] at hAwaited
      split at hAwaited
      · rename_i hJoins
        rw [Option.some.inj hJoins] at hTarget
        cases hTarget
      · cases hAwaited
  obtain ⟨-, hOnce, hOpen⟩ := hLater.taskFailures_once hNoStart
  refine ⟨⟨fun hSticks failure hMem => ?_, hLater.sticks hStuck hNoStart⟩, hStatus,
    (hLater.stuck hStuck hNoStart).status, hOnce, fun failure hMem => (hOpen failure hMem).1⟩
  obtain ⟨step, hMem, hFailure⟩ := List.mem_filterMap.mp hMem
  have hShown := hLater.status_of_taskFailure hMem hFailure
  rw [hSticks step hMem] at hShown
  exact (Status.failed.inj hShown).symm

/-- A server exits before it answers the first call, and then the answer does not come in time. -/
def exitThenTimeout : Option (List Step × State) :=
  unanswered.bind fun (_, s) =>
    (s.exited (some 1)).follow? plainProfile [.fire (.handshake 0 1), .task 0]

theorem exitThenTimeout_shown :
    unanswered.map (fun (_, s) => (s.attempts.length, s.status)) = some (1, .starting) ∧
    exitThenTimeout.map (fun (later, u) =>
      (later.all fun step : Step => !step.event.isStart, u.status)) =
      some (true, .failed "Language server did not finish initializing within 30s") := by
  decide +kernel

/-- What comes before the exit, the exit, and what comes after it. -/
theorem exitThenTimeout_run :
    ∃ earlier s later u, unanswered = some (earlier, s) ∧ exitThenTimeout = some (later, u) ∧
      Run plainProfile (.create plainProfile) earlier s ∧
      s.next? plainProfile (.exit 0 (some 1)) = some (s.exited (some 1)) ∧
      (⟨s, .exit 0 (some 1), s.exited (some 1)⟩ : Step).verdict? plainProfile =
        some (0, .failed (State.exitReason (some 1))) ∧
      s.status.isUp = true ∧ Run plainProfile (s.exited (some 1)) later u ∧
      (∀ step ∈ later, step.event.isStart = false) ∧
      u.status = .failed "Language server did not finish initializing within 30s" := by
  obtain ⟨hBefore, hAfter⟩ := exitThenTimeout_shown
  obtain ⟨⟨earlier, s⟩, hEval, hShown⟩ := Option.map_eq_some_iff.mp hBefore
  obtain ⟨⟨later, u⟩, hLaterEval, hLaterShown⟩ := Option.map_eq_some_iff.mp hAfter
  simp only [Prod.mk.injEq] at hShown hLaterShown
  obtain ⟨hLength, hStarting⟩ := hShown
  have hUp : s.status.isUp = true := by rw [hStarting]; rfl
  have hLater : Run plainProfile (s.exited (some 1)) later u := by
    unfold exitThenTimeout at hLaterEval
    rw [hEval, Option.bind_some] at hLaterEval
    exact State.run_of_follow? hLaterEval
  refine ⟨earlier, s, later, u, hEval, hLaterEval, State.run_of_follow? hEval, ?_, ?_, hUp, hLater,
    fun step hStep => ?_, hLaterShown.2⟩
  · simp [State.next?, hLength]
  · simp [Step.verdict?, State.told?, hUp]
  · simpa using List.all_eq_true.mp hLaterShown.1 step hStep

theorem exitThenTimeout_replaced :
    ∃ earlier s later u, unanswered = some (earlier, s) ∧ exitThenTimeout = some (later, u) ∧
      (⟨s, .exit 0 (some 1), s.exited (some 1)⟩ : Step).verdict? plainProfile =
        some (0, .failed (State.exitReason (some 1))) ∧ s.status.isUp = true ∧
      (∀ step ∈ later, step.event.isStart = false) ∧
      ((∀ step ∈ later, step.after.status = .failed (State.exitReason (some 1))) ↔
        ∀ failure ∈ taskFailures plainProfile later,
          failure.2 = State.exitReason (some 1)) ∧
      (s.exited (some 1)).status = .failed (State.exitReason (some 1)) ∧
      u.status = .failed (latestReason plainProfile (State.exitReason (some 1)) later) ∧
      ((taskFailures plainProfile later).map Prod.fst).Nodup ∧
      ∀ failure ∈ taskFailures plainProfile later, (s.exited (some 1)).Unfinished failure.1 := by
  obtain ⟨earlier, s, later, u, hEval, hLaterEval, hRun, hStep, hVerdict, hUp, hLater, hNoStart,
    -⟩ := exitThenTimeout_run
  exact ⟨earlier, s, later, u, hEval, hLaterEval, hVerdict, hUp, hNoStart,
    failures_stick_iff hRun hStep hVerdict (.inl hUp) hLater hNoStart⟩

/-- The failure of a task can replace the exit of the server that the session failed by. -/
theorem failure_replaced :
    ¬ ∀ earlier s event t k reason later u, Run plainProfile (.create plainProfile) earlier s →
      s.next? plainProfile event = some t →
      (⟨s, event, t⟩ : Step).verdict? plainProfile = some (k, .failed reason) →
      s.status.isUp = true ∨ k + 1 = s.attempts.length → Run plainProfile t later u →
      (∀ step ∈ later, step.event.isStart = false) → u.status = .failed reason := by
  intro hAlways
  obtain ⟨earlier, s, later, u, -, -, hRun, hStep, hVerdict, hUp, hLater, hNoStart, hStatus⟩ :=
    exitThenTimeout_run
  have hStuck := hAlways _ _ _ _ _ _ _ _ hRun hStep hVerdict (.inl hUp) hLater hNoStart
  rw [hStatus] at hStuck
  exact absurd (Status.failed.inj hStuck) (by decide)

end EditorBridge.Session
