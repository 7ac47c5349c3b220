import EditorBridge.Proofs.Session.Run
/-!
Tasks of superseded attempts. When an exit has failed a session whose task still waits, the next
start does not end that task. If it succeeds while the status is `starting`, it takes the place of
the later attempt; if it fails, its failure becomes the status, whatever this is. In all other cases
it touches nothing but its own attempt.
-/
namespace EditorBridge.Session

/-- The attempt whose task an event belongs to. -/
def Event.task? : Event → Option Nat
  | .launched k _ => some k
  | .task k => some k
  | _ => none

/-- The error with which a step of a task ends it. -/
def State.taskError? (p : Profile) (s : State) : Event → Option Error
  | .launched _ (.error e) => some e
  | .task k => (s.attempts[k]?).bind fun a =>
    match a.phase, a.client with
    | .connected, some c =>
      match Lsp.handshakeParams p.processId p.clientName a.server.cwd with
      | .error fault => some (.lsp (.noUri fault))
      | .ok params =>
        match c.askHandshake params with
        | (_, .error e) => some (.lsp e)
        | (_, .ok _) => none
    | .handshaking id, some c => (c.takeEnd? id).bind fun (c, outcome) =>
      match c.finishHandshake outcome with
      | (_, .error e) => some (State.handshakeError p e)
      | (_, .ok _) => none
    | .configuring, some c =>
      match c.tellConfiguration (Settings.payload s.settings p.options.settingsSection) with
      | (_, .error e) => some (.lsp e)
      | (_, .ok ()) => none
    | _, _ => none
  | _ => none

/-- Nothing but the status, the slot, the output and one attempt may differ. -/
structure Aside (k : Nat) (s t : State) : Prop where
  settings : t.settings = s.settings
  server : t.server = s.server
  startTask : t.startTask = s.startTask
  forwards : t.forwards = s.forwards
  nextForward : t.nextForward = s.nextForward
  stop : t.stop = s.stop
  length : t.attempts.length = s.attempts.length
  others : ∀ j, j ≠ k → t.attempts[j]? = s.attempts[j]?

/-- What a step of a task does: it goes on or gives its session up, or it fails, or it puts its
session into the slot. -/
inductive TaskMove (k : Nat) (s t : State) : Option Error → Prop where
  | onward (hAside : Aside k s t) (hStatus : t.status = s.status) (hSlot : t.slot = s.slot)
      (hPromotion : ¬ (s.phase? k = some .promoting ∧ s.status = .starting)) : TaskMove k s t none
  | failed (e : Error) (hAside : Aside k s t) (hStatus : t.status = .failed e.message)
      (hSlot : t.slot = s.slot) (hPromotion : s.phase? k ≠ some .promoting) :
      TaskMove k s t (some e)
  | promoted (hPhase : s.phase? k = some .promoting) (hStarting : s.status = .starting)
      (hStatus : t.status = .running) (hSlot : t.slot = some k) : TaskMove k s t none

variable {p : Profile} {s t u : State} {k : Nat}

theorem Aside.trans (hFirst : Aside k s t) (hSecond : Aside k t u) : Aside k s u where
  settings := hSecond.settings.trans hFirst.settings
  server := hSecond.server.trans hFirst.server
  startTask := hSecond.startTask.trans hFirst.startTask
  forwards := hSecond.forwards.trans hFirst.forwards
  nextForward := hSecond.nextForward.trans hFirst.nextForward
  stop := hSecond.stop.trans hFirst.stop
  length := hSecond.length.trans hFirst.length
  others j hNe := (hSecond.others j hNe).trans (hFirst.others j hNe)

namespace State

theorem onAttempt_aside (s : State) (k : Nat) (f : Attempt → Attempt) :
    Aside k s (s.onAttempt k f) :=
  ⟨rfl, rfl, rfl, rfl, rfl, rfl, onAttempt_length s k f,
    fun j hNe => by simp [onAttempt, Ne.symm hNe]⟩

/-- A failing start concerns its own attempt, the status and the output. -/
theorem failStart_aside (s : State) (k : Nat) (e : Error) : Aside k s (s.failStart k e) :=
  ⟨rfl, rfl, rfl, rfl, rfl, rfl, onAttempt_length ..,
    (onAttempt_aside s k (·.giveUp)).others⟩

theorem failStart_move (s : State) (k : Nat) (e : Error) (h : s.phase? k ≠ some .promoting) :
    TaskMove k s (s.failStart k e) (some e) :=
  .failed e (failStart_aside s k e) rfl rfl h

/-- The same after the client has changed. -/
theorem failStart_withClient_move (s : State) (k : Nat) (c : Lsp.Client) (e : Error)
    (h : s.phase? k ≠ some .promoting) :
    TaskMove k s ((s.withClient k c).failStart k e) (some e) :=
  .failed e (.trans (onAttempt_aside ..) (failStart_aside ..)) rfl rfl h

theorem enter_withClient_move (s : State) (k : Nat) (c : Lsp.Client) (phase : Phase)
    (h : s.phase? k ≠ some .promoting) : TaskMove k s ((s.withClient k c).enter k phase) none :=
  .onward (.trans (onAttempt_aside ..) (onAttempt_aside ..)) rfl rfl fun hBoth => h hBoth.1

theorem promote_move (s : State) (k : Nat) (h : s.phase? k = some .promoting) :
    TaskMove k s (s.promote k) none := by
  unfold promote
  split
  · exact .promoted h ‹_› rfl rfl
  · exact .onward (onAttempt_aside ..) rfl rfl fun hBoth => ‹¬ _› hBoth.2

theorem launched_move {result : Except Error (Stream.Transport × Option Process.Manager)}
    (h : s.launched k result = some t) :
    TaskMove k s t (s.taskError? p (.launched k result)) := by
  unfold launched at h
  split at h
  · rename_i hPhase
    have hOther : s.phase? k ≠ some .promoting := by simp [hPhase]
    split at h
    · obtain rfl := Option.some.inj h
      exact .onward (onAttempt_aside ..) rfl rfl fun hBoth => hOther hBoth.1
    · obtain rfl := Option.some.inj h
      exact failStart_move _ _ _ hOther
  · cases h

theorem startStep_move (h : s.startStep? p k = some t) :
    TaskMove k s t (s.taskError? p (.task k)) := by
  unfold startStep? at h
  split at h
  · cases h
  · rename_i a hAttempt
    have hPhase : s.phase? k = some a.phase := by simp [phase?, hAttempt]
    simp only [taskError?, hAttempt, Option.bind_some]
    split at h
    · rename_i c hConnected hClient
      have hOther : s.phase? k ≠ some .promoting := by simp [hPhase, hConnected]
      obtain rfl := Option.some.inj h
      simp only [hConnected, hClient, askHandshake]
      cases Lsp.handshakeParams p.processId p.clientName a.server.cwd with
      | error fault => exact failStart_move _ _ _ hOther
      | ok params =>
        dsimp only
        rcases c.askHandshake params with ⟨c', e | id⟩
        · exact failStart_withClient_move _ _ _ _ hOther
        · exact enter_withClient_move _ _ _ _ hOther
    · rename_i id c hHandshaking hClient
      have hOther : s.phase? k ≠ some .promoting := by simp [hPhase, hHandshaking]
      obtain ⟨⟨c', outcome⟩, hEnd, rfl⟩ := Option.map_eq_some_iff.mp h
      simp only [hHandshaking, hClient, hEnd, Option.bind_some, finishHandshake]
      rcases c'.finishHandshake outcome with ⟨c'', e | handshake⟩
      · exact failStart_withClient_move _ _ _ _ hOther
      · exact enter_withClient_move _ _ _ _ hOther
    · rename_i c hConfiguring hClient
      have hOther : s.phase? k ≠ some .promoting := by simp [hPhase, hConfiguring]
      obtain rfl := Option.some.inj h
      simp only [hConfiguring, hClient, configure]
      rcases c.tellConfiguration (Settings.payload s.settings p.options.settingsSection) with
        ⟨c', e | _⟩
      · exact failStart_withClient_move _ _ _ _ hOther
      · exact enter_withClient_move _ _ _ _ hOther
    · rename_i hPromoting
      split at h
      · obtain rfl := Option.some.inj h
        simp only [hPromoting]
        exact promote_move s k (by simp [hPhase, hPromoting])
      · cases h
    · cases h

/-- Each step of a task is one of the moves. -/
theorem task_move {event : Event} (h : s.next? p event = some t) (hTask : event.task? = some k) :
    TaskMove k s t (s.taskError? p event) := by
  cases event with
  | launched j result =>
    obtain rfl := Option.some.inj hTask
    exact launched_move h
  | task j =>
    obtain rfl := Option.some.inj hTask
    exact startStep_move h
  | _ => cases hTask

/-- A promotion while the session is starting. -/
theorem task_promotes {event : Event} (h : s.next? p event = some t) (hTask : event.task? = some k)
    (hPhase : s.phase? k = some .promoting) (hStarting : s.status = .starting) :
    t.attempts.length = s.attempts.length ∧ t.status = .running := by
  cases event with
  | launched j result =>
    obtain rfl := Option.some.inj hTask
    simp [next?, launched, hPhase] at h
  | task j =>
    obtain rfl := Option.some.inj hTask
    obtain ⟨-, rfl⟩ := promote_eq h hPhase
    exact ⟨promote_length s j, by simp [promote, hStarting]⟩
  | _ => cases hTask

end State

/-- The attempt whose task takes a step after a later start was accepted. -/
def Step.staleTask? (step : Step) : Option Nat :=
  step.event.task?.bind fun k => if k + 1 < step.before.attempts.length then some k else none

/-- Does a step of a task put its session into the slot? -/
def Step.promotes (step : Step) (k : Nat) : Bool :=
  step.before.phase? k == some .promoting && step.before.status == .starting

/-- Does a step put the session of a superseded attempt into the slot? -/
def Step.promotesStale (step : Step) : Bool := step.staleTask?.any step.promotes

theorem Step.staleTask_task {step : Step} (h : step.staleTask? = some k) :
    step.event.task? = some k ∧ k + 1 < step.before.attempts.length := by
  obtain ⟨j, hTask, hLater⟩ := Option.bind_eq_some_iff.mp h
  split at hLater
  · obtain rfl := Option.some.inj hLater
    exact ⟨hTask, ‹_›⟩
  · cases hLater

theorem Step.promotes_iff {step : Step} : step.promotes k = true ↔
    step.before.phase? k = some .promoting ∧ step.before.status = .starting := by
  simp [Step.promotes]

/-- Every promotion uses up a start: a promotion needs the status `starting`, and only the next
start brings that back. -/
theorem Run.countP_promotesStale {trace : List Step} (hRun : Run p (.create p) trace s) :
    s.attempts.length ≤ 1 ∧ trace.countP (·.promotesStale) = 0 ∨
      trace.countP (·.promotesStale) + (s.status == .starting).toNat < s.attempts.length := by
  refine hRun.countP_lt (· == .starting) Step.promotesStale ?_ ?_ ?_
  · intro status hSettled
    cases status <;> simp_all [Status.isSettled]
  · intro s t event hStep hLength hStarting
    rw [beq_iff_eq] at hStarting ⊢
    rcases State.next?_attempts hStep with ⟨-, hMore⟩ | ⟨-, hSame⟩
    · omega
    · rcases hSame (by rw [hStarting]; rfl) with h | ⟨hBefore, -⟩
      · exact h ▸ hStarting
      · exact hBefore
  · intro step hStep hPromotes
    obtain ⟨k, hStale, hPromotes⟩ := (Option.any_eq_true _ _).mp hPromotes
    obtain ⟨hTask, hLater⟩ := Step.staleTask_task hStale
    obtain ⟨hPhase, hStarting⟩ := Step.promotes_iff.mp hPromotes
    obtain ⟨hLength, hStatus⟩ := State.task_promotes hStep hTask hPhase hStarting
    exact ⟨by omega, hLength, by simp [hStarting], by simp [hStatus]⟩

/-- In every run, the tasks of superseded attempts leave the status and the slot alone exactly if
none of them puts its session into the slot, which it can while the status is `starting`, and none
of them fails, unless the status tells the same failure already. One that does puts up the session
of its own attempt or makes its own failure the status; every other step touches its own attempt
alone. And there are at most as many sessions put up that way as starts after the first. -/
theorem stale_tasks_harmless_iff {trace : List Step} (hRun : Run p (.create p) trace s) :
    ((∀ step ∈ trace, ∀ k, step.staleTask? = some k →
        step.after.status = step.before.status ∧ step.after.slot = step.before.slot) ↔
      ∀ step ∈ trace, ∀ k, step.staleTask? = some k → step.promotes k = false ∧
        ∀ e, step.before.taskError? p step.event = some e →
          step.before.status = .failed e.message) ∧
    (∀ step ∈ trace, ∀ k, step.staleTask? = some k →
      (step.promotes k = true → step.after.status = .running ∧ step.after.slot = some k) ∧
      (∀ e, step.before.taskError? p step.event = some e →
        step.after.status = .failed e.message ∧ step.after.slot = step.before.slot) ∧
      (step.promotes k = false → Aside k step.before step.after)) ∧
    trace.countP (·.promotesStale) ≤ s.attempts.length - 1 := by
  have hMoves : ∀ step ∈ trace, ∀ k, step.staleTask? = some k →
      TaskMove k step.before step.after (step.before.taskError? p step.event) :=
    fun step hStep k hStale =>
      State.task_move (hRun.next? step hStep) (Step.staleTask_task hStale).1
  have hNot {step : Step} {k : Nat} (h : ¬ (step.before.phase? k = some .promoting ∧
      step.before.status = .starting)) : step.promotes k = false := by
    rw [← Bool.not_eq_true, Step.promotes_iff]
    exact h
  refine ⟨⟨fun hHarmless step hStep k hStale => ?_, fun hGuard step hStep k hStale => ?_⟩,
    fun step hStep k hStale => ?_, ?_⟩
  · obtain ⟨hStatus, -⟩ := hHarmless step hStep k hStale
    -- The error is named first, so that each move can say which one it is.
    generalize hError : step.before.taskError? p step.event = error
    cases hError ▸ hMoves step hStep k hStale with
    | onward hAside hSame hSlot hPromotion => exact ⟨hNot hPromotion, by simp⟩
    | failed e hAside hFailed hSlot hPhase =>
      refine ⟨hNot fun h => hPhase h.1, fun e' he => ?_⟩
      rw [← hStatus, hFailed, Option.some.inj he]
    | promoted hPhase hStarting hRunning hSlot =>
      rw [hRunning, hStarting] at hStatus
      cases hStatus
  · obtain ⟨hPromotes, hErrors⟩ := hGuard step hStep k hStale
    generalize hError : step.before.taskError? p step.event = error at hErrors
    cases hError ▸ hMoves step hStep k hStale with
    | onward hAside hSame hSlot hPromotion => exact ⟨hSame, hSlot⟩
    | failed e hAside hFailed hSlot hPhase => exact ⟨hFailed.trans (hErrors e rfl).symm, hSlot⟩
    | promoted hPhase hStarting hRunning hSlot =>
      rw [Step.promotes_iff.mpr ⟨hPhase, hStarting⟩] at hPromotes
      cases hPromotes
  · generalize hError : step.before.taskError? p step.event = error
    cases hError ▸ hMoves step hStep k hStale with
    | onward hAside hSame hSlot hPromotion =>
      exact ⟨fun h => absurd (Step.promotes_iff.mp h) hPromotion, by simp, fun _ => hAside⟩
    | failed e hAside hFailed hSlot hPhase =>
      refine ⟨fun h => absurd (Step.promotes_iff.mp h).1 hPhase, fun e' he => ?_, fun _ => hAside⟩
      exact ⟨Option.some.inj he ▸ hFailed, hSlot⟩
    | promoted hPhase hStarting hRunning hSlot =>
      refine ⟨fun _ => ⟨hRunning, hSlot⟩, by simp, fun h => ?_⟩
      rw [Step.promotes_iff.mpr ⟨hPhase, hStarting⟩] at h
      cases h
  · rcases hRun.countP_promotesStale with ⟨-, hNone⟩ | hFewer
    · rw [hNone]
      exact Nat.zero_le _
    · omega

/-- The first of two servers answers only after its exit was told and the second start was
accepted. -/
def lateAnswer : Option (List Step × State) :=
  let server : Path := .ofString "/server"
  let answer := "\x7b\"jsonrpc\":\"2.0\",\"id\":1,\"result\":\x7b\"capabilities\":\x7b\x7d\x7d\x7d"
  (State.create plainProfile).follow? plainProfile
    [.start server none, .launched 0 (.ok (.fresh, none)), .task 0, .exit 0 (some 1),
      .start server none, .launched 1 (.ok (.fresh, none)), .task 1,
      .connection 0 (·.deliver (Utf8.encode (Frame.encode answer).toList)),
      .loop 0, .loop 0, .loop 0, .task 0, .task 0, .task 0]

theorem lateAnswer_shown :
    lateAnswer.map (fun (trace, s) =>
      (trace.countP (·.promotesStale), s.attempts.length, s.status, s.slot)) =
      some (1, 2, .running, some 0) := by
  decide +kernel

theorem lateAnswer_bound :
    ∃ trace s, lateAnswer = some (trace, s) ∧ trace.countP (·.promotesStale) = 1 ∧
      trace.countP (·.promotesStale) ≤ s.attempts.length - 1 := by
  obtain ⟨⟨trace, s⟩, hEval, hShown⟩ := Option.map_eq_some_iff.mp lateAnswer_shown
  simp only [Prod.mk.injEq] at hShown
  exact ⟨trace, s, hEval, hShown.1, (stale_tasks_harmless_iff (State.run_of_follow? hEval)).2.2⟩

/-- The task of a superseded attempt can take the place of the later one. -/
theorem stale_task_takes_slot :
    ¬ ∀ trace s, Run plainProfile (.create plainProfile) trace s →
      ∀ step ∈ trace, ∀ k, step.staleTask? = some k →
        step.after.status = step.before.status ∧ step.after.slot = step.before.slot := by
  intro hAlways
  obtain ⟨⟨trace, s⟩, hEval, hShown⟩ := Option.map_eq_some_iff.mp lateAnswer_shown
  simp only [Prod.mk.injEq] at hShown
  have hRun := State.run_of_follow? hEval
  obtain ⟨step, hStep, hPromotes⟩ :=
    List.countP_pos_iff.mp (Nat.lt_of_lt_of_eq Nat.one_pos hShown.1.symm)
  obtain ⟨k, hStale, hPromotes⟩ := (Option.any_eq_true _ _).mp hPromotes
  obtain ⟨hPhase, hStarting⟩ := Step.promotes_iff.mp hPromotes
  obtain ⟨-, hRunning⟩ := State.task_promotes (hRun.next? step hStep)
    (Step.staleTask_task hStale).1 hPhase hStarting
  rw [(hAlways trace s hRun step hStep k hStale).1, hStarting] at hRunning
  cases hRunning

end EditorBridge.Session
