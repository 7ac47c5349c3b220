import EditorBridge.Proofs.Session.Run
/-!
Exits of superseded servers. An exit is told through the watcher of one attempt, but the watcher
only looks at the status, and the status is that of the session, not of the attempt. So the late
exit of a server that was given up fails the session that was started after it, exactly when this
one is then starting or running, and at most once for every later start.
-/
namespace EditorBridge.Session

/-- The exit that an event tells: the attempt whose watcher tells it, and the code. -/
def State.told? (s : State) : Event → Option (Nat × Option Int)
  | .exit k code => some (k, code)
  | .tellExit k =>
    ((s.attempts[k]?).bind (·.process)).bind fun m =>
      m.tellExit?.map fun (_, exit) => (k, exit.code)
  | _ => none

/-- The exit that a step tells through the watcher of an attempt behind which a later start was
accepted. -/
def Step.staleExit? (step : Step) : Option (Option Int) :=
  (step.before.told? step.event).bind fun (k, code) =>
    if k + 1 < step.before.attempts.length then some code else none

/-- Does a step tell such an exit to a session that is starting or running? -/
def Step.failsByStaleExit (step : Step) : Bool :=
  step.staleExit?.isSome && step.before.status.isUp

variable {p : Profile} {s t : State}

theorem State.exited_onAttempt (s : State) (k : Nat) (f : Attempt → Attempt) (code : Option Int) :
    (s.onAttempt k f).exited code = (s.exited code).onAttempt k f := by
  cases hStatus : s.status <;> simp [exited, onAttempt, hStatus]

/-- What an exit does does not depend on whose watcher tells it. -/
theorem State.told_step {event : Event} {k : Nat} {code : Option Int}
    (h : s.next? p event = some t) (hTold : s.told? event = some (k, code)) :
    t.status = (s.exited code).status ∧ t.output = (s.exited code).output ∧ t.slot = s.slot ∧
      t.attempts.length = s.attempts.length := by
  have hSlot (s : State) : (s.exited code).slot = s.slot := by
    unfold exited
    split <;> rfl
  unfold told? at hTold
  split at hTold
  · simp only [Option.some.injEq, Prod.mk.injEq] at hTold
    obtain ⟨rfl, rfl⟩ := hTold
    simp only [next?] at h
    split at h
    · obtain rfl := Option.some.inj h
      exact ⟨rfl, rfl, hSlot s, (exited_ebbs s _).length⟩
    · cases h
  · rename_i j
    obtain ⟨m, hProcess, hTell⟩ := Option.bind_eq_some_iff.mp h
    obtain ⟨⟨m', exit⟩, hOldest, rfl⟩ := Option.map_eq_some_iff.mp hTell
    simp only [hProcess, Option.bind_some, hOldest, Option.map_some, Option.some.injEq,
      Prod.mk.injEq] at hTold
    obtain ⟨rfl, rfl⟩ := hTold
    simp only [exited_onAttempt]
    exact ⟨rfl, rfl, hSlot s, (onAttempt_length ..).trans (exited_ebbs s _).length⟩
  · cases hTold

/-- An exit fails a session that is up, and shows why. -/
theorem State.exited_of_isUp (h : s.status.isUp = true) (code : Option Int) :
    (s.exited code).status = .failed (exitReason code) ∧
      (s.exited code).output = s.output.append .error (exitReason code) := by
  unfold exited
  cases hStatus : s.status <;> simp_all [Status.isUp]

/-- An exit means nothing to a session that is not up. -/
theorem State.exited_of_not_isUp (h : s.status.isUp = false) (code : Option Int) :
    s.exited code = s := by
  unfold exited
  cases hStatus : s.status <;> simp_all [Status.isUp]

theorem Step.staleExit_told {step : Step} {code : Option Int} (h : step.staleExit? = some code) :
    ∃ k, step.before.told? step.event = some (k, code) ∧ k + 1 < step.before.attempts.length := by
  obtain ⟨⟨k, code'⟩, hTold, hLater⟩ := Option.bind_eq_some_iff.mp h
  simp only at hLater
  split at hLater
  · obtain rfl := Option.some.inj hLater
    exact ⟨k, hTold, ‹_›⟩
  · cases hLater

/-- A stale exit that finds the session up fails it, and the slot stays as it is. -/
theorem Run.staleExit_fails {trace : List Step} (hRun : Run p s trace t) {step : Step}
    (hStep : step ∈ trace) {code : Option Int} (hStale : step.staleExit? = some code)
    (hUp : step.before.status.isUp = true) :
    step.after.status = .failed (State.exitReason code) ∧
      step.after.output = step.before.output.append .error (State.exitReason code) ∧
      step.after.slot = step.before.slot := by
  obtain ⟨k, hTold, -⟩ := Step.staleExit_told hStale
  obtain ⟨hStatus, hOutput, hSlot, -⟩ := State.told_step (hRun.next? step hStep) hTold
  obtain ⟨hFailed, hLine⟩ := State.exited_of_isUp hUp code
  exact ⟨hStatus.trans hFailed, hOutput.trans hLine, hSlot⟩

/-- Every failure by a stale exit uses up a later start: the start made the session come up, and
nothing but the next start makes it come up again. -/
theorem Run.countP_failsByStaleExit {trace : List Step} (hRun : Run p (.create p) trace s) :
    s.attempts.length ≤ 1 ∧ trace.countP (·.failsByStaleExit) = 0 ∨
      trace.countP (·.failsByStaleExit) + s.status.isUp.toNat < s.attempts.length := by
  refine hRun.countP_lt Status.isUp Step.failsByStaleExit (fun _ => State.isUp_of_isSettled) ?_ ?_
  · intro s t event hStep hLength hUp
    rcases State.next?_attempts hStep with ⟨-, hMore⟩ | ⟨-, hSame⟩
    · omega
    · rcases hSame hUp with h | ⟨hStarting, -⟩
      · exact h ▸ hUp
      · rw [hStarting]
        rfl
  · intro step hStep hFails
    simp only [Step.failsByStaleExit, Bool.and_eq_true, Option.isSome_iff_exists] at hFails
    obtain ⟨⟨code, hStale⟩, hUp⟩ := hFails
    obtain ⟨k, hTold, hLater⟩ := Step.staleExit_told hStale
    obtain ⟨hStatus, -, -, hLength⟩ := State.told_step hStep hTold
    refine ⟨by omega, hLength, hUp, ?_⟩
    rw [hStatus, (State.exited_of_isUp hUp code).1]
    rfl

/-- In every run, exits told through the watchers of superseded attempts leave the status and the
output alone exactly if none of them comes while the session is starting or running. One that does
fails the session with its own reason, writes one line and leaves the slot as it is, so that a
running session stays there; and there are at most as many of these as starts after the first. -/
theorem stale_exits_harmless_iff {trace : List Step} (hRun : Run p (.create p) trace s) :
    ((∀ step ∈ trace, ∀ code, step.staleExit? = some code →
        step.after.status = step.before.status ∧ step.after.output = step.before.output) ↔
      ∀ step ∈ trace, step.staleExit?.isSome = true → step.before.status.isUp = false) ∧
    (∀ step ∈ trace, ∀ code, step.staleExit? = some code → step.before.status.isUp = true →
      step.after.status = .failed (State.exitReason code) ∧
      step.after.output = step.before.output.append .error (State.exitReason code) ∧
      step.after.slot = step.before.slot) ∧
    trace.countP (·.failsByStaleExit) ≤ s.attempts.length - 1 := by
  refine ⟨⟨fun hHarmless step hStep hStale => ?_, fun hDown step hStep code hStale => ?_⟩,
    fun step hStep code hStale hUp => hRun.staleExit_fails hStep hStale hUp, ?_⟩
  · obtain ⟨code, hCode⟩ := Option.isSome_iff_exists.mp hStale
    rw [← Bool.not_eq_true]
    intro hUp
    have hFailed := (hRun.staleExit_fails hStep hCode hUp).1
    rw [(hHarmless step hStep code hCode).1] at hFailed
    rw [hFailed] at hUp
    cases hUp
  · obtain ⟨k, hTold, -⟩ := Step.staleExit_told hStale
    obtain ⟨hStatus, hOutput, -, -⟩ := State.told_step (hRun.next? step hStep) hTold
    rw [State.exited_of_not_isUp (hDown step hStep (by rw [hStale]; rfl))] at hStatus hOutput
    exact ⟨hStatus, hOutput⟩
  · rcases hRun.countP_failsByStaleExit with ⟨-, hNone⟩ | hFewer
    · rw [hNone]
      exact Nat.zero_le _
    · omega

/-- A server that does not answer the first request in time is killed, and its exit is seen only
after the next start. -/
def lateExit : Option (List Step × State) :=
  let server : Path := .ofString "/server"
  let process : Process.Manager :=
    { Process.Manager.create ⟨server, [], none, []⟩ Process.standardGrace true with
      status := .running 7 }
  (State.create plainProfile).follow? plainProfile
    [.start server none, .launched 0 (.ok (.fresh, some process)), .task 0,
      .fire (.handshake 0 1), .task 0, .start server none, .sawExit 0 ⟨7, none⟩, .tellExit 0]

theorem lateExit_shown :
    lateExit.map (fun (trace, s) =>
      (trace.countP (·.failsByStaleExit), s.attempts.length, s.status)) =
      some (1, 2, .failed "language server was terminated unexpectedly") := by
  decide +kernel

theorem lateExit_bound :
    ∃ trace s, lateExit = some (trace, s) ∧ trace.countP (·.failsByStaleExit) = 1 ∧
      trace.countP (·.failsByStaleExit) ≤ s.attempts.length - 1 := by
  obtain ⟨⟨trace, s⟩, hEval, hShown⟩ := Option.map_eq_some_iff.mp lateExit_shown
  simp only [Prod.mk.injEq] at hShown
  exact ⟨trace, s, hEval, hShown.1, (stale_exits_harmless_iff (State.run_of_follow? hEval)).2.2⟩

/-- The exit of a superseded server can fail a session that is starting. -/
theorem stale_exit_fails_session :
    ¬ ∀ trace s, Run plainProfile (.create plainProfile) trace s →
      ∀ step ∈ trace, ∀ code, step.staleExit? = some code →
        step.after.status = step.before.status ∧ step.after.output = step.before.output := by
  intro hAlways
  obtain ⟨⟨trace, s⟩, hEval, hShown⟩ := Option.map_eq_some_iff.mp lateExit_shown
  simp only [Prod.mk.injEq] at hShown
  have hRun := State.run_of_follow? hEval
  obtain ⟨step, hStep, hFails⟩ :=
    List.countP_pos_iff.mp (Nat.lt_of_lt_of_eq Nat.one_pos hShown.1.symm)
  simp only [Step.failsByStaleExit, Bool.and_eq_true, Option.isSome_iff_exists] at hFails
  obtain ⟨⟨code, hStale⟩, hUp⟩ := hFails
  have hFailed := (hRun.staleExit_fails hStep hStale hUp).1
  rw [(hAlways trace s hRun step hStep code hStale).1] at hFailed
  rw [hFailed] at hUp
  cases hUp

end EditorBridge.Session
