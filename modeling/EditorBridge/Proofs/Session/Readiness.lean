import EditorBridge.Proofs.Session.Verdicts
/-!
What a caller is told who waits for readiness. Every accepted start gives a handle to wait on, but
all handles look at one status, and see only what it is at that moment. So a caller learns the last
verdict since the latest start, and that is true of his own start exactly if this one has earned
every verdict that comes through another attempt.
-/
namespace EditorBridge.Session

/-- The handshake of an attempt succeeds in a step. -/
def Step.Shakes (step : Step) (k : Nat) : Prop :=
  ∃ id, step.before.phase? k = some (.handshaking id) ∧ step.after.phase? k = some .configuring

/-- A verdict is true of a start: its own handshake has succeeded, or it was made to fail for that
reason, through its own attempt or as the latest start. -/
def Earned (p : Profile) (trace : List Step) (k : Nat) : Verdict → Prop
  | .up => ∃ step ∈ trace, step.Shakes k
  | .failed reason => ∃ step ∈ trace, ∃ j, step.verdict? p = some (j, .failed reason) ∧
      (j = k ∨ k + 1 = step.before.attempts.length)

/-- Whoever waits on the handle of a start now is told nothing that is not true of it. -/
structure Truthful (p : Profile) (trace : List Step) (s : State) (k : Nat) : Prop where
  up : s.status.readiness? = some (.ok ()) → Earned p trace k .up
  failed : ∀ reason, s.status.readiness? = some (.error (.startFailed reason)) →
    Earned p trace k (.failed reason)

variable {p : Profile} {s t : State} {event : Event} {k : Nat} {verdict : Verdict}
  {trace : List Step} {messages : List Rpc.Utterance}

theorem Status.readiness?_ok {status : Status} :
    status.readiness? = some (.ok ()) ↔ status = Verdict.up.status := by
  cases status <;> simp [readiness?, Verdict.status]

theorem Status.readiness?_startFailed {status : Status} {reason : String} :
    status.readiness? = some (.error (.startFailed reason)) ↔
      status = (Verdict.failed reason).status := by
  cases status <;> simp [readiness?, Verdict.status]

theorem Verdict.status_injective {first second : Verdict} (h : first.status = second.status) :
    first = second := by
  cases first <;> cases second <;> simp_all [Verdict.status]

theorem Earned.append {later : List Step} (h : Earned p trace k verdict) :
    Earned p (trace ++ later) k verdict := by
  cases verdict with
  | up =>
    obtain ⟨step, hStep, hShakes⟩ := h
    exact ⟨step, List.mem_append_left _ hStep, hShakes⟩
  | failed reason =>
    obtain ⟨step, hStep, hFailed⟩ := h
    exact ⟨step, List.mem_append_left _ hStep, hFailed⟩

/-- Only a handshake that succeeds lets a task go on. -/
theorem Turn.shakes (hTurn : Turn p s event t k messages)
    (h : t.phase? k = some .configuring ∨ t.phase? k = some .promoting) :
    (s.phase? k = some .configuring ∨ s.phase? k = some .promoting) ∨
      (⟨s, event, t⟩ : Step).Shakes k := by
  cases hTurn with
  | absent _ hAfter => simp [State.phase?_eq, hAfter] at h
  | begun _ _ hAfter | connected _ hAfter | asked _ _ hAfter | placed _ _ _ hAfter
    | gaveUp _ _ _ _ hAfter => simp [State.phase?_of_face? hAfter] at h
  | greeted hBefore _ _ hAfter =>
    exact .inr ⟨_, State.phase?_of_face? hBefore, State.phase?_of_face? hAfter⟩
  | configured hBefore => exact .inl (.inl (State.phase?_of_face? hBefore))
  | calm hBefore hAfter | closed _ hBefore hAfter | told _ _ hBefore _ _ _ hAfter
    | shutDown _ hBefore _ hAfter | left _ hBefore _ hAfter =>
    rw [State.phase?_of_face? hAfter] at h
    rw [State.phase?_of_face? hBefore]
    exact .inl h

/-- A task that waits for its promotion has come through its handshake. -/
theorem Run.shook (hRun : Run p (.create p) trace s)
    (h : s.phase? k = some .configuring ∨ s.phase? k = some .promoting) :
    ∃ step ∈ trace, step.Shakes k := by
  induction hRun with
  | start => rcases h with h | h <;> simp [State.phase?, State.create] at h
  | @step trace s t event prior last ih =>
    obtain ⟨messages, hTurn⟩ := State.next?_turn last k
    rcases hTurn.shakes h with hBefore | hNow
    · obtain ⟨step, hStep, hShakes⟩ := ih hBefore
      exact ⟨step, List.mem_append_left _ hStep, hShakes⟩
    · exact ⟨_, List.mem_append_right _ List.mem_cons_self, hNow⟩

/-- The session of a start comes up through its own attempt only behind its own handshake. -/
theorem Run.earned_own {step : Step} (hRun : Run p (.create p) trace step.before)
    (hVerdict : step.verdict? p = some (k, verdict)) : Earned p (trace ++ [step]) k verdict := by
  cases verdict with
  | failed reason =>
    exact ⟨step, List.mem_append_right _ List.mem_cons_self, k, hVerdict, .inl rfl⟩
  | up =>
    cases Step.judgement hVerdict with
    | promoted _ hPromotes =>
      obtain ⟨earlier, hStep, hShakes⟩ := hRun.shook (.inr (Step.promotes_iff.mp hPromotes).1)
      exact ⟨earlier, List.mem_append_left _ hStep, hShakes⟩

/-- A status that tells a verdict tells the last one, and that came behind the latest start. -/
theorem Run.judged (hRun : Run p (.create p) trace s) (hStatus : s.status = verdict.status) :
    ∃ earlier step later j, trace = earlier ++ step :: later ∧
      step.verdict? p = some (j, verdict) ∧ (∀ other ∈ later, other.verdict? p = none) ∧
      step.before.attempts.length = s.attempts.length := by
  induction hRun with
  | start => cases verdict <;> cases hStatus
  | @step trace s t event prior last ih =>
    cases hVerdict : (⟨s, event, t⟩ : Step).verdict? p with
    | some decided =>
      obtain ⟨j, other⟩ := decided
      obtain ⟨hOther, hLength, -, -⟩ := State.next?_verdict last hVerdict
      obtain rfl := Verdict.status_injective (hStatus.symm.trans hOther)
      exact ⟨trace, _, [], j, rfl, hVerdict, by simp, hLength.symm⟩
    | none =>
      cases State.next?_undecided last hVerdict with
      | begun _ hStarting => rw [hStarting] at hStatus; cases verdict <;> cases hStatus
      | ended hEnded =>
        rcases hEnded with hStopping | hStopped <;> cases verdict <;>
          simp_all [Verdict.status]
      | kept hSame hLength =>
        obtain ⟨earlier, step, later, j, rfl, hDecided, hLast, hStart⟩ := ih (hSame ▸ hStatus)
        refine ⟨earlier, step, later ++ [⟨s, event, t⟩], j, by simp, hDecided, fun other hMem => ?_,
          hStart.trans hLength.symm⟩
        rcases List.mem_append.mp hMem with hOld | hNew
        · exact hLast other hOld
        · exact List.mem_singleton.mp hNew ▸ hVerdict

/-- Whatever is told of a start whose verdicts are all earned is true of it. -/
theorem Run.truthful (hRun : Run p (.create p) trace s)
    (h : ∀ earlier step later, trace = earlier ++ step :: later → ∀ j verdict,
      step.verdict? p = some (j, verdict) → step.before.attempts.length = s.attempts.length →
        Earned p (earlier ++ [step]) k verdict) : Truthful p trace s k := by
  have hEarned (verdict : Verdict) (hStatus : s.status = verdict.status) :
      Earned p trace k verdict := by
    obtain ⟨earlier, step, later, j, rfl, hVerdict, -, hLength⟩ := hRun.judged hStatus
    have hAppend : Earned p ((earlier ++ [step]) ++ later) k verdict :=
      (h earlier step later rfl j verdict hVerdict hLength).append
    rwa [List.append_assoc, List.singleton_append] at hAppend
  exact ⟨fun hOk => hEarned .up (Status.readiness?_ok.mp hOk),
    fun reason hFailed => hEarned (.failed reason) (Status.readiness?_startFailed.mp hFailed)⟩

/-- In every run, whoever waits on the handle of a start, from its acceptance on and however late,
is told only what is true of that start, exactly if the start has earned every verdict that comes
through another attempt. What is told is the last verdict behind the latest start; so with one start
it is always true. -/
theorem waits_truthful_iff (hRun : Run p (.create p) trace s) (k : Nat) :
    ((∀ earlier later t, trace = earlier ++ later → Run p (.create p) earlier t →
        k < t.attempts.length → Truthful p earlier t k) ↔
      ∀ earlier step later, trace = earlier ++ step :: later → ∀ j verdict, j ≠ k →
        step.verdict? p = some (j, verdict) → k < step.before.attempts.length →
          Earned p (earlier ++ [step]) k verdict) ∧
    (∀ verdict : Verdict, s.status = verdict.status → ∃ earlier step later j,
      trace = earlier ++ step :: later ∧ step.verdict? p = some (j, verdict) ∧
        (∀ other ∈ later, other.verdict? p = none) ∧
        step.before.attempts.length = s.attempts.length) ∧
    (s.attempts.length = 1 → Truthful p trace s 0) := by
  refine ⟨⟨fun hTrue earlier step later hTrace j verdict _ hVerdict hKnown => ?_,
    fun hEarned earlier later t hTrace hPrefix hKnown => hPrefix.truthful ?_⟩,
    fun verdict => hRun.judged, fun hOne => hRun.truthful ?_⟩
  · have hThrough := hRun.through hTrace
    obtain ⟨hStatus, hLength, -, -⟩ :=
      State.next?_verdict (hRun.next? step (by simp [hTrace])) hVerdict
    have hTruthful := hTrue (earlier ++ [step]) later step.after (by simp [hTrace]) hThrough
      (hLength ▸ hKnown)
    cases verdict with
    | up => exact hTruthful.up (Status.readiness?_ok.mpr hStatus)
    | failed reason => exact hTruthful.failed reason (Status.readiness?_startFailed.mpr hStatus)
  · intro front step back hFront j verdict hVerdict hLength
    by_cases hOwn : j = k
    · subst hOwn
      exact (hPrefix.before hFront).earned_own hVerdict
    · exact hEarned front step (back ++ later) (by simp [hTrace, hFront]) j verdict hOwn hVerdict
        (hLength ▸ hKnown)
  · intro front step back hFront j verdict hVerdict hLength
    obtain ⟨-, -, -, hKnown⟩ := State.next?_verdict (hRun.next? step (by simp [hFront])) hVerdict
    obtain rfl : j = 0 := by omega
    exact (hRun.before hFront).earned_own hVerdict

/-- The launch of the first server fails; the second server is launched and comes up. -/
def secondComesUp : Option (List Step × State) :=
  let server : Path := .ofString "/server"
  (State.create plainProfile).follow? plainProfile
    [.start server none, .launched 0 (.error (.launch (.spawn server "not found"))),
      .start server none, .launched 1 (.ok (.fresh, none)), .task 1, .loop 1,
      .connection 1 (answerCall 1 "\x7b\"capabilities\":\x7b\x7d\x7d"), .loop 1, .loop 1,
      .task 1, .task 1, .task 1]

theorem secondComesUp_shown :
    secondComesUp.map (fun (trace, s) => (s.status, s.attempts.length,
      trace.all fun step : Step => step.after.phase? 0 != some .configuring)) =
      some (.running, 2, true) := by
  decide +kernel

theorem secondComesUp_told :
    ∃ trace s, secondComesUp = some (trace, s) ∧ s.attempts.length = 2 ∧ s.status = .running ∧
      ((∀ earlier later t, trace = earlier ++ later →
          Run plainProfile (.create plainProfile) earlier t → 0 < t.attempts.length →
          Truthful plainProfile earlier t 0) ↔
        ∀ earlier step later, trace = earlier ++ step :: later → ∀ j verdict, j ≠ 0 →
          step.verdict? plainProfile = some (j, verdict) → 0 < step.before.attempts.length →
          Earned plainProfile (earlier ++ [step]) 0 verdict) ∧
      (∀ verdict : Verdict, s.status = verdict.status → ∃ earlier step later j,
        trace = earlier ++ step :: later ∧ step.verdict? plainProfile = some (j, verdict) ∧
          (∀ other ∈ later, other.verdict? plainProfile = none) ∧
          step.before.attempts.length = s.attempts.length) ∧
      (s.attempts.length = 1 → Truthful plainProfile trace s 0) := by
  obtain ⟨⟨trace, s⟩, hEval, hShown⟩ := Option.map_eq_some_iff.mp secondComesUp_shown
  simp only [Prod.mk.injEq] at hShown
  obtain ⟨hRunning, hLength, -⟩ := hShown
  exact ⟨trace, s, hEval, hLength, hRunning, waits_truthful_iff (State.run_of_follow? hEval) 0⟩

/-- A caller who waits on the handle of a start that has failed can be told that the session is up,
when a later start has come up by then. -/
theorem failed_start_reported_ready :
    ¬ ∀ trace s k, Run plainProfile (.create plainProfile) trace s → k < s.attempts.length →
      Truthful plainProfile trace s k := by
  intro hAlways
  obtain ⟨⟨trace, s⟩, hEval, hShown⟩ := Option.map_eq_some_iff.mp secondComesUp_shown
  simp only [Prod.mk.injEq] at hShown
  obtain ⟨hRunning, hLength, hNever⟩ := hShown
  have hTruthful := hAlways trace s 0 (State.run_of_follow? hEval) (by omega)
  obtain ⟨step, hStep, id, -, hShakes⟩ := hTruthful.up (Status.readiness?_ok.mpr hRunning)
  have hNot := List.all_eq_true.mp hNever step hStep
  simp [hShakes] at hNot

end EditorBridge.Session
