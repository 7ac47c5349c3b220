import EditorBridge.Proofs.Session.Returning
/-!
What stopping leaves behind. It joins the start task, empties the slot and ends the session that was
there. What happens meanwhile changes neither the status that was found when the slot was emptied
nor the slot, because no other task is left that could.
-/
namespace EditorBridge.Session

/-- A step with which the stopping empties the slot. -/
def Step.Empties (step : Step) : Prop :=
  step.event = .stopStep ∧ step.before.stop = some .taking ∧ step.after.slot = none

/-- The slot was emptied, and that was the status then. -/
def Emptied (inner : List Step) (found : Status) : Prop :=
  found ≠ .starting ∧ found ≠ .stopping ∧ ∃ step ∈ inner, step.Empties ∧ step.before.status = found

/-- How far stopping has come. -/
inductive Halting (inner : List Step) (s : State) : Prop where
  | joining {k : Nat} (hStop : s.stop = some (.joining k)) (hTasks : ∀ j, s.Unfinished j → j = k)
  | taking (hStop : s.stop = some .taking) (hTasks : ∀ j, ¬ s.Unfinished j)
  | ending {stop : Stop} {k : Nat} {last : Bool} {found : Status} (hStop : s.stop = some stop)
      (hTarget : stop.target? = some (k, last)) (hTasks : ∀ j, ¬ s.Unfinished j)
      (hEmptied : Emptied inner found) (hLast : last = true ↔ found = .running)
      (hStatus : s.status = if found = .running then .stopping else found)
  | returned {found : Status} (hStop : s.stop = none) (hSlot : s.slot = none)
      (hTask : s.startTask = none) (hDone : s.AllDone) (hEmptied : Emptied inner found)
      (hStatus : s.status = if found = .running then .stopped else found)

variable {p : Profile} {s t u : State} {event : Event} {k : Nat} {last : Bool} {stop : Stop}
  {trace inner : List Step}

theorem Emptied.append {found : Status} (h : Emptied inner found) (step : Step) :
    Emptied (inner ++ [step]) found := by
  obtain ⟨hNotStarting, hNotStopping, emptying, hMem, hRest⟩ := h
  exact ⟨hNotStarting, hNotStopping, emptying, List.mem_append_left _ hMem, hRest⟩

namespace Halting

theorem of_joining (h : Halting inner s) (hStop : s.stop = some (.joining k)) :
    ∀ j, s.Unfinished j → j = k := by
  cases h with
  | joining hJoining hTasks =>
    obtain rfl := Stop.joining.inj (Option.some.inj (hStop.symm.trans hJoining))
    exact hTasks
  | taking hTaking => simp [hStop] at hTaking
  | ending hEnding hTarget =>
    rw [← Option.some.inj (hStop.symm.trans hEnding)] at hTarget
    cases hTarget
  | returned hNone => simp [hStop] at hNone

theorem of_taking (h : Halting inner s) (hStop : s.stop = some .taking) :
    ∀ j, ¬ s.Unfinished j := by
  cases h with
  | joining hJoining => simp [hStop] at hJoining
  | taking _ hTasks => exact hTasks
  | ending hEnding hTarget =>
    rw [← Option.some.inj (hStop.symm.trans hEnding)] at hTarget
    cases hTarget
  | returned hNone => simp [hStop] at hNone

theorem of_ending (h : Halting inner s) (hStop : s.stop = some stop)
    (hTarget : stop.target? = some (k, last)) : (∀ j, ¬ s.Unfinished j) ∧
      ∃ found, Emptied inner found ∧ (last = true ↔ found = .running) ∧
        s.status = if found = .running then .stopping else found := by
  cases h with
  | joining hJoining =>
    rw [Option.some.inj (hStop.symm.trans hJoining)] at hTarget
    cases hTarget
  | taking hTaking =>
    rw [Option.some.inj (hStop.symm.trans hTaking)] at hTarget
    cases hTarget
  | ending hEnding hTarget' hTasks hEmptied hLast hStatus =>
    rw [← Option.some.inj (hStop.symm.trans hEnding), hTarget, Option.some.injEq, Prod.mk.injEq]
      at hTarget'
    exact ⟨hTasks, _, hEmptied, hTarget'.2 ▸ hLast, hStatus⟩
  | returned hNone => simp [hStop] at hNone

/-- Stopping begins with the start task that is held. -/
theorem of_request (hTasks : ∀ k, s.Unfinished k → s.startTask = some k) :
    Halting inner s.requestStop := by
  cases hTask : s.startTask with
  | some k =>
    refine .joining (k := k) (by simp [State.requestStop, hTask]) fun j hUnfinished => ?_
    exact (Option.some.inj ((hTasks j hUnfinished).symm.trans hTask))
  | none =>
    refine .taking (by simp [State.requestStop, hTask]) fun j hUnfinished => ?_
    have hHeld := hTasks j hUnfinished
    simp [hTask] at hHeld

/-- A step that leaves the stopping as it is keeps the status that was found. -/
theorem steady_step (h : Halting inner s) (hSound : s.Sound) (hStop : s.stop.isSome = true)
    (hUnfinished : ∀ j, t.Unfinished j → s.Unfinished j) (hSame : t.stop = s.stop)
    (hStatus : (∀ j, ¬ s.Unfinished j) → s.status.isUp = false → t.status = s.status)
    (step : Step) :
    Halting (inner ++ [step]) t := by
  cases h with
  | joining hJoining hTasks =>
    exact .joining (hSame.trans hJoining) fun j hOpen => hTasks j (hUnfinished j hOpen)
  | taking hTaking hTasks =>
    exact .taking (hSame.trans hTaking) fun j hOpen => hTasks j (hUnfinished j hOpen)
  | ending hEnding hTarget hTasks hEmptied hLast hKept =>
    have hDown := (hSound.emptied _ _ hEnding hTarget).2
    exact .ending (hSame.trans hEnding) hTarget (fun j hOpen => hTasks j (hUnfinished j hOpen))
      (hEmptied.append step) hLast ((hStatus hTasks hDown).trans hKept)
  | returned hNone => simp [hNone] at hStop

/-- The step that empties the slot. -/
theorem took_step (h : Halting inner s) (hSound : s.Sound) (hStop : s.stop = some .taking)
    (hUnfinished : ∀ j, s.takeSlot.Unfinished j → s.Unfinished j) :
    Halting (inner ++ [⟨s, .stopStep, s.takeSlot⟩]) s.takeSlot := by
  have hSome : s.stop.isSome = true := by simp [hStop]
  have hTasks (j : Nat) (hOpen : s.takeSlot.Unfinished j) : False :=
    h.of_taking hStop j (hUnfinished j hOpen)
  have hNotStopping : s.status ≠ .stopping := hSound.not_stopping fun stop hStop' => by
    rw [← Option.some.inj (hStop.symm.trans hStop')]
    rfl
  have hEmptied : Emptied (inner ++ [⟨s, .stopStep, s.takeSlot⟩]) s.status :=
    ⟨hSound.not_starting hStop nofun, hNotStopping, ⟨s, .stopStep, s.takeSlot⟩, by simp,
      ⟨rfl, hStop, State.takeSlot_slot s⟩, rfl⟩
  rcases s.takeSlot_cases with ⟨k, -, hEnding, hStatus⟩ | ⟨-, hNone, hStatus⟩
  · exact .ending hEnding rfl hTasks hEmptied (by simp) hStatus
  · have hTask := (State.takeSlot_startTask s).trans (hSound.startTask hSome)
    have hDone : s.takeSlot.AllDone := by
      rw [State.AllDone, State.takeSlot_forwards]
      exact hSound.allDone hSome
    exact .returned hNone (State.takeSlot_slot s) hTask hDone hEmptied hStatus

/-- Every step brings the stopping on, or leaves it where it is. -/
theorem step (h : Halting inner s) (hSound : s.Sound) (hStop : s.stop.isSome = true)
    (hStep : s.next? p event = some t) : Halting (inner ++ [⟨s, event, t⟩]) t := by
  have hUnfinished (j : Nat) (hOpen : t.Unfinished j) : s.Unfinished j := by
    obtain ⟨messages, hTurn⟩ := State.next?_turn hStep j
    exact hTurn.unfinished_of hOpen hStop
  have hNotRest : s.atRest ≠ true := fun hRest => by
    simp [State.stop_of_atRest hRest] at hStop
  cases State.next?_shift hStep with
  | steady hSteady hStatus =>
    refine h.steady_step hSound hStop hUnfinished hSteady.stop (fun hTasks hDown => ?_) _
    refine hStatus.resolve_right ?_
    rintro ⟨-, hUp | ⟨k, -, hTask⟩⟩
    · simp [hDown] at hUp
    · exact hTasks k hTask
  | started hRest | stopping _ hRest => exact absurd hRest hNotRest
  | promoted _ _ hPhase _ _ _ _ _ hSame =>
    exact h.steady_step hSound hStop hUnfinished hSame
      (fun hTasks _ => absurd ⟨_, hPhase, nofun⟩ (hTasks _)) _
  | joined hJoining hPhase hAfter =>
    subst hAfter
    refine .taking rfl fun j hOpen => ?_
    obtain rfl := h.of_joining hJoining j hOpen
    obtain ⟨phase, hOpen, hNot⟩ := hOpen
    exact hNot (Option.some.inj (hOpen.symm.trans hPhase))
  | took hEvent hTaking hAfter =>
    subst hAfter hEvent
    exact h.took_step hSound hTaking hUnfinished
  | closing hEnding hTarget hEnding' hTarget' hStatus =>
    obtain ⟨hTasks, found, hEmptied, hLast, hKept⟩ := h.of_ending hEnding hTarget
    exact .ending hEnding' hTarget' (fun j hOpen => hTasks j (hUnfinished j hOpen))
      (hEmptied.append _) hLast (hStatus.trans hKept)
  | returned hEnding hTarget hNone hStatus hKeeps =>
    obtain ⟨-, found, hEmptied, hLast, hKept⟩ := h.of_ending hEnding hTarget
    obtain ⟨hSlot, hDown⟩ := hSound.emptied _ _ hEnding hTarget
    have hStatus := hStatus.resolve_right (by simp [hDown])
    have hDone : t.AllDone := by
      rw [State.AllDone, hKeeps.forwards]
      exact hSound.allDone hStop
    refine .returned hNone (hKeeps.slot.trans hSlot)
      (hKeeps.startTask.trans (hSound.startTask hStop))
      hDone (hEmptied.append _) ?_
    by_cases hRunning : found = .running
    · rw [hStatus, if_pos (hLast.mpr hRunning), if_pos hRunning]
    · rw [hStatus, if_neg (hRunning ∘ hLast.mp), hKept, if_neg hRunning, if_neg hRunning]
  | forwarding hStatus _ _ hSame =>
    exact h.steady_step hSound hStop hUnfinished hSame (fun _ _ => hStatus) _

end Halting

/-- While a manager is being stopped, its stopping is somewhere on its way. -/
theorem StopRun.halting (hInner : StopRun p s inner t) (hRun : Run p (.create p) trace s)
    (hHalting : Halting [] s) : Halting inner t := by
  obtain ⟨hInner, hDuring⟩ := hInner
  induction hInner with
  | start => exact hHalting
  | step prior last ih =>
    have hHalting := ih fun step hMem => hDuring step (List.mem_append_left _ hMem)
    have hStop := hDuring _ (List.mem_append_right _ (List.mem_singleton.mpr rfl))
    exact hHalting.step (hRun.trans prior).sound hStop last

/-- With nothing left to stop, stopping takes two steps, and they lead back. -/
theorem State.stop_again (hRest : s.atRest = true) (hSlot : s.slot = none)
    (hTask : s.startTask = none) (hStatus : s.status ≠ .running) :
    s.next? p .stop = some s.requestStop ∧ s.requestStop.next? p .stopStep = some s := by
  have hTaking : s.requestStop.stop = some .taking := by simp [requestStop, hTask]
  have hDone : s.requestStop.AllDone := allDone_of_atRest (s := s) hRest
  have hFree := slotFree_of_allDone hDone
  have hBack : s.requestStop.takeSlot = s := by
    have hStop := stop_of_atRest hRest
    obtain ⟨status, output, settings, server, attempts, startTask, slot, forwards, nextForward,
      stop⟩ := s
    simp_all [requestStop, takeSlot, finishStop]
  exact ⟨if_pos hRest, by simp [next?, stopStep?, hTaking, hFree, hBack]⟩

/-- When a manager is stopped in any run, and no other start task is left than the one that it
holds, then whatever happens meanwhile: the stopping can be brought to its end, and when it has
ended, the slot is empty, no start task is held, and nothing is under way, so that every start is
accepted. The status is `stopped` if the session was running when the slot was emptied, and
otherwise the one that was found then. Stopping again at once leads back to the same state. -/
theorem stop_settles (hRun : Run p (.create p) trace s)
    (hTasks : ∀ k, s.Unfinished k → s.startTask = some k) (hStop : s.next? p .stop = some t)
    (hInner : StopRun p t inner u) :
    (u.stop.isSome = true → Returns p u) ∧
    (u.stop = none → u.slot = none ∧ u.startTask = none ∧ u.status.isSettled = true ∧
      (∀ path root, (u.next? p (.start path root)).isSome = true) ∧
      (∃ step ∈ inner, step.Empties ∧
        u.status = if step.before.status = .running then .stopped else step.before.status) ∧
      ∃ v, u.next? p .stop = some v ∧ v.next? p .stopStep = some u) := by
  have hRun' : Run p (.create p) (trace ++ [⟨s, .stop, t⟩]) t := .step hRun hStop
  obtain rfl : s.requestStop = t := by
    simp only [State.next?] at hStop
    split at hStop
    · exact Option.some.inj hStop
    · cases hStop
  refine ⟨(hRun'.trans hInner.run).returns, fun hNone => ?_⟩
  cases hInner.halting hRun' (.of_request hTasks) with
  | joining hSome | taking hSome | ending hSome => simp [hNone] at hSome
  | @returned found _ hSlot hTask hDone hEmptied hStatus =>
    obtain ⟨hNotStarting, hNotStopping, step, hMem, hEmpties, rfl⟩ := hEmptied
    have hSettled : u.status.isSettled = true := by
      rw [hStatus]
      split
      · rfl
      · cases hFound : step.before.status <;> simp_all [Status.isSettled]
    have hRest := State.atRest_of_allDone hNone hDone
    have hNotRunning : u.status ≠ .running := fun hRunning => by
      simp [hRunning, Status.isSettled] at hSettled
    obtain ⟨hAgain, hBack⟩ := State.stop_again (p := p) hRest hSlot hTask hNotRunning
    refine ⟨hSlot, hTask, hSettled, fun path root => ?_, ⟨step, hMem, hEmpties, hStatus⟩, _,
      hAgain, hBack⟩
    simp [State.next?, State.start, hRest, hSettled, Except.toOption]

/-- A session whose server has not answered the first call. -/
def unanswered : Option (List Step × State) :=
  (State.create plainProfile).follow? plainProfile
    [.start (.ofString "/server") none, .launched 0 (.ok (.fresh, none)), .task 0, .loop 0]

/-- It is stopped; its server exits, and the answer does not come in time. -/
def unansweredStop : Option (List Step × State) :=
  unanswered.bind fun (_, s) => s.requestStop.follow? plainProfile
    [.exit 0 (some 1), .fire (.handshake 0 1), .task 0, .stopStep, .stopStep]

theorem unanswered_shown :
    unanswered.map (fun (_, s) => (s.atRest, s.attempts.length, s.startTask)) =
      some (true, 1, some 0) := by
  decide +kernel

theorem unansweredStop_shown :
    unansweredStop.map (fun (inner, u) =>
      (inner.all fun step : Step => step.before.stop.isSome, u.stop.isNone, u.status)) =
      some (true, true, .failed "Language server did not finish initializing within 30s") := by
  decide +kernel

theorem unansweredStop_settles :
    ∃ trace s inner u, unanswered = some (trace, s) ∧ unansweredStop = some (inner, u) ∧
      (∀ k, s.Unfinished k → s.startTask = some k) ∧
      s.next? plainProfile .stop = some s.requestStop ∧
      StopRun plainProfile s.requestStop inner u ∧ u.stop = none ∧
      u.slot = none ∧ u.startTask = none ∧ u.status.isSettled = true ∧
      (∀ path root, (u.next? plainProfile (.start path root)).isSome = true) ∧
      (∃ step ∈ inner, step.Empties ∧
        u.status = if step.before.status = .running then .stopped else step.before.status) ∧
      ∃ v, u.next? plainProfile .stop = some v ∧ v.next? plainProfile .stopStep = some u := by
  obtain ⟨⟨trace, s⟩, hEval, hShown⟩ := Option.map_eq_some_iff.mp unanswered_shown
  obtain ⟨⟨inner, u⟩, hInnerEval, hInnerShown⟩ := Option.map_eq_some_iff.mp unansweredStop_shown
  simp only [Prod.mk.injEq] at hShown hInnerShown
  obtain ⟨hRest, hLength, hTask⟩ := hShown
  obtain ⟨hDuring, hReturned, -⟩ := hInnerShown
  have hNone := Option.isNone_iff_eq_none.mp hReturned
  have hTasks (k : Nat) (hOpen : s.Unfinished k) : s.startTask = some k := by
    obtain ⟨phase, hPhase, -⟩ := hOpen
    obtain ⟨a, hAttempt, -⟩ := Option.map_eq_some_iff.mp hPhase
    obtain ⟨hLess, -⟩ := List.getElem?_eq_some_iff.mp hAttempt
    obtain rfl : k = 0 := by omega
    exact hTask
  have hStop : s.next? plainProfile .stop = some s.requestStop := if_pos hRest
  have hInner : StopRun plainProfile s.requestStop inner u := by
    unfold unansweredStop at hInnerEval
    rw [hEval, Option.bind_some] at hInnerEval
    exact ⟨State.run_of_follow? hInnerEval, List.all_eq_true.mp hDuring⟩
  obtain ⟨-, hSettles⟩ := stop_settles (State.run_of_follow? hEval) hTasks hStop hInner
  exact ⟨trace, s, inner, u, hEval, hInnerEval, hTasks, hStop, hInner, hNone, hSettles hNone⟩

end EditorBridge.Session
