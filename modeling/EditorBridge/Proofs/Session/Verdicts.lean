import EditorBridge.Proofs.Session.Slot
import EditorBridge.Proofs.Session.StaleExits
/-!
What is decided about sessions. A session comes up by the promotion of a task, and it fails by the
exit of its server or by an error of its task. Each of these is a verdict, and comes through one
attempt. Apart from verdicts, only a start and the stopping change the status.
-/
namespace EditorBridge.Session

inductive Verdict where
  | up
  | failed (reason : String)
deriving DecidableEq, Repr

def Verdict.status : Verdict → Status
  | .up => .running
  | .failed reason => .failed reason

/-- Does an event begin an attempt? -/
def Event.isStart : Event → Bool
  | .start .. => true
  | _ => false

/-- The verdict of a step, with the attempt that it comes through. An exit decides nothing about a
session that is not up. -/
def Step.verdict? (p : Profile) (step : Step) : Option (Nat × Verdict) :=
  match step.before.told? step.event with
  | some (k, code) =>
    if step.before.status.isUp then some (k, .failed (State.exitReason code)) else none
  | none =>
    step.event.task?.bind fun k =>
      match step.before.taskError? p step.event with
      | some e => some (k, .failed e.message)
      | none => if step.promotes k then some (k, .up) else none

/-- Where the verdict of a step comes from. -/
inductive Judgement (p : Profile) (step : Step) (k : Nat) : Verdict → Prop where
  | exited {code : Option Int} (hTold : step.before.told? step.event = some (k, code))
      (hUp : step.before.status.isUp = true) :
      Judgement p step k (.failed (State.exitReason code))
  | failed {e : Error} (hTask : step.event.task? = some k)
      (hError : step.before.taskError? p step.event = some e) :
      Judgement p step k (.failed e.message)
  | promoted (hTask : step.event.task? = some k) (hPromotes : step.promotes k = true) :
      Judgement p step k .up

/-- A step at which a start or the stopping has the say about the status, or nobody. -/
inductive Undecided (s t : State) : Prop where
  | begun (hSettled : s.status.isSettled = true) (hStatus : t.status = .starting)
      (hLength : t.attempts.length = s.attempts.length + 1)
  | ended (hStatus : t.status = .stopping ∨ t.status = .stopped)
      (hLength : t.attempts.length = s.attempts.length)
  | kept (hStatus : t.status = s.status) (hLength : t.attempts.length = s.attempts.length)

variable {p : Profile} {s t : State} {event : Event} {k : Nat} {verdict : Verdict}

/-- Every verdict comes from one of these. -/
theorem Step.judgement {step : Step} (h : step.verdict? p = some (k, verdict)) :
    Judgement p step k verdict := by
  unfold Step.verdict? at h
  split at h
  · rename_i j code hTold
    split at h
    · cases h
      exact .exited hTold ‹_›
    · cases h
  · obtain ⟨j, hTask, hDecided⟩ := Option.bind_eq_some_iff.mp h
    split at hDecided
    · rename_i e hError
      cases hDecided
      exact .failed hTask hError
    · split at hDecided
      · cases hDecided
        exact .promoted hTask ‹_›
      · cases hDecided

namespace State

/-- What the error output of a server brings about tells no exit. -/
theorem onMonitor_exited (m : Process.Manager) (pid : Nat)
    (f : Process.ErrorLines → Process.ErrorLines × List String) (exit : Process.Exit) :
    .exited exit ∉ (m.onMonitor pid f).2 := by
  unfold Process.Manager.onMonitor
  split
  · exact List.not_mem_nil
  · dsimp only
    split <;> split <;> simp

theorem graceOver_exited (m : Process.Manager) (exit : Process.Exit) :
    .exited exit ∉ m.graceOver.2 := by
  unfold Process.Manager.graceOver Process.Manager.finishStop Process.Manager.dropMonitor
  split
  · exact List.not_mem_nil
  · dsimp only
    split
    · simp
    · dsimp only
      split <;> simp

/-- Without an exit, what a process manager brings about leaves the status alone. -/
theorem onProcess_status (s : State) (k : Nat)
    {f : Process.Manager → Process.Manager × List Process.Effect}
    (h : ∀ m exit, .exited exit ∉ (f m).2) : (s.onProcess k f).status = s.status := by
  have hEffect (s : State) (effect : Process.Effect) (hNot : ∀ exit, effect ≠ .exited exit) :
      (s.takeEffect k effect).status = s.status := by
    cases effect with
    | exited exit => exact absurd rfl (hNot exit)
    | _ => rfl
  have hAll (effects : List Process.Effect) (hNot : ∀ exit, .exited exit ∉ effects) (s : State) :
      (effects.foldl (fun s e => s.takeEffect k e) s).status = s.status := by
    induction effects generalizing s with
    | nil => rfl
    | cons effect effects ih =>
      refine (ih (fun exit hMem => hNot exit (List.mem_cons_of_mem _ hMem)) _).trans ?_
      exact hEffect s effect fun exit hSame => hNot exit (hSame ▸ List.mem_cons_self)
  unfold onProcess
  split
  · rfl
  · exact hAll _ (h _) _

theorem finishStop_status (s : State) (last : Bool) :
    (s.finishStop last).status = .stopped ∨ (s.finishStop last).status = s.status := by
  cases last with
  | true => exact .inl rfl
  | false => exact .inr rfl

theorem terminate_status (s : State) (k : Nat) (last : Bool) :
    (s.terminate k last).status = .stopped ∨ (s.terminate k last).status = s.status := by
  unfold terminate
  split
  · exact finishStop_status s last
  · split
    · exact finishStop_status s last
    · exact .inr rfl

theorem continueClosing_status (s : State) (k : Nat) (last : Bool) (c : Lsp.Client)
    (progress : Lsp.Client.Closing) :
    (s.continueClosing k last c progress).status = .stopped ∨
      (s.continueClosing k last c progress).status = s.status := by
  unfold continueClosing
  split
  · exact terminate_status (s.withClient k c) k last
  · exact .inr rfl

theorem stopStep_status (h : s.stopStep? = some t) :
    (t.status = .stopping ∨ t.status = .stopped) ∨ t.status = s.status := by
  cases stopStep_cases h with
  | joined => exact .inr rfl
  | took =>
    rcases takeSlot_cases s with ⟨k, -, -, hStatus⟩ | ⟨-, -, hStatus⟩ <;> rw [hStatus] <;> split
    · exact .inl (.inl rfl)
    · exact .inr rfl
    · exact .inl (.inr rfl)
    · exact .inr rfl
  | absent => exact (terminate_status ..).imp_left .inr
  | released | closed => exact (continueClosing_status ..).imp_left .inr
  | ended => exact (finishStop_status ..).imp_left .inr

theorem fire_status {timer : Timer} (hTimer : timer ∈ s.timers) :
    (s.fire timer).status = .stopped ∨ (s.fire timer).status = s.status := by
  cases timer with
  | handshake j id => exact .inr rfl
  | shutdown j id => exact .inr rfl
  | flush j =>
    rcases fire_flush hTimer with hSame | ⟨stop, last, c, shutdown, -, -, -, hFlush⟩
    · exact .inr (by rw [hSame])
    · rw [hFlush]
      exact continueClosing_status ..
  | grace j =>
    obtain ⟨last, hStop⟩ := stop_of_grace_mem hTimer
    simp only [fire, hStop]
    rw [← onProcess_status s j graceOver_exited]
    exact finishStop_status ..

theorem lt_length_of_phase? {phase : Phase} (h : s.phase? k = some phase) :
    k < s.attempts.length := by
  obtain ⟨a, hAttempt, -⟩ := Option.map_eq_some_iff.mp h
  exact (List.getElem?_eq_some_iff.mp hAttempt).1

/-- An exit is told of an attempt, and concerns nothing but the status, the output and the
attempts. -/
theorem told_noticed {code : Option Int} (h : s.next? p event = some t)
    (hTold : s.told? event = some (k, code)) : Noticed s t ∧ k < s.attempts.length := by
  unfold told? at hTold
  split at hTold
  · simp only [Option.some.injEq, Prod.mk.injEq] at hTold
    obtain ⟨rfl, rfl⟩ := hTold
    simp only [next?] at h
    split at h
    · exact ⟨Option.some.inj h ▸ exited_noticed s _, ‹_›⟩
    · cases h
  · obtain ⟨m, hProcess, hTell⟩ := Option.bind_eq_some_iff.mp h
    obtain ⟨⟨m', exit⟩, hOldest, rfl⟩ := Option.map_eq_some_iff.mp hTell
    simp only [hProcess, Option.bind_some, hOldest, Option.map_some, Option.some.injEq,
      Prod.mk.injEq] at hTold
    obtain ⟨a, hAttempt, -⟩ := Option.bind_eq_some_iff.mp hProcess
    exact ⟨(onAttempt_noticed ..).trans (exited_noticed ..),
      hTold.1 ▸ (List.getElem?_eq_some_iff.mp hAttempt).1⟩
  · cases hTold

/-- A verdict is the status behind the step. -/
theorem next?_verdict (h : s.next? p event = some t)
    (hVerdict : (⟨s, event, t⟩ : Step).verdict? p = some (k, verdict)) :
    t.status = verdict.status ∧ t.attempts.length = s.attempts.length ∧ t.stop = s.stop ∧
      k < s.attempts.length := by
  have hKnown (hTask : event.task? = some k) : k < s.attempts.length := by
    obtain ⟨phase, hPhase, -⟩ := unfinished_of_move h hTask
    exact lt_length_of_phase? hPhase
  cases Step.judgement hVerdict with
  | exited hTold hUp =>
    obtain ⟨hStatus, -, -, hLength⟩ := told_step h hTold
    obtain ⟨hNoticed, hKnown⟩ := told_noticed h hTold
    exact ⟨hStatus.trans (exited_of_isUp hUp _).1, hLength, hNoticed.steady.stop, hKnown⟩
  | failed hTask hError =>
    cases hError ▸ task_move h hTask with
    | failed e hAside hFailed => exact ⟨hFailed, hAside.length, hAside.stop, hKnown hTask⟩
  | promoted hTask hPromotes =>
    obtain ⟨hPromoting, hStarting⟩ := Step.promotes_iff.mp hPromotes
    obtain ⟨hLength, hRunning⟩ := task_promotes h hTask hPromoting hStarting
    cases event with
    | task i =>
      obtain rfl := Option.some.inj hTask
      obtain ⟨-, rfl⟩ := promote_eq h hPromoting
      exact ⟨hRunning, hLength, promote_stop s i, hKnown rfl⟩
    | launched i result =>
      obtain rfl := Option.some.inj hTask
      simp [next?, launched, hPromoting] at h
    | _ => cases hTask

theorem told_of_task (hTask : event.task? = some k) : s.told? event = none := by
  cases event with
  | launched | task => rfl
  | _ => cases hTask

/-- A step of a task that decides nothing leaves the status alone. -/
theorem task_undecided (h : s.next? p event = some t) (hTask : event.task? = some k)
    (hVerdict : (⟨s, event, t⟩ : Step).verdict? p = none) : t.status = s.status := by
  simp only [Step.verdict?, told_of_task hTask, hTask, Option.bind_some] at hVerdict
  generalize hError : s.taskError? p event = error at hVerdict
  cases hError ▸ task_move h hTask with
  | onward _ hSame => exact hSame
  | failed e => cases hVerdict
  | promoted hPhase hStarting =>
    rw [if_pos (Step.promotes_iff.mpr ⟨hPhase, hStarting⟩)] at hVerdict
    cases hVerdict

/-- Forwarding leaves the status alone. -/
theorem acquire_status {id : Nat} (h : s.acquire? id = some t) : t.status = s.status := by
  unfold acquire? at h
  split at h
  · split at h
    · split at h
      · split at h <;> exact Option.some.inj h ▸ rfl
      · exact Option.some.inj h ▸ rfl
    · cases h
  · cases h

theorem deliver_status {id : Nat} (h : s.deliver? p id = some t) : t.status = s.status := by
  unfold deliver? at h
  split at h
  · obtain ⟨c, -, rfl⟩ := Option.map_eq_some_iff.mp h
    split <;> rfl
  · cases h

/-- A start that is accepted finds the manager at rest. -/
theorem start_of_next? {path : Path} {root : Option Path}
    (h : s.next? p (.start path root) = some t) :
    s.atRest = true ∧ s.start path root = .ok t := by
  simp only [next?] at h
  split at h
  · cases hStart : s.start path root with
    | ok t' =>
      rw [hStart] at h
      exact ⟨‹_›, congrArg _ (Option.some.inj h)⟩
    | error e => rw [hStart] at h; cases h
  · cases h

/-- Without a verdict, only a start and the stopping change the status. -/
theorem next?_undecided (h : s.next? p event = some t)
    (hVerdict : (⟨s, event, t⟩ : Step).verdict? p = none) : Undecided s t := by
  have hEnded (hStatus : (t.status = .stopping ∨ t.status = .stopped) ∨ t.status = s.status)
      (hLength : t.attempts.length = s.attempts.length) : Undecided s t := by
    rcases hStatus with hEnded | hSame
    · exact .ended hEnded hLength
    · exact .kept hSame hLength
  rcases next?_cases h with ⟨path, root, rfl, hStart⟩ | ⟨j, rfl, hPhase, hStarting, rfl⟩ | hEbbs
  · obtain ⟨hSettled, rfl⟩ := start_eq hStart
    exact .begun hSettled rfl List.length_append
  · exact .kept (task_undecided h rfl hVerdict) (promote_length s j)
  · have hLength := hEbbs.length
    -- An exit that decides nothing was told to a session that is not up.
    have hTold (j : Nat) (code : Option Int) (hTold : s.told? event = some (j, code)) :
        Undecided s t := by
      simp only [Step.verdict?, hTold] at hVerdict
      split at hVerdict
      · cases hVerdict
      · obtain ⟨hStatus, -⟩ := told_step h hTold
        rw [exited_of_not_isUp (Bool.eq_false_iff.mpr ‹_›)] at hStatus
        exact .kept hStatus hLength
    cases event with
    | start path root =>
      obtain ⟨hSettled, rfl⟩ := start_eq (start_of_next? h).2
      simp at hLength
    | launched | task => exact .kept (task_undecided h rfl hVerdict) hLength
    | stopStep => exact hEnded (stopStep_status h) hLength
    | exit j code => exact hTold j code rfl
    | tellExit j =>
      obtain ⟨m, hProcess, hTell⟩ := Option.bind_eq_some_iff.mp h
      obtain ⟨⟨m', exit⟩, hOldest, -⟩ := Option.map_eq_some_iff.mp hTell
      exact hTold j exit.code (by simp [told?, hProcess, hOldest])
    | fire timer =>
      simp only [next?] at h
      split at h
      · obtain rfl := Option.some.inj h
        exact hEnded ((fire_status ‹_›).imp_left .inr) hLength
      · cases h
    | errors | errorsEnd =>
      obtain rfl := Option.some.inj h
      exact .kept (onProcess_status _ _ fun m exit => onMonitor_exited m _ _ exit) hLength
    | sawExit =>
      obtain rfl := Option.some.inj h
      exact .kept (onProcess_status _ _ fun m exit => List.not_mem_nil) hLength
    | acquire id => exact .kept (acquire_status h) hLength
    | deliver id => exact .kept (deliver_status h) hLength
    | takeResult id =>
      obtain ⟨⟨u, result⟩, hTaken, rfl⟩ := Option.map_eq_some_iff.mp h
      unfold takeResult? at hTaken
      split at hTaken <;> cases hTaken
      exact .kept rfl hLength
    | stop | changeConfiguration | forward =>
      simp only [next?] at h
      split at h
      · exact Option.some.inj h ▸ .kept rfl rfl
      · cases h
    | loop j =>
      obtain ⟨c, -, hLoop⟩ := Option.bind_eq_some_iff.mp h
      obtain ⟨⟨c', notifications⟩, -, rfl⟩ := Option.map_eq_some_iff.mp hLoop
      exact .kept rfl hLength
    | connection | line | obey =>
      obtain rfl := Option.some.inj h
      exact .kept rfl hLength

end State

/-- A run up to one of its steps is a run. -/
theorem Run.through {trace earlier later : List Step} {step : Step} (hRun : Run p s trace t)
    (hTrace : trace = earlier ++ step :: later) : Run p s (earlier ++ [step]) step.after :=
  .step (hRun.before hTrace) (hRun.next? step (by simp [hTrace]))

end EditorBridge.Session
