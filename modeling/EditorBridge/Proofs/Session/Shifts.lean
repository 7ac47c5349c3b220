import EditorBridge.Proofs.Session.Turns
/-!
What a step of a run does to the manager itself: to its status, to the slot, to the start task that
it holds, to its stopping and to what it forwards. Every step is one of the shifts below, so what
holds of the manager in all runs is proved shift by shift.
-/
namespace EditorBridge.Session

namespace State

/-- An attempt whose task has not ended. -/
def Unfinished (s : State) (k : Nat) : Prop :=
  ∃ phase, s.phase? k = some phase ∧ phase ≠ .finished

/-- Nothing waits to be forwarded or is being forwarded. -/
def AllDone (s : State) : Prop := ∀ f ∈ s.forwards, ∃ result, f.delivery = .done result

end State

/-- The slot, the start task and what is forwarded are as they were. -/
structure Keeps (s t : State) : Prop where
  slot : t.slot = s.slot
  startTask : t.startTask = s.startTask
  forwards : t.forwards = s.forwards

/-- Nothing but the status, the output and the attempts may differ. -/
structure Steady (s t : State) : Prop extends Keeps s t where
  stop : t.stop = s.stop

/-- The status is kept, unless an exit has ended a session that was up. -/
structure Noticed (s t : State) : Prop where
  steady : Steady s t
  status : t.status = s.status ∨ (∃ reason, t.status = .failed reason) ∧ s.status.isUp = true

/-- What a step can do to the manager. -/
inductive Shift (s : State) (event : Event) (t : State) : Prop where
  | steady (hSteady : Steady s t)
      (hStatus : t.status = s.status ∨ (∃ reason, t.status = .failed reason) ∧
        (s.status.isUp = true ∨ ∃ k, event.task? = some k ∧ s.Unfinished k))
  | started (hRest : s.atRest = true) (hSettled : s.status.isSettled = true)
      (hStatus : t.status = .starting) (hTask : t.startTask = some s.attempts.length)
      (hPhase : t.phase? s.attempts.length = some .launching) (hSlot : t.slot = s.slot)
      (hStop : t.stop = s.stop) (hForwards : t.forwards = s.forwards)
  | stopping (hEvent : event = .stop) (hRest : s.atRest = true) (hAfter : t = s.requestStop)
  | promoted {k : Nat} (hEvent : event = .task k) (hFree : s.slotFree = true)
      (hPhase : s.phase? k = some .promoting) (hFinished : t.phase? k = some .finished)
      (hStarting : s.status = .starting) (hStatus : t.status = .running) (hSlot : t.slot = some k)
      (hTask : t.startTask = s.startTask) (hStop : t.stop = s.stop)
      (hForwards : t.forwards = s.forwards)
  | joined {k : Nat} (hStop : s.stop = some (.joining k)) (hPhase : s.phase? k = some .finished)
      (hAfter : t = { s with stop := some .taking })
  | took (hEvent : event = .stopStep) (hStop : s.stop = some .taking) (hAfter : t = s.takeSlot)
  | closing {k : Nat} {last : Bool} {stop stop' : Stop} (hStop : s.stop = some stop)
      (hTarget : stop.target? = some (k, last)) (hStop' : t.stop = some stop')
      (hTarget' : stop'.target? = some (k, last)) (hStatus : t.status = s.status)
      (hKeeps : Keeps s t)
      (hAwaiting : ∀ id, stop' = .closing k (.awaiting id) last → ∃ c d, s.client? k = some c ∧
        c.beginClose = (d, .awaiting id) ∧ t.client? k = some d)
      (hOpen : ∀ j shutdown last, stop' ≠ .closing j (.closed shutdown) last)
  | returned {k : Nat} {last : Bool} {stop : Stop} (hStop : s.stop = some stop)
      (hTarget : stop.target? = some (k, last)) (hStop' : t.stop = none)
      (hStatus : t.status = (if last then .stopped else s.status) ∨ s.status.isUp = true)
      (hKeeps : Keeps s t)
  | forwarding (hStatus : t.status = s.status) (hSlot : t.slot = s.slot)
      (hTask : t.startTask = s.startTask) (hStop : t.stop = s.stop)
      (hLocks : ∀ k, t.Locks k → s.Locks k ∨ s.slot = some k ∧ s.status = .running)
      (hDone : s.stop.isSome = true → s.AllDone → t.AllDone)

variable {p : Profile} {s t u : State} {event : Event} {j k : Nat} {last : Bool} {stop : Stop}

theorem Noticed.refl (s : State) : Noticed s s := ⟨⟨⟨rfl, rfl, rfl⟩, rfl⟩, .inl rfl⟩

theorem Noticed.trans (hFirst : Noticed s t) (hSecond : Noticed t u) : Noticed s u where
  steady := by
    obtain ⟨⟨⟨hSlot, hTask, hForwards⟩, hStop⟩, -⟩ := hFirst
    obtain ⟨⟨⟨hSlot', hTask', hForwards'⟩, hStop'⟩, -⟩ := hSecond
    exact ⟨⟨hSlot'.trans hSlot, hTask'.trans hTask, hForwards'.trans hForwards⟩, hStop'.trans hStop⟩
  status := by
    rcases hFirst.status with hSame | ⟨hFailed, hUp⟩
    · rw [← hSame]
      exact hSecond.status
    · rcases hSecond.status with hSame | ⟨hFailed', -⟩
      · exact .inr ⟨hSame ▸ hFailed, hUp⟩
      · exact .inr ⟨hFailed', hUp⟩

theorem Noticed.shift (h : Noticed s t) : Shift s event t :=
  .steady h.steady (h.status.imp id fun ⟨hFailed, hUp⟩ => ⟨hFailed, .inl hUp⟩)

namespace State

theorem onAttempt_noticed (s : State) (k : Nat) (f : Attempt → Attempt) :
    Noticed s (s.onAttempt k f) := ⟨⟨⟨rfl, rfl, rfl⟩, rfl⟩, .inl rfl⟩

theorem exited_noticed (s : State) (code : Option Int) : Noticed s (s.exited code) := by
  unfold exited
  split
  · rename_i hStarting
    exact ⟨⟨⟨rfl, rfl, rfl⟩, rfl⟩, .inr ⟨⟨_, rfl⟩, by rw [hStarting]; rfl⟩⟩
  · rename_i hRunning
    exact ⟨⟨⟨rfl, rfl, rfl⟩, rfl⟩, .inr ⟨⟨_, rfl⟩, by rw [hRunning]; rfl⟩⟩
  · exact .refl s

theorem onProcess_noticed (s : State) (k : Nat)
    (f : Process.Manager → Process.Manager × List Process.Effect) :
    Noticed s (s.onProcess k f) := by
  have hEffect (s : State) (effect : Process.Effect) : Noticed s (s.takeEffect k effect) := by
    cases effect with
    | line text => exact ⟨⟨⟨rfl, rfl, rfl⟩, rfl⟩, .inl rfl⟩
    | exited exit => exact exited_noticed s exit.code
    | _ => exact onAttempt_noticed ..
  have hAll (effects : List Process.Effect) (s : State) :
      Noticed s (effects.foldl (fun s e => s.takeEffect k e) s) := by
    induction effects generalizing s with
    | nil => exact .refl s
    | cons effect effects ih => exact (hEffect s effect).trans (ih _)
  unfold onProcess
  split
  · exact .refl s
  · exact (onAttempt_noticed ..).trans (hAll ..)

theorem unfinished_of_move (hStep : s.next? p event = some t) (hTask : event.task? = some k) :
    s.Unfinished k := by
  cases event with
  | launched j result =>
    obtain rfl := Option.some.inj hTask
    simp only [next?, launched] at hStep
    split at hStep
    · rename_i hPhase
      exact ⟨_, hPhase, by simp⟩
    · cases hStep
  | task j =>
    obtain rfl := Option.some.inj hTask
    simp only [next?, startStep?] at hStep
    split at hStep
    · cases hStep
    · rename_i a hAttempt
      refine ⟨a.phase, by simp [phase?, hAttempt], fun hFinished => ?_⟩
      simp [hFinished] at hStep
  | _ => cases hTask

theorem releaseSlot_keeps (s : State) :
    s.releaseSlot.startTask = s.startTask ∧ s.releaseSlot.stop = s.stop ∧
      s.releaseSlot.forwards = s.forwards := by
  unfold releaseSlot
  split <;> exact ⟨rfl, rfl, rfl⟩

theorem promote_stop (s : State) (k : Nat) : (s.promote k).stop = s.stop := by
  unfold promote
  split
  · exact s.releaseSlot_keeps.2.1
  · rfl

theorem promote_shift (hPhase : s.phase? k = some .promoting) (hFree : s.slotFree = true) :
    Shift s (.task k) (s.promote k) := by
  by_cases hStarting : s.status = .starting
  · have hFinished : (s.promote k).phase? k = some .finished :=
      phase?_promote (by rw [hPhase]; rfl)
    obtain ⟨hTask, -, hForwards⟩ := s.releaseSlot_keeps
    have hStop := s.promote_stop k
    rw [promote, if_pos hStarting] at hFinished hStop ⊢
    exact .promoted rfl hFree hPhase hFinished hStarting rfl rfl hTask hStop hForwards
  · rw [promote, if_neg hStarting]
    exact (onAttempt_noticed ..).shift

theorem task_shift (hStep : s.next? p event = some t) (hTask : event.task? = some k) :
    Shift s event t := by
  have hUnfinished := unfinished_of_move hStep hTask
  have hAside {s t : State} (h : Aside k s t) (hSlot : t.slot = s.slot) : Steady s t :=
    ⟨⟨hSlot, h.startTask, h.forwards⟩, h.stop⟩
  generalize hError : s.taskError? p event = error
  cases hError ▸ task_move hStep hTask with
  | onward h hStatus hSlot => exact .steady (hAside h hSlot) (.inl hStatus)
  | failed e h hStatus hSlot =>
    exact .steady (hAside h hSlot) (.inr ⟨⟨_, hStatus⟩, .inr ⟨k, hTask, hUnfinished⟩⟩)
  | promoted hPhase hStarting =>
    cases event with
    | launched j result =>
      obtain rfl := Option.some.inj hTask
      simp [next?, launched, hPhase] at hStep
    | task j =>
      obtain rfl := Option.some.inj hTask
      obtain ⟨hFree, rfl⟩ := promote_eq hStep hPhase
      exact promote_shift hPhase hFree
    | _ => cases hTask

theorem terminate_shift (hStop : s.stop = some stop) (hTarget : stop.target? = some (j, last))
    (hKeeps : Keeps s u) (hStatus : u.status = s.status) : Shift s event (u.terminate j last) := by
  have hFinish : Shift s event (u.finishStop last) :=
    .returned hStop hTarget rfl (.inl (by simp [finishStop, hStatus]))
      ⟨hKeeps.slot, hKeeps.startTask, hKeeps.forwards⟩
  unfold terminate
  split
  · exact hFinish
  · split
    · exact hFinish
    · exact .closing hStop hTarget rfl rfl hStatus ⟨hKeeps.slot, hKeeps.startTask, hKeeps.forwards⟩
        nofun nofun

theorem continueClosing_shift {c d : Lsp.Client} {progress : Lsp.Client.Closing}
    (hStop : s.stop = some stop) (hTarget : stop.target? = some (j, last))
    (hClient : s.client? j = some c)
    (hAwaiting : ∀ id, progress = .awaiting id → c.beginClose = (d, .awaiting id)) :
    Shift s event (s.continueClosing j last d progress) := by
  have hAfter : (s.continueClosing j last d progress).client? j = some d := by
    obtain ⟨phase, hFace⟩ := face?_of_client? hClient
    rw [client?_eq, face?_continueClosing_self hFace]
    rfl
  cases progress with
  | closed shutdown => exact terminate_shift hStop hTarget ⟨rfl, rfl, rfl⟩ rfl
  | awaiting id =>
    refine .closing hStop hTarget rfl rfl rfl ⟨rfl, rfl, rfl⟩ (fun id' hSame => ?_) nofun
    obtain rfl : id = id' := by simpa using hSame
    exact ⟨c, d, hClient, hAwaiting id rfl, hAfter⟩
  | flushing shutdown => exact .closing hStop hTarget rfl rfl rfl ⟨rfl, rfl, rfl⟩ nofun nofun

theorem stopStep_shift (h : s.stopStep? = some t) : Shift s .stopStep t := by
  cases stopStep_cases h with
  | joined hStop hPhase => exact .joined hStop hPhase rfl
  | took hStop => exact .took rfl hStop rfl
  | absent hStop hTarget => exact terminate_shift hStop hTarget ⟨rfl, rfl, rfl⟩ rfl
  | released hStop hClient hClose =>
    exact continueClosing_shift hStop rfl hClient fun id hAwaiting => hAwaiting ▸ hClose
  | closed hStop hClient hStep =>
    refine continueClosing_shift hStop rfl hClient fun id hAwaiting => ?_
    rcases Lsp.Client.closeStep_cases hStep with
      ⟨id', -, rfl, -⟩ | ⟨⟨shutdown, rfl⟩, -⟩ | ⟨⟨shutdown, rfl⟩, -⟩ <;> cases hAwaiting
  | ended hStop => exact .returned hStop rfl rfl (.inl rfl) ⟨rfl, rfl, rfl⟩

/-- What is told of the end of the grace of a process comes from a session that is being ended. -/
theorem stop_of_grace_mem (h : .grace j ∈ s.timers) :
    ∃ last, s.stop = some (.terminating j last) := by
  rcases mem_timers.mp h with ⟨k, id, -, hTimer⟩ | ⟨stop, hStop, hTimer⟩
  · cases hTimer
  · unfold Timer.ofStop? at hTimer
    split at hTimer <;> cases hTimer
    exact ⟨_, hStop⟩

theorem fire_shift {timer : Timer} (hTimer : timer ∈ s.timers) : Shift s event (s.fire timer) := by
  cases timer with
  | handshake j id => exact (onAttempt_noticed ..).shift
  | shutdown j id => exact (onAttempt_noticed ..).shift
  | flush j =>
    rcases fire_flush hTimer with hSame | ⟨stop, last, c, shutdown, hStop, hTarget, hClient, hFlush⟩
    · exact hSame.symm ▸ (Noticed.refl s).shift
    · exact hFlush ▸ continueClosing_shift hStop hTarget hClient nofun
  | grace j =>
    obtain ⟨last, hStop⟩ := stop_of_grace_mem hTimer
    have hGrace : s.fire (.grace j) = (s.onProcess j (·.graceOver)).finishStop last := by
      simp [fire, hStop]
    obtain ⟨⟨hKeeps, -⟩, hStatus⟩ := onProcess_noticed s j (·.graceOver)
    rw [hGrace]
    refine .returned hStop rfl rfl ?_ ⟨hKeeps.slot, hKeeps.startTask, hKeeps.forwards⟩
    exact hStatus.imp (fun hSame => by simp [finishStop, hSame]) And.right

theorem mem_setDelivery {f : Forward} {id : Nat} {delivery : Delivery}
    (h : f ∈ (s.setDelivery id delivery).forwards) : f ∈ s.forwards ∨ f.delivery = delivery := by
  obtain ⟨f', hMem, hSet⟩ := List.mem_map.mp h
  split at hSet
  · exact .inr (hSet ▸ rfl)
  · exact .inl (hSet ▸ hMem)

/-- A step with the forwarding that has a given number; it was not done before. -/
theorem setDelivery_shift {f : Forward} {id : Nat} {delivery : Delivery} (hMem : f ∈ s.forwards)
    (hUndone : ∀ result, f.delivery ≠ .done result) (hForwards : u.forwards = s.forwards)
    (hSame : u.status = s.status ∧ u.slot = s.slot ∧ u.startTask = s.startTask ∧ u.stop = s.stop)
    (hHolding : ∀ k, delivery = .holding k → s.slot = some k ∧ s.status = .running) :
    Shift s event (u.setDelivery id delivery) := by
  obtain ⟨hStatus, hSlot, hTask, hStop⟩ := hSame
  refine .forwarding hStatus hSlot hTask hStop (fun k ⟨g, hSet, hLock⟩ => ?_) fun _ hDone => ?_
  · rcases mem_setDelivery hSet with hOld | hNew
    · exact .inl ⟨g, hForwards ▸ hOld, hLock⟩
    · exact .inr (hHolding k (hNew ▸ hLock))
  · obtain ⟨result, hResult⟩ := hDone f hMem
    exact absurd hResult (hUndone result)

theorem acquire_shift {id : Nat} (h : s.acquire? id = some t) : Shift s event t := by
  unfold acquire? at h
  split at h
  · rename_i hFind
    have hMem := List.mem_of_find?_eq_some hFind
    split at h
    · split at h
      · rename_i k hSlot
        split at h
        · rename_i hRunning
          refine Option.some.inj h ▸ setDelivery_shift hMem nofun rfl ⟨rfl, rfl, rfl, rfl⟩ ?_
          exact fun j hHolding => ⟨Delivery.holding.inj hHolding ▸ hSlot, hRunning⟩
        · exact Option.some.inj h ▸ setDelivery_shift hMem nofun rfl ⟨rfl, rfl, rfl, rfl⟩ nofun
      · exact Option.some.inj h ▸ setDelivery_shift hMem nofun rfl ⟨rfl, rfl, rfl, rfl⟩ nofun
    · cases h
  · cases h

theorem deliver_shift {id : Nat} (h : s.deliver? p id = some t) : Shift s event t := by
  unfold deliver? at h
  split at h
  · rename_i hFind
    have hMem := List.mem_of_find?_eq_some hFind
    obtain ⟨c, -, rfl⟩ := Option.map_eq_some_iff.mp h
    split <;> exact setDelivery_shift hMem nofun rfl ⟨rfl, rfl, rfl, rfl⟩ nofun
  · cases h

theorem takeResult_shift {id : Nat} {result : Except Error Bool}
    (h : s.takeResult? id = some (t, result)) : Shift s event t := by
  unfold takeResult? at h
  split at h
  · cases h
    refine .forwarding rfl rfl rfl rfl (fun k ⟨f, hMem, hLock⟩ => .inl ?_) fun _ hDone f hMem => ?_
    · exact ⟨f, (List.mem_filter.mp hMem).1, hLock⟩
    · exact hDone f ((List.mem_filter.mp hMem).1)
  · cases h

theorem forward_shift (message : Message) (hStop : s.stop.isNone = true)
    (hSame : u.status = s.status ∧ u.slot = s.slot ∧ u.startTask = s.startTask ∧ u.stop = s.stop)
    (hForwards : u.forwards = s.forwards) : Shift s event (u.forward message).1 := by
  obtain ⟨hStatus, hSlot, hTask, hSameStop⟩ := hSame
  refine .forwarding hStatus hSlot hTask hSameStop (fun k ⟨f, hMem, hLock⟩ => .inl ?_) ?_
  · rcases List.mem_append.mp hMem with hOld | hNew
    · exact ⟨f, hForwards ▸ hOld, hLock⟩
    · rw [List.mem_singleton.mp hNew] at hLock
      cases hLock
  · intro hSome
    rw [Option.isNone_iff_eq_none.mp hStop] at hSome
    cases hSome

/-- Every step of a run is one of the shifts. -/
theorem next?_shift (h : s.next? p event = some t) : Shift s event t := by
  cases event with
  | start path root =>
    simp only [next?] at h
    split at h
    · cases hStart : s.start path root with
      | ok t' =>
        rw [hStart] at h
        obtain rfl := Option.some.inj h
        obtain ⟨hSettled, rfl⟩ := start_eq hStart
        exact .started ‹_› hSettled rfl rfl (by simp [phase?, Attempt.launch]) rfl rfl rfl
      | error e => rw [hStart] at h; cases h
    · cases h
  | stop =>
    simp only [next?] at h
    split at h
    · exact .stopping rfl ‹_› (Option.some.inj h).symm
    · cases h
  | changeConfiguration settings =>
    simp only [next?] at h
    split at h
    · exact Option.some.inj h ▸ forward_shift _ ‹_› ⟨rfl, rfl, rfl, rfl⟩ rfl
    · cases h
  | forward message =>
    simp only [next?] at h
    split at h
    · exact Option.some.inj h ▸ forward_shift _ ‹_› ⟨rfl, rfl, rfl, rfl⟩ rfl
    · cases h
  | launched k result => exact task_shift h rfl
  | task k => exact task_shift h rfl
  | stopStep => exact stopStep_shift h
  | acquire id => exact acquire_shift h
  | deliver id => exact deliver_shift h
  | takeResult id =>
    obtain ⟨⟨u, result⟩, hTaken, rfl⟩ := Option.map_eq_some_iff.mp h
    exact takeResult_shift hTaken
  | loop k =>
    obtain ⟨c, -, hLoop⟩ := Option.bind_eq_some_iff.mp h
    obtain ⟨⟨c', notifications⟩, -, rfl⟩ := Option.map_eq_some_iff.mp hLoop
    exact .steady ⟨⟨rfl, rfl, rfl⟩, rfl⟩ (.inl rfl)
  | connection | obey => exact Option.some.inj h ▸ (onAttempt_noticed ..).shift
  | sawExit | errors | errorsEnd => exact Option.some.inj h ▸ (onProcess_noticed ..).shift
  | tellExit k =>
    obtain ⟨m, -, hTell⟩ := Option.bind_eq_some_iff.mp h
    obtain ⟨⟨m', exit⟩, -, rfl⟩ := Option.map_eq_some_iff.mp hTell
    exact ((onAttempt_noticed ..).trans (exited_noticed ..)).shift
  | exit k code =>
    simp only [next?] at h
    split at h
    · exact Option.some.inj h ▸ (exited_noticed ..).shift
    · cases h
  | line text => exact Option.some.inj h ▸ .steady ⟨⟨rfl, rfl, rfl⟩, rfl⟩ (.inl rfl)
  | fire timer =>
    simp only [next?] at h
    split at h
    · exact Option.some.inj h ▸ fire_shift ‹_›
    · cases h

end State
end EditorBridge.Session
