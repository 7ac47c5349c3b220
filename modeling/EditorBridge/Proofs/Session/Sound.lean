import EditorBridge.Proofs.Session.Shifts
/-!
What holds of a session manager at every moment. A session stands in the slot, or is being ended,
only when its task is done. Somebody always waits for a session that is starting: the manager holds
its task, or the stopping joins it. And when the stopping has emptied the slot, it stays empty.
-/
namespace EditorBridge.Session

variable {p : Profile} {s t : State} {event : Event} {k id : Nat} {last : Bool} {stop : Stop}
  {messages : List Rpc.Utterance}

namespace State

/-- The attempt whose task is still awaited: the manager holds it, or the stopping has taken it
over. -/
def awaited? (s : State) : Option Nat :=
  match s.stop with
  | some (.joining k) => some k
  | _ => s.startTask

/-- What holds of a manager at every moment. The last fields say that the stopping keeps a client
whose end of the shutdown request can still come, and that no attempt is waited for that was not
begun. -/
structure Sound (s : State) : Prop where
  startTask : s.stop.isSome = true → s.startTask = none
  allDone : s.stop.isSome = true → s.AllDone
  finished : ∀ k, s.Held k ∨ s.Locks k → s.phase? k = some .finished
  starting : s.status = .starting → ∃ k, s.awaited? = some k ∧ s.Unfinished k
  stopping : s.status = .stopping → ∃ stop k, s.stop = some stop ∧ stop.target? = some (k, true)
  emptied : ∀ stop target, s.stop = some stop → stop.target? = some target →
    s.slot = none ∧ s.status.isUp = false
  awaiting : ∀ k id last, s.stop = some (.closing k (.awaiting id) last) →
    ∃ c, s.client? k = some c ∧ c.initialized = false ∧ c.Holds id
  unclosed : ∀ k shutdown last, s.stop ≠ some (.closing k (.closed shutdown) last)
  known : ∀ k, s.startTask = some k ∨ s.stop = some (.joining k) → (s.phase? k).isSome = true

theorem stop_of_atRest (h : s.atRest = true) : s.stop = none :=
  Option.isNone_iff_eq_none.mp (Bool.and_eq_true_iff.mp h).1

theorem allDone_of_atRest (h : s.atRest = true) : s.AllDone := by
  intro f hMem
  have hAll := List.all_eq_true.mp (Bool.and_eq_true_iff.mp h).2 f hMem
  split at hAll
  · exact ⟨_, ‹_›⟩
  · cases hAll

theorem atRest_of_allDone (hStop : s.stop = none) (hDone : s.AllDone) : s.atRest = true := by
  refine Bool.and_eq_true_iff.mpr ⟨by rw [hStop]; rfl, List.all_eq_true.mpr fun f hMem => ?_⟩
  obtain ⟨result, hResult⟩ := hDone f hMem
  rw [hResult]

theorem slotFree_of_allDone (h : s.AllDone) : s.slotFree = true := by
  refine List.all_eq_true.mpr fun f hMem => ?_
  obtain ⟨result, hResult⟩ := h f hMem
  rw [hResult]

/-- Nobody holds the lock of a free slot. -/
theorem not_locks_of_slotFree (h : s.slotFree = true) (k : Nat) : ¬ s.Locks k := by
  rintro ⟨f, hMem, hLock⟩
  have hFree := List.all_eq_true.mp h f hMem
  rw [hLock] at hFree
  cases hFree

theorem takeSlot_slot (s : State) : s.takeSlot.slot = none := by
  unfold takeSlot
  split <;> rfl

theorem takeSlot_startTask (s : State) : s.takeSlot.startTask = s.startTask := by
  unfold takeSlot
  split <;> rfl

theorem takeSlot_forwards (s : State) : s.takeSlot.forwards = s.forwards := by
  unfold takeSlot
  split <;> rfl

/-- A session that was in the slot is being ended now; without one the stopping is over. -/
theorem takeSlot_cases (s : State) :
    (∃ k, s.slot = some k ∧ s.takeSlot.stop = some (.releasing k (s.status = .running)) ∧
      s.takeSlot.status = if s.status = .running then .stopping else s.status) ∨
    s.slot = none ∧ s.takeSlot.stop = none ∧
      s.takeSlot.status = if s.status = .running then .stopped else s.status := by
  cases hSlot : s.slot with
  | some k => exact .inl ⟨k, rfl, by simp [takeSlot, hSlot], by simp [takeSlot, hSlot]⟩
  | none =>
    refine .inr ⟨rfl, by simp [takeSlot, hSlot, finishStop], ?_⟩
    by_cases hRunning : s.status = .running <;> simp [takeSlot, hSlot, finishStop, hRunning]

theorem phase?_of_face? {face : Phase × Option Lsp.Client} (h : s.face? k = some face) :
    s.phase? k = some face.1 := by rw [phase?_eq, h]; rfl

theorem client?_of_face? {phase : Phase} {client : Option Lsp.Client}
    (h : s.face? k = some (phase, client)) : s.client? k = client := by rw [client?_eq, h]; rfl

end State

open State

/-- The task of an attempt is done for good. -/
theorem Turn.finished (hTurn : Turn p s event t k messages) (h : s.phase? k = some .finished) :
    t.phase? k = some .finished := by
  rw [phase?_eq] at h
  obtain ⟨⟨phase, client⟩, hFace, rfl⟩ := Option.map_eq_some_iff.mp h
  cases hTurn with
  | absent hBefore | begun _ hBefore => simp [hFace] at hBefore
  | connected hBefore | asked hBefore | greeted hBefore | configured hBefore | placed _ _ hBefore =>
    simp [hFace] at hBefore
  | gaveUp _ _ _ _ hAfter => exact phase?_of_face? hAfter
  | calm hBefore hAfter | closed _ hBefore hAfter | told _ _ hBefore _ _ _ hAfter
    | shutDown _ hBefore _ hAfter | left _ hBefore _ hAfter =>
    rw [hFace, Option.some.injEq, Prod.mk.injEq] at hBefore
    rw [phase?_of_face? hAfter, ← hBefore.1]

/-- An attempt is never forgotten. -/
theorem Turn.known (hTurn : Turn p s event t k messages) (h : (s.phase? k).isSome = true) :
    (t.phase? k).isSome = true := by
  rw [phase?_eq] at h
  cases hTurn with
  | absent hBefore | begun _ hBefore => simp [hBefore] at h
  | calm _ hAfter | connected _ hAfter | asked _ _ hAfter | greeted _ _ _ hAfter
    | configured _ _ hAfter | placed _ _ _ hAfter | gaveUp _ _ _ _ hAfter | closed _ _ hAfter
    | told _ _ _ _ _ _ hAfter | shutDown _ _ _ hAfter | left _ _ _ hAfter =>
    rw [phase?_of_face? hAfter]
    rfl

/-- A task that ends leaves no session that is starting. -/
theorem Turn.unfinished (hTurn : Turn p s event t k messages) (h : s.Unfinished k)
    (hStarting : t.status = .starting) : t.Unfinished k := by
  obtain ⟨phase, hPhase, hNot⟩ := h
  rw [phase?_eq] at hPhase
  obtain ⟨⟨phase, client⟩, hFace, rfl⟩ := Option.map_eq_some_iff.mp hPhase
  cases hTurn with
  | absent hBefore | begun _ hBefore => simp [hFace] at hBefore
  | connected _ hAfter | asked _ _ hAfter | greeted _ _ _ hAfter | configured _ _ hAfter =>
    exact ⟨_, phase?_of_face? hAfter, nofun⟩
  | placed hRunning => simp [hStarting] at hRunning
  | gaveUp hStatus => exact absurd hStarting hStatus
  | calm hBefore hAfter | closed _ hBefore hAfter | told _ _ hBefore _ _ _ hAfter
    | shutDown _ hBefore _ hAfter | left _ hBefore _ hAfter =>
    rw [hFace, Option.some.injEq, Prod.mk.injEq] at hBefore
    exact ⟨_, phase?_of_face? hAfter, hBefore.1 ▸ hNot⟩

/-- Nothing unfinished comes up except by a start. -/
theorem Turn.unfinished_of (hTurn : Turn p s event t k messages) (h : t.Unfinished k)
    (hStop : s.stop.isSome = true) : s.Unfinished k := by
  obtain ⟨phase, hPhase, hNot⟩ := h
  rw [phase?_eq] at hPhase
  obtain ⟨⟨phase, client⟩, hFace, rfl⟩ := Option.map_eq_some_iff.mp hPhase
  cases hTurn with
  | absent _ hAfter => simp [hFace] at hAfter
  | begun hRest => simp [stop_of_atRest hRest] at hStop
  | connected hBefore | asked hBefore | greeted hBefore | configured hBefore | placed _ _ hBefore =>
    exact ⟨_, phase?_of_face? hBefore, nofun⟩
  | gaveUp _ _ hPhase hBefore => exact ⟨_, phase?_of_face? hBefore, hPhase⟩
  | calm hBefore hAfter | closed _ hBefore hAfter | told _ _ hBefore _ _ _ hAfter
    | shutDown _ hBefore _ hAfter | left _ hBefore _ hAfter =>
    rw [hFace, Option.some.injEq, Prod.mk.injEq] at hAfter
    exact ⟨_, phase?_of_face? hBefore, hAfter.1 ▸ hNot⟩

/-- A client whose end of the shutdown request is awaited says nothing and keeps that end. -/
theorem Turn.awaiting (hTurn : Turn p s event t k messages)
    (hFinished : s.phase? k = some .finished)
    {c : Lsp.Client} (hClient : s.client? k = some c) (hNot : c.initialized = false)
    (hHolds : c.Holds id) (hUp : t.status.isUp = false)
    (hStop : s.stop = some (.closing k (.awaiting id) last)) (hStop' : t.stop = s.stop) :
    ∃ d, t.client? k = some d ∧ d.initialized = false ∧ d.Holds id := by
  obtain ⟨phase, hFace⟩ := face?_of_client? hClient
  obtain rfl : phase = .finished := by
    rw [phase?_of_face? hFace] at hFinished
    exact Option.some.inj hFinished
  cases hTurn with
  | absent hBefore | begun _ hBefore | connected hBefore | asked hBefore | greeted hBefore
    | configured hBefore | placed _ _ hBefore => simp [hFace] at hBefore
  | calm hBefore hAfter hCalm =>
    rw [hFace] at hBefore
    cases hBefore
    cases hCalm with
    | some hCalm =>
      exact ⟨_, client?_of_face? hAfter, hCalm.initialized.trans hNot, hCalm.holds id hHolds⟩
  | gaveUp _ _ hPhase hBefore =>
    rw [hFace] at hBefore
    cases hBefore
    exact absurd rfl hPhase
  | closed _ _ _ _ hAwaiting =>
    rcases hAwaiting with hRunning | hOther
    · simp [hRunning, Status.isUp] at hUp
    · exact absurd (hStop'.trans hStop) (hOther id last)
  | told _ _ hBefore hInitialized =>
    rw [hFace] at hBefore
    cases hBefore
    simp [hNot] at hInitialized
  | shutDown hReleasing => simp [hStop] at hReleasing
  | left _ _ _ _ hLeft => simp [hStop', hStop] at hLeft

/-- Only a session whose task is done comes into the slot or is locked. -/
theorem Shift.held (hShift : Shift s event t) (h : t.Held k ∨ t.Locks k) :
    s.Held k ∨ s.Locks k ∨ t.phase? k = some .finished := by
  have hLocks (hForwards : t.forwards = s.forwards) : t.Locks k → s.Locks k := by
    rintro ⟨f, hMem, hLock⟩
    exact ⟨f, hForwards ▸ hMem, hLock⟩
  have hSame (hSlot : t.slot = s.slot) (hStop : t.stop = s.stop) : t.Held k → s.Held k := by
    rintro (hIn | ⟨stop, last, hSome, hTarget⟩)
    · exact .inl (hSlot ▸ hIn)
    · exact .inr ⟨stop, last, hStop ▸ hSome, hTarget⟩
  cases hShift with
  | steady hSteady => exact h.imp (hSame hSteady.slot hSteady.stop) (.inl ∘ hLocks hSteady.forwards)
  | started _ _ _ _ _ hSlot hStop hForwards =>
    exact h.imp (hSame hSlot hStop) (.inl ∘ hLocks hForwards)
  | stopping _ hRest hAfter =>
    subst hAfter
    refine h.imp ?_ (.inl ∘ hLocks rfl)
    rintro (hIn | ⟨stop, last, hSome, hTarget⟩)
    · exact .inl hIn
    · obtain rfl := Option.some.inj hSome
      split at hTarget <;> cases hTarget
  | @promoted j _ _ _ hFinished _ _ hSlot _ hStop hForwards =>
    rcases h with (hIn | ⟨stop, last, hSome, hTarget⟩) | hLock
    · rw [hSlot] at hIn
      exact .inr (.inr (Option.some.inj hIn ▸ hFinished))
    · exact .inl (.inr ⟨stop, last, hStop ▸ hSome, hTarget⟩)
    · exact .inr (.inl (hLocks hForwards hLock))
  | joined _ _ hAfter =>
    subst hAfter
    refine h.imp ?_ (.inl ∘ hLocks rfl)
    rintro (hIn | ⟨stop, last, hSome, hTarget⟩)
    · exact .inl hIn
    · obtain rfl := Option.some.inj hSome
      cases hTarget
  | took _ _ hAfter =>
    subst hAfter
    refine h.imp ?_ (.inl ∘ hLocks (takeSlot_forwards s))
    rintro (hIn | ⟨stop, last, hSome, hTarget⟩)
    · simp [takeSlot_slot] at hIn
    · rcases takeSlot_cases s with ⟨j, hSlot, hStop, -⟩ | ⟨-, hStop, -⟩
      · rw [hStop] at hSome
        obtain rfl := Option.some.inj hSome
        cases hTarget
        exact .inl hSlot
      · simp [hStop] at hSome
  | closing hStop hTarget hStop' hTarget' _ hKeeps =>
    refine h.imp ?_ (.inl ∘ hLocks hKeeps.forwards)
    rintro (hIn | ⟨stop, last, hSome, hHeld⟩)
    · exact .inl (hKeeps.slot ▸ hIn)
    · rw [hStop'] at hSome
      obtain rfl := Option.some.inj hSome
      rw [hTarget'] at hHeld
      exact .inr ⟨_, _, hStop, hTarget.trans hHeld⟩
  | returned _ _ hStop' _ hKeeps =>
    refine h.imp ?_ (.inl ∘ hLocks hKeeps.forwards)
    rintro (hIn | ⟨stop, last, hSome, -⟩)
    · exact .inl (hKeeps.slot ▸ hIn)
    · simp [hStop'] at hSome
  | forwarding _ hSlot _ hStop hLocks =>
    rcases h with hHeld | hLock
    · exact .inl (hSame hSlot hStop hHeld)
    · rcases hLocks k hLock with hOld | ⟨hIn, -⟩
      · exact .inr (.inl hOld)
      · exact .inl (.inl hIn)

namespace State.Sound

theorem startTask_shift (hSound : s.Sound) (hShift : Shift s event t) :
    t.stop.isSome = true → t.startTask = none := by
  cases hShift with
  | steady hSteady _ => rw [hSteady.stop, hSteady.startTask]; exact hSound.startTask
  | started hRest _ _ _ _ _ hStop => rw [hStop, stop_of_atRest hRest]; nofun
  | stopping _ _ hAfter => subst hAfter; exact fun _ => rfl
  | promoted _ _ _ _ _ _ _ hTask hStop => rw [hStop, hTask]; exact hSound.startTask
  | joined hStop _ hAfter => subst hAfter; exact fun _ => hSound.startTask (by simp [hStop])
  | took _ hStop hAfter =>
    subst hAfter
    exact fun _ => (takeSlot_startTask s).trans (hSound.startTask (by simp [hStop]))
  | closing hStop _ _ _ _ hKeeps =>
    exact fun _ => hKeeps.startTask.trans (hSound.startTask (by simp [hStop]))
  | returned _ _ hStop' => rw [hStop']; nofun
  | forwarding _ _ hTask hStop => rw [hStop, hTask]; exact hSound.startTask

theorem allDone_shift (hSound : s.Sound) (hShift : Shift s event t) :
    t.stop.isSome = true → t.AllDone := by
  have hSame (hForwards : t.forwards = s.forwards) (hDone : s.AllDone) : t.AllDone := by
    rw [AllDone, hForwards]
    exact hDone
  cases hShift with
  | steady hSteady _ => rw [hSteady.stop]; exact hSame hSteady.forwards ∘ hSound.allDone
  | started hRest _ _ _ _ _ hStop => rw [hStop, stop_of_atRest hRest]; nofun
  | stopping _ hRest hAfter =>
    exact fun _ => hSame (hAfter ▸ rfl) (allDone_of_atRest hRest)
  | promoted _ _ _ _ _ _ _ _ hStop hForwards => rw [hStop]; exact hSame hForwards ∘ hSound.allDone
  | joined hStop _ hAfter => exact fun _ => hSame (hAfter ▸ rfl) (hSound.allDone (by simp [hStop]))
  | took _ hStop hAfter =>
    exact fun _ => hSame (hAfter ▸ takeSlot_forwards s) (hSound.allDone (by simp [hStop]))
  | closing hStop _ _ _ _ hKeeps =>
    exact fun _ => hSame hKeeps.forwards (hSound.allDone (by simp [hStop]))
  | returned _ _ hStop' => rw [hStop']; nofun
  | forwarding _ _ _ hStop _ hDone =>
    rw [hStop]
    exact fun hSome => hDone hSome (hSound.allDone hSome)

/-- Once the stopping has joined the start task, no session is starting. -/
theorem not_starting (hSound : s.Sound) (hStop : s.stop = some stop)
    (hJoining : ∀ k, stop ≠ .joining k) : s.status ≠ .starting := by
  intro hStarting
  obtain ⟨k, hAwaited, -⟩ := hSound.starting hStarting
  unfold awaited? at hAwaited
  split at hAwaited
  · rename_i k hStop'
    exact hJoining k (Option.some.inj (hStop.symm.trans hStop'))
  · simp [hSound.startTask (by simp [hStop])] at hAwaited

/-- Before the stopping has emptied the slot, nothing is being stopped. -/
theorem not_stopping (hSound : s.Sound)
    (hTarget : ∀ stop, s.stop = some stop → stop.target? = none) :
    s.status ≠ .stopping := by
  intro hStopping
  obtain ⟨stop, k, hStop, hSome⟩ := hSound.stopping hStopping
  simp [hTarget stop hStop] at hSome

/-- While a session is starting, its task is not done. -/
theorem starting_shift (hSound : s.Sound) (hShift : Shift s event t)
    (hTurns : ∀ k, s.Unfinished k → t.status = .starting → t.Unfinished k)
    (hStarting : t.status = .starting) : ∃ k, t.awaited? = some k ∧ t.Unfinished k := by
  have hSame (hStatus : t.status = s.status) (hStop : t.stop = s.stop)
      (hTask : t.startTask = s.startTask) : ∃ k, t.awaited? = some k ∧ t.Unfinished k := by
    obtain ⟨k, hAwaited, hUnfinished⟩ := hSound.starting (hStatus ▸ hStarting)
    exact ⟨k, by rw [awaited?, hStop, hTask]; exact hAwaited, hTurns k hUnfinished hStarting⟩
  cases hShift with
  | steady hSteady hStatus =>
    rcases hStatus with hStatus | ⟨⟨reason, hFailed⟩, -⟩
    · exact hSame hStatus hSteady.stop hSteady.startTask
    · simp [hFailed] at hStarting
  | started hRest _ _ hTask hPhase _ hStop =>
    refine ⟨s.attempts.length, ?_, _, hPhase, nofun⟩
    rw [awaited?, hStop, stop_of_atRest hRest]
    exact hTask
  | stopping _ hRest hAfter =>
    subst hAfter
    obtain ⟨k, hAwaited, hUnfinished⟩ := hSound.starting hStarting
    have hTask : s.startTask = some k := by
      rw [awaited?, stop_of_atRest hRest] at hAwaited
      exact hAwaited
    exact ⟨k, by simp [awaited?, requestStop, hTask], hTurns k hUnfinished hStarting⟩
  | promoted _ _ _ _ _ hRunning => simp [hRunning] at hStarting
  | joined hStop hPhase hAfter =>
    subst hAfter
    obtain ⟨k, hAwaited, phase, hUnfinished, hNot⟩ := hSound.starting hStarting
    simp only [awaited?, hStop, Option.some.injEq] at hAwaited
    rw [← hAwaited, hPhase] at hUnfinished
    exact absurd (Option.some.inj hUnfinished).symm hNot
  | took _ hStop hAfter =>
    refine absurd ?_ (hSound.not_starting hStop fun _ => Stop.noConfusion)
    rcases takeSlot_cases s with ⟨k, -, -, hStatus⟩ | ⟨-, -, hStatus⟩ <;>
    · rw [hAfter, hStatus] at hStarting
      split at hStarting
      · cases hStarting
      · exact hStarting
  | closing hStop hTarget _ _ hStatus =>
    refine absurd (hStatus ▸ hStarting) (hSound.not_starting hStop fun k hJoining => ?_)
    simp [hJoining, Stop.target?] at hTarget
  | @returned k last _ hStop hTarget _ hStatus =>
    have hDown := (hSound.emptied _ _ hStop hTarget).2
    have hStatus := hStatus.resolve_right (by simp [hDown])
    cases last with
    | true => simp [hStatus] at hStarting
    | false =>
      have hSameStatus : t.status = s.status := hStatus
      simp [hSameStatus ▸ hStarting, Status.isUp] at hDown
  | forwarding hStatus _ hTask hStop => exact hSame hStatus hStop hTask

/-- Only the stopping of a session that was running makes the status `stopping`. -/
theorem stopping_shift (hSound : s.Sound) (hShift : Shift s event t)
    (hStopping : t.status = .stopping) :
    ∃ stop k, t.stop = some stop ∧ stop.target? = some (k, true) := by
  have hSame (hStatus : t.status = s.status) (hStop : t.stop = s.stop) :
      ∃ stop k, t.stop = some stop ∧ stop.target? = some (k, true) := by
    rw [hStop]
    exact hSound.stopping (hStatus ▸ hStopping)
  cases hShift with
  | steady hSteady hStatus =>
    rcases hStatus with hStatus | ⟨⟨reason, hFailed⟩, -⟩
    · exact hSame hStatus hSteady.stop
    · simp [hFailed] at hStopping
  | started _ _ hStatus => simp [hStatus] at hStopping
  | stopping _ hRest hAfter =>
    subst hAfter
    refine absurd hStopping (hSound.not_stopping fun stop hStop => ?_)
    simp [stop_of_atRest hRest] at hStop
  | promoted _ _ _ _ _ hRunning => simp [hRunning] at hStopping
  | joined hStop _ hAfter =>
    subst hAfter
    refine absurd hStopping (hSound.not_stopping fun stop hStop' => ?_)
    rw [← Option.some.inj (hStop.symm.trans hStop')]
    rfl
  | took _ hStop hAfter =>
    have hNot : s.status ≠ .stopping := hSound.not_stopping fun stop hStop' => by
      rw [← Option.some.inj (hStop.symm.trans hStop')]
      rfl
    rcases takeSlot_cases s with ⟨k, -, hStop', hStatus⟩ | ⟨-, -, hStatus⟩
    · rw [hAfter, hStatus] at hStopping
      split at hStopping
      · exact ⟨_, k, hAfter ▸ hStop', by simp [Stop.target?, ‹s.status = .running›]⟩
      · exact absurd hStopping hNot
    · rw [hAfter, hStatus] at hStopping
      split at hStopping
      · cases hStopping
      · exact absurd hStopping hNot
  | closing hStop hTarget hStop' hTarget' hStatus =>
    obtain ⟨stop, k, hSome, hLast⟩ := hSound.stopping (hStatus ▸ hStopping)
    obtain rfl := Option.some.inj (hStop.symm.trans hSome)
    exact ⟨_, k, hStop', hTarget'.trans (hTarget.symm.trans hLast)⟩
  | returned hStop hTarget _ hStatus =>
    have hStatus := hStatus.resolve_right (by simp [(hSound.emptied _ _ hStop hTarget).2])
    rw [hStatus] at hStopping
    split at hStopping
    · cases hStopping
    · obtain ⟨stop, k, hSome, hLast⟩ := hSound.stopping hStopping
      obtain rfl := Option.some.inj (hStop.symm.trans hSome)
      rw [hTarget] at hLast
      simp_all
  | forwarding hStatus _ _ hStop => exact hSame hStatus hStop

/-- While a session is being ended, the slot stays empty. -/
theorem emptied_shift (hSound : s.Sound) (hShift : Shift s event t) {target : Nat × Bool}
    (hStop' : t.stop = some stop) (hTarget : stop.target? = some target) :
    t.slot = none ∧ t.status.isUp = false := by
  have hSame (hStop : t.stop = s.stop) : s.slot = none ∧ s.status.isUp = false :=
    hSound.emptied _ _ (hStop ▸ hStop') hTarget
  cases hShift with
  | steady hSteady hStatus =>
    obtain ⟨hSlot, hUp⟩ := hSame hSteady.stop
    refine ⟨hSteady.slot.trans hSlot, ?_⟩
    rcases hStatus with hStatus | ⟨⟨reason, hFailed⟩, -⟩
    · rw [hStatus]
      exact hUp
    · rw [hFailed]
      rfl
  | started hRest _ _ _ _ _ hStop => simp [hStop, stop_of_atRest hRest] at hStop'
  | stopping _ _ hAfter =>
    rw [hAfter] at hStop'
    obtain rfl := Option.some.inj hStop'
    split at hTarget <;> cases hTarget
  | promoted _ _ _ _ hStarting _ _ _ hStop => simp [hStarting, Status.isUp] at hSame; simp_all
  | joined _ _ hAfter =>
    rw [hAfter] at hStop'
    obtain rfl := Option.some.inj hStop'
    cases hTarget
  | took _ hStop hAfter =>
    subst hAfter
    refine ⟨takeSlot_slot s, ?_⟩
    have hNot : s.status ≠ .starting := hSound.not_starting hStop fun _ => Stop.noConfusion
    rcases takeSlot_cases s with ⟨k, -, -, hStatus⟩ | ⟨-, -, hStatus⟩ <;>
    · rw [hStatus]
      split
      · rfl
      · cases hStatus : s.status <;> simp_all [Status.isUp]
  | closing hStop hTarget _ _ hStatus hKeeps =>
    obtain ⟨hSlot, hUp⟩ := hSound.emptied _ _ hStop hTarget
    exact ⟨hKeeps.slot.trans hSlot, hStatus ▸ hUp⟩
  | returned _ _ hNone => simp [hNone] at hStop'
  | forwarding hStatus hSlot _ hStop =>
    obtain ⟨hEmpty, hUp⟩ := hSame hStop
    exact ⟨hSlot.trans hEmpty, hStatus ▸ hUp⟩

/-- The client whose shutdown request is awaited is no longer initialized. -/
theorem awaiting_shift (hShift : Shift s event t)
    (hTurns : ∀ k id last, s.stop = some (.closing k (.awaiting id) last) → t.stop = s.stop →
      ∃ c, t.client? k = some c ∧ c.initialized = false ∧ c.Holds id)
    (hStop' : t.stop = some (.closing k (.awaiting id) last)) :
    ∃ c, t.client? k = some c ∧ c.initialized = false ∧ c.Holds id := by
  have hSame (hStop : t.stop = s.stop) := hTurns k id last (hStop ▸ hStop') hStop
  cases hShift with
  | steady hSteady => exact hSame hSteady.stop
  | started _ _ _ _ _ _ hStop | promoted _ _ _ _ _ _ _ _ hStop | forwarding _ _ _ hStop =>
    exact hSame hStop
  | stopping _ _ hAfter =>
    rw [hAfter, requestStop] at hStop'
    dsimp only at hStop'
    split at hStop' <;> cases hStop'
  | joined _ _ hAfter => simp [hAfter] at hStop'
  | took _ _ hAfter => rcases takeSlot_cases s with ⟨j, -, hStop, -⟩ | ⟨-, hStop, -⟩ <;> simp_all
  | closing _ _ hClosing hTarget _ _ hAwaiting =>
    obtain rfl := Option.some.inj (hClosing.symm.trans hStop')
    cases hTarget
    obtain ⟨c, d, -, hClose, hClient⟩ := hAwaiting id rfl
    obtain ⟨-, hHolds, hSends⟩ := Lsp.Client.beginClose_sends hClose
    exact ⟨d, hClient, hSends.initialized, hHolds⟩
  | returned _ _ hNone => simp [hNone] at hStop'

theorem unclosed_shift (hSound : s.Sound) (hShift : Shift s event t) (k : Nat)
    (shutdown : Except Lsp.Error Unit) (last : Bool) :
    t.stop ≠ some (.closing k (.closed shutdown) last) := by
  have hSame (hStop : t.stop = s.stop) : t.stop ≠ some (.closing k (.closed shutdown) last) :=
    hStop ▸ hSound.unclosed k shutdown last
  cases hShift with
  | steady hSteady => exact hSame hSteady.stop
  | started _ _ _ _ _ _ hStop | promoted _ _ _ _ _ _ _ _ hStop | forwarding _ _ _ hStop =>
    exact hSame hStop
  | stopping _ _ hAfter =>
    rw [hAfter, requestStop]
    dsimp only
    split <;> exact nofun
  | joined _ _ hAfter => simp [hAfter]
  | took _ _ hAfter => rcases takeSlot_cases s with ⟨j, -, hStop, -⟩ | ⟨-, hStop, -⟩ <;> simp_all
  | closing _ _ hStop _ _ _ _ hOpen =>
    rw [hStop]
    exact fun h => hOpen k shutdown last (Option.some.inj h)
  | returned _ _ hNone => simp [hNone]

/-- An attempt whose task is held or joined has been begun before, if not by this step. -/
theorem known_shift (hShift : Shift s event t)
    (h : t.startTask = some k ∨ t.stop = some (.joining k)) :
    (s.startTask = some k ∨ s.stop = some (.joining k)) ∨ (t.phase? k).isSome = true := by
  have hSame (hTask : t.startTask = s.startTask) (hStop : t.stop = s.stop) :
      s.startTask = some k ∨ s.stop = some (.joining k) := hTask ▸ hStop ▸ h
  cases hShift with
  | steady hSteady => exact .inl (hSame hSteady.startTask hSteady.stop)
  | promoted _ _ _ _ _ _ _ hTask hStop | forwarding _ _ hTask hStop =>
    exact .inl (hSame hTask hStop)
  | started _ _ _ hTask hPhase _ hStop =>
    rcases h with hHeld | hJoining
    · rw [hTask] at hHeld
      exact .inr (Option.some.inj hHeld ▸ hPhase ▸ rfl)
    · exact .inl (.inr (hStop ▸ hJoining))
  | stopping _ _ hAfter =>
    rw [hAfter, requestStop] at h
    rcases h with hHeld | hJoining
    · cases hHeld
    · dsimp only at hJoining
      split at hJoining
      · rename_i j hTask
        cases hJoining
        exact .inl (.inl hTask)
      · cases hJoining
  | joined _ _ hAfter => exact .inl (.inl (by simpa [hAfter] using h))
  | took _ _ hAfter =>
    rw [hAfter, takeSlot_startTask] at h
    rcases takeSlot_cases s with ⟨i, -, hStop, -⟩ | ⟨-, hStop, -⟩ <;>
    · rw [hStop] at h
      exact .inl (.inl (h.resolve_right (by simp)))
  | closing _ _ hStop hTarget _ hKeeps =>
    refine .inl (.inl (hKeeps.startTask ▸ h.resolve_right fun hJoining => ?_))
    rw [Option.some.inj (hStop.symm.trans hJoining)] at hTarget
    cases hTarget
  | returned _ _ hStop _ hKeeps =>
    exact .inl (.inl (hKeeps.startTask ▸ h.resolve_right (by simp [hStop])))

/-- Every step keeps a manager sound. -/
theorem next? (hSound : s.Sound) (h : s.next? p event = some t) : t.Sound := by
  have hShift := next?_shift h
  have hTurn := next?_turn h
  refine ⟨hSound.startTask_shift hShift, hSound.allDone_shift hShift, fun k hHeld => ?_,
    hSound.starting_shift hShift fun k hUnfinished hStarting => ?_, hSound.stopping_shift hShift,
    fun _ _ => hSound.emptied_shift hShift, fun k id last hStop => ?_, hSound.unclosed_shift hShift,
    fun k hAwaited => ?_⟩
  · obtain ⟨messages, hTurn⟩ := hTurn k
    rcases hShift.held hHeld with hOld | hOld | hNew
    · exact hTurn.finished (hSound.finished k (.inl hOld))
    · exact hTurn.finished (hSound.finished k (.inr hOld))
    · exact hNew
  · obtain ⟨messages, hTurn⟩ := hTurn k
    exact hTurn.unfinished hUnfinished hStarting
  · refine awaiting_shift hShift (fun k id last hOld hSame => ?_) hStop
    obtain ⟨messages, hTurn⟩ := hTurn k
    obtain ⟨c, hClient, hNot, hHolds⟩ := hSound.awaiting k id last hOld
    have hDown := (hSound.emptied_shift hShift (hSame.trans hOld) rfl).2
    exact hTurn.awaiting (hSound.finished k (.inl (.inr ⟨_, last, hOld, rfl⟩))) hClient hNot hHolds
      hDown hOld hSame
  · obtain ⟨messages, hTurn⟩ := hTurn k
    rcases known_shift hShift hAwaited with hOld | hNew
    · exact hTurn.known (hSound.known k hOld)
    · exact hNew

end State.Sound

/-- A manager is sound in every run. -/
theorem Run.sound {trace : List Step} (hRun : Run p (.create p) trace s) : s.Sound := by
  induction hRun with
  | start =>
    refine ⟨nofun, nofun, ?_, nofun, nofun, nofun, nofun, nofun, ?_⟩
    · rintro k ((hIn | ⟨stop, last, hStop, -⟩) | ⟨f, hMem, -⟩)
      · cases hIn
      · cases hStop
      · cases hMem
    · rintro k (hHeld | hJoining)
      · cases hHeld
      · cases hJoining
  | step prior last ih => exact ih.next? last

end EditorBridge.Session
