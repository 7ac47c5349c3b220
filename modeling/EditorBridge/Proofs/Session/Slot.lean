import EditorBridge.Proofs.Session.Lifecycle
/-!
The session in the slot. The status and the slot are told apart, but whenever the status is
`running` the slot holds the session of the attempt whose task made it so, and that one is up. A
forwarding holds the lock from the look at the status until it has sent, so the session it sends to
is still the one that was brought up last.
-/
namespace EditorBridge.Session

/-- Does a step bring a session up? -/
def Step.raises (step : Step) : Bool :=
  step.before.status != .running && step.after.status == .running

/-- The attempt whose task brought a session up last. -/
def raiser? (trace : List Step) : Option Nat :=
  (trace.filter (·.raises)).getLast?.bind (·.event.task?)

theorem raiser?_of_raises {trace : List Step} {step : Step} (h : step.raises = true) :
    raiser? (trace ++ [step]) = step.event.task? := by
  simp [raiser?, h]

theorem raiser?_of_not_raises {trace : List Step} {step : Step} (h : step.raises = false) :
    raiser? (trace ++ [step]) = raiser? trace := by
  simp [raiser?, h]

variable {p : Profile} {s t : State} {event : Event} {k : Nat} {trace : List Step}
  {messages : List Rpc.Utterance}

/-- Whose session is up, and whose is being told something. -/
structure Placed (trace : List Step) (s : State) : Prop where
  running : s.status = .running → ∃ k, s.slot = some k ∧ raiser? trace = some k
  locks : ∀ k, s.Locks k → raiser? trace = some k
  up : s.status = .running → ∀ k, s.slot = some k →
    ∃ c, s.client? k = some c ∧ c.initialized = true ∧ c.rpc.isOpen = true

/-- Emptying the slot leaves no session that is running. -/
theorem takeSlot_not_running (s : State) : s.takeSlot.status ≠ .running := by
  rcases s.takeSlot_cases with ⟨k, -, -, hStatus⟩ | ⟨-, -, hStatus⟩ <;>
  · rw [hStatus]
    split
    · exact nofun
    · assumption

/-- A step that brings a session up is a promotion; every other one that leaves it up keeps it in
the slot. -/
theorem Shift.running (hShift : Shift s event t) (hSound : s.Sound)
    (hRunning : t.status = .running) :
    (∃ k, event = .task k ∧ t.slot = some k ∧ s.slotFree = true ∧ s.status = .starting ∧
      s.phase? k = some .promoting ∧ t.phase? k = some .finished) ∨
    s.status = .running ∧ t.slot = s.slot := by
  cases hShift with
  | steady hSteady hStatus =>
    rcases hStatus with hSame | ⟨⟨reason, hFailed⟩, -⟩
    · exact .inr ⟨hSame ▸ hRunning, hSteady.slot⟩
    · simp [hFailed] at hRunning
  | started _ _ hStatus => simp [hStatus] at hRunning
  | stopping _ _ hAfter => subst hAfter; exact .inr ⟨hRunning, rfl⟩
  | promoted hEvent hFree hPhase hFinished hStarting _ hSlot =>
    exact .inl ⟨_, hEvent, hSlot, hFree, hStarting, hPhase, hFinished⟩
  | joined _ _ hAfter => subst hAfter; exact .inr ⟨hRunning, rfl⟩
  | took _ _ hAfter => exact absurd (hAfter ▸ hRunning) (takeSlot_not_running s)
  | closing _ _ _ _ hStatus hKeeps => exact .inr ⟨hStatus ▸ hRunning, hKeeps.slot⟩
  | returned hStop hTarget _ hStatus hKeeps =>
    have hStatus := hStatus.resolve_right (by simp [(hSound.emptied _ _ hStop hTarget).2])
    rw [hRunning] at hStatus
    split at hStatus
    · cases hStatus
    · exact .inr ⟨hStatus.symm, hKeeps.slot⟩
  | forwarding hStatus hSlot => exact .inr ⟨hStatus ▸ hRunning, hSlot⟩

/-- A forwarding that holds the lock held it before, or has found a running session in the slot. -/
theorem Shift.locks (hShift : Shift s event t) (hLocks : t.Locks k) :
    s.Locks k ∨ s.slot = some k ∧ s.status = .running := by
  have hSame (hForwards : t.forwards = s.forwards) : s.Locks k := by
    obtain ⟨f, hMem, hLock⟩ := hLocks
    exact ⟨f, hForwards ▸ hMem, hLock⟩
  cases hShift with
  | steady hSteady => exact .inl (hSame hSteady.forwards)
  | started _ _ _ _ _ _ _ hForwards => exact .inl (hSame hForwards)
  | stopping _ _ hAfter => exact .inl (hSame (hAfter ▸ rfl))
  | promoted _ _ _ _ _ _ _ _ _ hForwards => exact .inl (hSame hForwards)
  | joined _ _ hAfter => exact .inl (hSame (hAfter ▸ rfl))
  | took _ _ hAfter => exact .inl (hSame (hAfter ▸ State.takeSlot_forwards s))
  | closing _ _ _ _ _ hKeeps | returned _ _ _ _ hKeeps => exact .inl (hSame hKeeps.forwards)
  | forwarding _ _ _ _ hLocks' => exact hLocks' k hLocks

/-- The client of a session that is running and in the slot stays initialized and open. -/
theorem Turn.stays_up (hTurn : Turn p s event t k messages) (hSound : s.Sound)
    (hRunning : s.status = .running) (hSlot : s.slot = some k) {c : Lsp.Client}
    (hClient : s.client? k = some c) (hInitialized : c.initialized = true)
    (hOpen : c.rpc.isOpen = true) :
    ∃ d, t.client? k = some d ∧ d.initialized = true ∧ d.rpc.isOpen = true := by
  obtain ⟨phase, hFace⟩ := State.face?_of_client? hClient
  obtain rfl := hSound.phase_eq (.inl (.inl hSlot)) hFace
  have hEnds : ¬ s.Ends k := by
    rintro ⟨stop, last, hStop, hTarget⟩
    simp [(hSound.emptied _ _ hStop hTarget).1] at hSlot
  cases hTurn with
  | absent hBefore | begun _ hBefore | connected hBefore | asked hBefore | greeted hBefore
    | configured hBefore | placed _ _ hBefore => simp [hFace] at hBefore
  | calm hBefore hAfter hCalm =>
    rw [hFace] at hBefore
    cases hBefore
    cases hCalm with
    | some hCalm =>
      exact ⟨_, State.client?_of_face? hAfter, hCalm.initialized.trans hInitialized,
        hCalm.isOpen.trans hOpen⟩
  | gaveUp _ _ hPhase hBefore =>
    rw [hFace] at hBefore
    cases hBefore
    exact absurd rfl hPhase
  | closed hHeld =>
    rcases hHeld with ⟨-, hStarting⟩ | hEnding
    · simp [hRunning] at hStarting
    · exact absurd hEnding hEnds
  | told _ _ hBefore hWas _ hSends hAfter =>
    exact ⟨_, State.client?_of_face? hAfter, hSends.initialized.trans hWas, hSends.isOpen⟩
  | shutDown hStop => exact absurd ⟨_, _, hStop, rfl⟩ hEnds
  | left hStop => exact absurd ⟨_, _, hStop, rfl⟩ hEnds

/-- The client of a session that is put into the slot is initialized and open. -/
theorem Turn.comes_up {heard : Rpc.Response → Prop} {said : List Rpc.Utterance}
    (hTurn : Turn p s event t k messages) (hSound : s.Sound) (hStage : Stage heard (s.face? k) said)
    (hStarting : s.status = .starting) (hRunning : t.status = .running)
    (hBefore : s.phase? k = some .promoting) (hAfter : t.phase? k = some .finished) :
    ∃ d, t.client? k = some d ∧ d.initialized = true ∧ d.rpc.isOpen = true := by
  have hNotHeld : ¬ s.Held k := fun hHeld => by
    simp [hSound.finished k (.inl hHeld)] at hBefore
  rw [State.phase?_eq] at hBefore
  obtain ⟨⟨phase, client⟩, hFace, rfl⟩ := Option.map_eq_some_iff.mp hBefore
  rw [hFace] at hStage
  cases hTurn with
  | absent h | begun _ h | connected h | asked h | greeted h | configured h => simp [hFace] at h
  | calm h hSame | closed _ h hSame | told _ _ h _ _ _ hSame | shutDown _ h _ hSame
    | left _ h _ hSame =>
    rw [hFace] at h
    cases h
    simp [State.phase?_of_face? hSame] at hAfter
  | placed _ _ h hPlaced =>
    rw [hFace] at h
    cases h
    cases hStage with
    | promoting hInitialized hOpen =>
      exact ⟨_, State.client?_of_face? hPlaced, hInitialized, hOpen⟩
  | gaveUp _ hWas =>
    rcases hWas hRunning with hUp | hSlot
    · simp [hStarting] at hUp
    · exact absurd (.inl hSlot) hNotHeld

/-- Every step keeps the session that is running in its place. -/
theorem Placed.step (hPlaced : Placed trace s) (hSound : s.Sound)
    (hCourse : ∀ k, ∃ said, Course trace s k said) (hStep : s.next? p event = some t) :
    Placed (trace ++ [⟨s, event, t⟩]) t := by
  have hShift := State.next?_shift hStep
  have hLocks (k : Nat) (hLock : t.Locks k) : raiser? trace = some k := by
    rcases hShift.locks hLock with hOld | ⟨hSlot, hRunning⟩
    · exact hPlaced.locks k hOld
    · obtain ⟨j, hIn, hRaiser⟩ := hPlaced.running hRunning
      rw [hRaiser, ← hIn, hSlot]
  by_cases hRunning : t.status = .running
  · rcases hShift.running hSound hRunning with
      ⟨j, rfl, hSlot, hFree, hStarting, hBefore, hAfter⟩ | ⟨hWas, hSlot⟩
    · have hRaises : (⟨s, .task j, t⟩ : Step).raises = true := by
        simp [Step.raises, hRunning, hStarting]
      have hRaiser : raiser? (trace ++ [⟨s, .task j, t⟩]) = some j := raiser?_of_raises hRaises
      refine ⟨fun _ => ⟨j, hSlot, hRaiser⟩, fun k hLock => ?_, fun _ k hIn => ?_⟩
      · rcases hShift.locks hLock with hOld | ⟨-, hUp⟩
        · exact absurd hOld (State.not_locks_of_slotFree hFree k)
        · simp [hStarting] at hUp
      · obtain rfl := Option.some.inj (hSlot.symm.trans hIn)
        obtain ⟨said, hCourse⟩ := hCourse j
        obtain ⟨messages, hTurn⟩ := State.next?_turn hStep j
        exact hTurn.comes_up hSound hCourse.stage hStarting hRunning hBefore hAfter
    · have hRaises : (⟨s, event, t⟩ : Step).raises = false := by simp [Step.raises, hWas]
      rw [← raiser?_of_not_raises hRaises] at hLocks
      refine ⟨fun _ => ?_, hLocks, fun _ k hIn => ?_⟩
      · obtain ⟨k, hIn, hRaiser⟩ := hPlaced.running hWas
        exact ⟨k, hSlot.trans hIn, (raiser?_of_not_raises hRaises).trans hRaiser⟩
      · obtain ⟨c, hClient, hInitialized, hOpen⟩ := hPlaced.up hWas k (hSlot ▸ hIn)
        obtain ⟨messages, hTurn⟩ := State.next?_turn hStep k
        exact hTurn.stays_up hSound hWas (hSlot ▸ hIn) hClient hInitialized hOpen
  · have hRaises : (⟨s, event, t⟩ : Step).raises = false := by simp [Step.raises, hRunning]
    rw [← raiser?_of_not_raises hRaises] at hLocks
    exact ⟨fun h => absurd h hRunning, hLocks, fun h => absurd h hRunning⟩

theorem Run.placed (hRun : Run p (.create p) trace s) : Placed trace s := by
  induction hRun with
  | start =>
    refine ⟨nofun, fun k hLock => ?_, nofun⟩
    obtain ⟨f, hMem, -⟩ := hLock
    cases hMem
  | step prior last ih => exact ih.step prior.sound prior.course last

/-- What a forwarding sends, it sends to the session for which it holds the lock. -/
theorem locks_of_deliver {id : Nat} (hStep : s.next? p (.deliver id) = some t)
    (hSent : (⟨s, .deliver id, t⟩ : Step).sent k ≠ []) : s.Locks k := by
  obtain ⟨j, message, c, d, result, hLocks, -, -, hFaces⟩ := State.deliver_eq hStep
  by_cases hSame : j = k
  · exact hSame ▸ hLocks
  · have hFace := hFaces k
    rw [State.face?_withClient, if_neg hSame] at hFace
    refine absurd ?_ hSent
    unfold Step.sent
    dsimp only
    rw [State.client?_eq t, hFace, ← State.client?_eq s]
    cases s.client? k with
    | none => rfl
    | some c => simp [Rpc.Client.taken]

/-- What comes before a step of a run is a run that ends where the step begins. -/
theorem Run.before {s t : State} {earlier later : List Step} {step : Step}
    (hRun : Run p s trace t) (hTrace : trace = earlier ++ step :: later) :
    Run p s earlier step.before := by
  induction hRun generalizing later with
  | start => simp at hTrace
  | step prior last ih =>
    rcases List.eq_nil_or_concat later with rfl | ⟨front, final, rfl⟩
    · obtain ⟨rfl, hLast⟩ := List.append_inj' hTrace rfl
      exact List.head_eq_of_cons_eq hLast ▸ prior
    · rw [List.concat_eq_append, ← List.cons_append, ← List.append_assoc] at hTrace
      exact ih (List.append_inj' hTrace rfl).1

/-- In every run, whenever the status is `running`, the slot holds the session of the attempt whose
task made it so: its client is initialized, it takes messages, and what it has taken begins with the
first request, whose proper answer was received, and with the two notifications behind it. And what
is forwarded goes only to the session that was brought up last by then. -/
theorem running_session_in_slot (hRun : Run p (.create p) trace s) :
    (s.status = .running → ∃ k c messages, s.slot = some k ∧ raiser? trace = some k ∧
      s.client? k = some c ∧ c.initialized = true ∧ c.rpc.isOpen = true ∧
      trace.flatMap (·.sent k) = messages.map Rpc.Utterance.text ∧
      opening <+: messages.map (·.method) ∧ Greeted trace k messages) ∧
    ∀ earlier step later, trace = earlier ++ step :: later → ∀ id, step.event = .deliver id →
      ∀ k, step.sent k ≠ [] → raiser? earlier = some k := by
  refine ⟨fun hRunning => ?_, fun earlier step later hTrace id hEvent k hSent => ?_⟩
  · obtain ⟨k, hSlot, hRaiser⟩ := hRun.placed.running hRunning
    obtain ⟨c, hClient, hInitialized, hOpen⟩ := hRun.placed.up hRunning k hSlot
    obtain ⟨said, hCourse⟩ := hRun.course k
    obtain ⟨phase, hFace⟩ := State.face?_of_client? hClient
    obtain rfl := hRun.sound.phase_eq (.inl (.inl hSlot)) hFace
    have hStage := hCourse.stage
    rw [hFace] at hStage
    have hMore := hStage.one_lt_length hOpen (.inr rfl)
    refine ⟨k, c, said, hSlot, hRaiser, hClient, hInitialized, hOpen, hCourse.sent, ?_,
      hCourse.greeted hMore⟩
    cases hStage with
    | running _ _ _ hSaid => exact hSaid ▸ List.prefix_append ..
    | leaving hNot => simp [hInitialized] at hNot
    | closed hClosed => simp [hOpen] at hClosed
  · have hStep := hRun.next? step (by simp [hTrace])
    obtain ⟨before, event, after⟩ := step
    obtain rfl : event = .deliver id := hEvent
    exact (hRun.before hTrace).placed.locks k (locks_of_deliver hStep hSent)

/-- The task of a superseded attempt takes the place of the later one, and then a document is told
to its server. -/
def lateForward : Option (List Step × State) :=
  let server : Path := .ofString "/server"
  (State.create plainProfile).follow? plainProfile
    [.start server none, .launched 0 (.ok (.fresh, none)), .task 0, .exit 0 (some 1),
      .start server none, .launched 1 (.ok (.fresh, none)), .task 1, .loop 0,
      .connection 0 (answerCall 1 "\x7b\"capabilities\":\x7b\x7d\x7d"), .loop 0, .loop 0,
      .task 0, .task 0, .task 0, .forward (.opened (.ofString "/a.java") "java" 1 "x"),
      .acquire 0, .deliver 0]

theorem lateForward_shown :
    lateForward.map (fun (trace, s) => (s.status, s.slot, s.attempts.length,
      trace.getLast?.map fun step : Step => (step.sent 0).length)) =
      some (.running, some 0, 2, some 1) := by
  decide +kernel

theorem lateForward_in_slot :
    ∃ trace s, lateForward = some (trace, s) ∧ s.status = .running ∧ s.attempts.length = 2 ∧
      (∃ c messages, s.slot = some 0 ∧ raiser? trace = some 0 ∧ s.client? 0 = some c ∧
        c.initialized = true ∧ c.rpc.isOpen = true ∧
        trace.flatMap (·.sent 0) = messages.map Rpc.Utterance.text ∧
        opening <+: messages.map (·.method) ∧ Greeted trace 0 messages) ∧
      ∀ earlier step later, trace = earlier ++ step :: later → ∀ id, step.event = .deliver id →
        ∀ k, step.sent k ≠ [] → raiser? earlier = some k := by
  obtain ⟨⟨trace, s⟩, hEval, hShown⟩ := Option.map_eq_some_iff.mp lateForward_shown
  simp only [Prod.mk.injEq] at hShown
  obtain ⟨hRunning, hSlot, hLength, -⟩ := hShown
  obtain ⟨hIn, hTold⟩ := running_session_in_slot (State.run_of_follow? hEval)
  obtain ⟨k, c, messages, hSlot', hRest⟩ := hIn hRunning
  obtain rfl : 0 = k := Option.some.inj (hSlot.symm.trans hSlot')
  exact ⟨trace, s, hEval, hRunning, hLength, ⟨c, messages, hSlot, hRest⟩, hTold⟩

end EditorBridge.Session
