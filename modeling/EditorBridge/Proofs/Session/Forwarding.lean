import EditorBridge.Proofs.Session.Farewell
import EditorBridge.Proofs.Session.Forwards
/-!
The way of one notification through the manager. Its own steps are at most two: the look at the
status under the lock, and the sending to the session that was found. And they can always be taken:
whoever holds the lock can send at once, and then the lock is free.
-/
namespace EditorBridge.Session

/-- Does a step begin the forwarding with this number, or go on with it? -/
def Step.forwards (step : Step) (id : Nat) : Bool :=
  step.before.forwarding? step.event == some id

/-- How far a forwarding has come, and the steps that it has taken. -/
inductive Carried (p : Profile) (id : Nat) (message : Message) : List Step → Delivery → Prop where
  | waiting : Carried p id message [] .waiting
  | passed {s t : State} (hNot : s.status ≠ .running) (hSame : t.attempts = s.attempts) :
      Carried p id message [⟨s, .acquire id, t⟩] (.done (.ok false))
  | holding {s t : State} {k : Nat} (hRunning : s.status = .running) (hSlot : s.slot = some k)
      (hSame : t.attempts = s.attempts) : Carried p id message [⟨s, .acquire id, t⟩] (.holding k)
  | sent {s t u v : State} {k : Nat} {c d : Lsp.Client} {result : Except Lsp.Error Unit}
      (hRunning : s.status = .running) (hSlot : s.slot = some k) (hSame : t.attempts = s.attempts)
      (hClient : u.client? k = some c)
      (hUp : u.status = .running → c.initialized = true ∧ c.rpc.isOpen = true)
      (hTell : u.tell p c message = (d, result))
      (hAfter : v.attempts = (u.withClient k d).attempts) :
      Carried p id message [⟨s, .acquire id, t⟩, ⟨u, .deliver id, v⟩] (.done (forwarded result))

/-- The session in the slot is running, and its connection is open. -/
structure State.Serves (s : State) (k : Nat) : Prop where
  running : s.status = .running
  slot : s.slot = some k
  connected : ∃ c, s.client? k = some c ∧ c.rpc.phase = .running ∧
    c.rpc.connection.writable = true

/-- A run in which nothing happens but that locks are taken and notifications are sent. -/
structure Passing (p : Profile) (s : State) (trace : List Step) (t : State) : Prop where
  run : Run p s trace t
  each : ∀ step ∈ trace, ∃ id, step.event = .acquire id ∨ step.event = .deliver id

variable {p : Profile} {s t u : State} {event : Event} {k id : Nat} {f : Forward}
  {message : Message} {past trace : List Step}

/-- A notification waits in the queue of the client, or it is refused; the rest of the client is as
it was. -/
theorem tellInitialized_same {c d : Lsp.Client} {method : String} {params : Json}
    {result : Except Lsp.Error Unit} (h : c.tellInitialized method params = (d, result)) :
    d.rpc.phase = c.rpc.phase ∧ d.rpc.connection = c.rpc.connection := by
  match result, h with
  | .error e, h =>
    obtain rfl := Lsp.Client.tellInitialized_error h
    exact ⟨rfl, rfl⟩
  | .ok (), h =>
    unfold Lsp.Client.tellInitialized Lsp.Client.tell at h
    split at h
    · split at h
      · rename_i hNotify
        obtain ⟨-, rfl⟩ := Rpc.Client.notify_ok hNotify
        cases h
        exact ⟨rfl, rfl⟩
      · cases h
    · cases h

theorem State.tell_same {c d : Lsp.Client} {result : Except Lsp.Error Unit}
    (h : s.tell p c message = (d, result)) :
    d.rpc.phase = c.rpc.phase ∧ d.rpc.connection = c.rpc.connection := by
  unfold tell at h
  split at h
  · exact tellInitialized_same h
  · exact tellInitialized_same h
  · split at h
    · cases h
      exact ⟨rfl, rfl⟩
    · exact tellInitialized_same h

theorem State.mem_numbers_of_forward? (h : s.forward? id = some f) : id ∈ s.numbers := by
  have hMem : f ∈ s.forwards := List.mem_of_find?_eq_some h
  exact List.mem_map.mpr ⟨f, hMem, State.id_of_forward? h⟩

theorem State.forward?_setDelivery_self {delivery : Delivery} (h : s.forward? id = some f) :
    (s.setDelivery id delivery).forward? id = some { f with delivery } := by
  rw [forward?_setDelivery, h, Option.map_some, if_pos (id_of_forward? h)]

/-- Whoever holds the lock while a session is running has that session to tell, and it is up. -/
theorem Placed.up_of_locks (h : Placed trace s) (hLocks : s.Locks k)
    (hRunning : s.status = .running) {c : Lsp.Client} (hClient : s.client? k = some c) :
    c.initialized = true ∧ c.rpc.isOpen = true := by
  obtain ⟨j, hSlot, hRaiser⟩ := h.running hRunning
  obtain rfl : j = k := Option.some.inj (hRaiser.symm.trans (h.locks k hLocks))
  obtain ⟨d, hSame, hUp⟩ := h.up hRunning j hSlot
  exact Option.some.inj (hSame.symm.trans hClient) ▸ hUp

/-- A forwarding takes its next step. -/
theorem Carried.step {delivery : Delivery} {own : List Step} (h : Carried p id message own delivery)
    (hPast : Run p (.create p) past s) (hStep : s.next? p event = some t)
    (hFind : s.forward? id = some ⟨id, message, delivery⟩)
    (hOwn : s.forwarding? event = some id) (hUntaken : event ≠ .takeResult id) :
    ∃ delivery', t.forward? id = some ⟨id, message, delivery'⟩ ∧
      Carried p id message (own ++ [⟨s, event, t⟩]) delivery' := by
  cases State.next?_relay hStep with
  | aside hEvent => simp [hEvent] at hOwn
  | begun _ hEvent =>
    -- The number is in use, so it is not the next one.
    have hLess := hPast.queued.numbered id (State.mem_numbers_of_forward? hFind)
    have hSame : s.nextForward = id := by
      rcases hEvent with rfl | ⟨settings, rfl⟩ <;> exact Option.some.inj hOwn
    omega
  | looked hEvent hFind' hWaits hFree hFinds hAfter =>
    subst hEvent
    obtain rfl := Option.some.inj hOwn
    obtain rfl := Option.some.inj (hFind'.symm.trans hFind)
    obtain rfl : delivery = .waiting := hWaits
    refine ⟨_, hAfter ▸ State.forward?_setDelivery_self hFind, ?_⟩
    have hSame : t.attempts = s.attempts := hAfter ▸ rfl
    cases h
    cases hFinds with
    | nobody hNobody =>
      apply Carried.passed _ hSame
      intro hRunning
      obtain ⟨k, hSlot, -⟩ := hPast.placed.running hRunning
      rcases hNobody with hNone | hNot
      · simp [hSlot] at hNone
      · exact hNot hRunning
    | session hSlot hRunning => exact .holding hRunning hSlot hSame
  | @sent other k _ c d result hEvent hFind' hHolds hClient hTell hAfter =>
    subst hEvent
    obtain rfl : other = id := Option.some.inj hOwn
    obtain rfl := Option.some.inj (hFind'.symm.trans hFind)
    obtain rfl : delivery = .holding k := hHolds
    have hMem := List.mem_of_find?_eq_some hFind
    have hFound : (s.withClient k d).forward? other = some ⟨other, message, .holding k⟩ := hFind
    refine ⟨_, hAfter ▸ State.forward?_setDelivery_self hFound, ?_⟩
    cases h with
    | holding hRunning hSlot hSame =>
      have hUp (h : s.status = .running) := hPast.placed.up_of_locks ⟨_, hMem, rfl⟩ h hClient
      exact .sent hRunning hSlot hSame hClient hUp hTell (hAfter ▸ rfl)
  | taken hEvent =>
    subst hEvent
    obtain rfl := Option.some.inj hOwn
    exact absurd rfl hUntaken

/-- What has become of a forwarding whose result was not taken. -/
theorem Run.carried (hPast : Run p (.create p) past s) (hRun : Run p s trace t)
    (hFind : s.forward? id = some ⟨id, message, .waiting⟩)
    (hUntaken : ∀ step ∈ trace, step.event ≠ .takeResult id) :
    ∃ delivery, t.forward? id = some ⟨id, message, delivery⟩ ∧
      Carried p id message (trace.filter (·.forwards id)) delivery := by
  induction hRun with
  | start => exact ⟨_, hFind, .waiting⟩
  | @step trace t u event prior last ih =>
    have hEarlier : ∀ step ∈ trace, step.event ≠ .takeResult id := fun step hMem =>
      hUntaken step (List.mem_append_left _ hMem)
    have hLast : event ≠ .takeResult id := hUntaken ⟨t, event, u⟩ (by simp)
    obtain ⟨delivery, hFound, hCarried⟩ := ih hEarlier
    rw [List.filter_append]
    by_cases hOwn : t.forwarding? event = some id
    · have hFilter : [(⟨t, event, u⟩ : Step)].filter (·.forwards id) = [⟨t, event, u⟩] := by
        simp [Step.forwards, hOwn]
      rw [hFilter]
      exact hCarried.step (hPast.trans prior) last hFound hOwn hLast
    · have hFilter : [(⟨t, event, u⟩ : Step)].filter (·.forwards id) = [] := by
        simp [Step.forwards, hOwn]
      rw [hFilter, List.append_nil]
      exact ⟨delivery, (State.next?_relay last).forward? hOwn hFound, hCarried⟩

theorem Queued.forward?_of_mem (h : Queued s) (hMem : f ∈ s.forwards) :
    s.forward? f.id = some f := by
  cases hFind : s.forward? f.id with
  | none =>
    have hNot := List.find?_eq_none.mp hFind f hMem
    simp at hNot
  | some g =>
    have hOther : g ∈ s.forwards := List.mem_of_find?_eq_some hFind
    have hSame := State.id_of_forward? hFind
    exact congrArg some (List.inj_on_of_nodup_map h.distinct hOther hMem hSame)

/-- Whoever holds the lock sends, and then the lock is free. -/
theorem Queued.delivers (h : Queued s) (hMem : f ∈ s.forwards) (hHolds : f.delivery = .holding k) :
    ∃ t result, s.next? p (.deliver f.id) = some t ∧ t.slotFree = true ∧
      t.forward? f.id = some { f with delivery := .done result } := by
  obtain ⟨c, hClient⟩ := h.clients k ⟨f, hMem, hHolds⟩
  obtain ⟨d, result, hTell⟩ : ∃ d result, s.tell p c f.message = (d, result) := ⟨_, _, rfl⟩
  have hFound : (s.withClient k d).forward? f.id = some f := h.forward?_of_mem hMem
  have hFind : s.forwards.find? (·.id == f.id) = some ⟨f.id, f.message, .holding k⟩ := by
    rw [← hHolds]
    exact hFound
  have hStep : s.next? p (.deliver f.id) =
      some ((s.withClient k d).setDelivery f.id (.done (forwarded result))) := by
    simp only [State.next?, State.deliver?, hFind, hClient, Option.map_some, hTell]
    cases result <;> rfl
  refine ⟨_, _, hStep, ?_, State.forward?_setDelivery_self hFound⟩
  refine List.all_eq_true.mpr fun g hAfter => ?_
  obtain ⟨g', hBefore, rfl⟩ := List.mem_map.mp hAfter
  by_cases hSame : g'.id = f.id
  · simp [hSame]
  · rw [if_neg hSame]
    cases hOther : g'.delivery with
    | holding j => exact absurd (h.alone g' hBefore f hMem j k hOther hHolds) hSame
    | _ => rfl

theorem State.not_slotFree (h : s.slotFree = false) :
    ∃ f ∈ s.forwards, ∃ k, f.delivery = .holding k := by
  obtain ⟨f, hMem, hHolds⟩ := List.all_eq_false.mp h
  cases hDelivery : f.delivery with
  | holding k => exact ⟨f, hMem, k, hDelivery⟩
  | _ => simp [hDelivery] at hHolds

namespace Passing

theorem refl (p : Profile) (s : State) : Passing p s [] s :=
  ⟨.start, fun _ hMem => absurd hMem List.not_mem_nil⟩

theorem of_step (h : Passing p t trace u) (hStep : s.next? p event = some t)
    (hEvent : ∃ id, event = .acquire id ∨ event = .deliver id) :
    Passing p s (⟨s, event, t⟩ :: trace) u := by
  refine ⟨Run.trans (.step .start hStep) h.run, fun step hMem => ?_⟩
  rcases List.mem_cons.mp hMem with rfl | hLater
  · exact hEvent
  · exact h.each step hLater

end Passing

/-- A forwarding that holds the lock is done as soon as it has sent. -/
theorem Run.holder_passes (hRun : Run p (.create p) past s) (hFind : s.forward? id = some f)
    (hHolds : f.delivery = .holding k) :
    ∃ trace t result, Passing p s trace t ∧
      t.forward? id = some { f with delivery := .done result } := by
  obtain rfl := State.id_of_forward? hFind
  have hMem : f ∈ s.forwards := List.mem_of_find?_eq_some hFind
  obtain ⟨t, result, hStep, -, hDone⟩ := hRun.queued.delivers (p := p) hMem hHolds
  exact ⟨_, t, result, (Passing.refl p t).of_step hStep ⟨_, .inr rfl⟩, hDone⟩

/-- A forwarding that waits takes the lock as soon as that is free. -/
theorem Run.waiter_passes (hRun : Run p (.create p) past s) (hFind : s.forward? id = some f)
    (hWaits : f.delivery = .waiting) (hFree : s.slotFree = true) :
    ∃ trace t result, Passing p s trace t ∧
      t.forward? id = some { f with delivery := .done result } := by
  obtain rfl := State.id_of_forward? hFind
  have hWaiter : s.forwards.find? (·.id == f.id) = some ⟨f.id, f.message, .waiting⟩ := by
    rw [← hWaits]
    exact hFind
  have hNobody (hStep : s.next? p (.acquire f.id) =
      some (s.setDelivery f.id (.done (.ok false)))) :
      ∃ trace t result, Passing p s trace t ∧
        t.forward? f.id = some { f with delivery := .done result } :=
    ⟨_, _, _, (Passing.refl p _).of_step hStep ⟨_, .inl rfl⟩,
      State.forward?_setDelivery_self hFind⟩
  cases hSlot : s.slot with
  | none =>
    apply hNobody
    simp [State.next?, State.acquire?, hWaiter, hFree, hSlot]
  | some k =>
    by_cases hRunning : s.status = .running
    · have hStep : s.next? p (.acquire f.id) = some (s.setDelivery f.id (.holding k)) := by
        simp [State.next?, State.acquire?, hWaiter, hFree, hSlot, hRunning]
      obtain ⟨trace, t, result, hPassing, hDone⟩ :=
        (hRun.step hStep).holder_passes (State.forward?_setDelivery_self hFind) rfl
      exact ⟨_, t, result, hPassing.of_step hStep ⟨_, .inl rfl⟩, hDone⟩
    · apply hNobody
      simp [State.next?, State.acquire?, hWaiter, hFree, hSlot, hRunning]

/-- Whatever has happened, a forwarding can be brought to its end by steps of forwardings. -/
theorem Run.forwarding_passes (hRun : Run p (.create p) past s) (hFind : s.forward? id = some f) :
    ∃ trace t result, Passing p s trace t ∧
      t.forward? id = some { f with delivery := .done result } := by
  cases hDelivery : f.delivery with
  | done result =>
    refine ⟨[], s, result, .refl p s, ?_⟩
    rw [hFind, ← hDelivery]
  | holding k => exact hRun.holder_passes hFind hDelivery
  | waiting =>
    cases hFree : s.slotFree with
    | true => exact hRun.waiter_passes hFind hDelivery hFree
    | false =>
      -- Another one holds the lock; it sends, and then this one can take the lock.
      obtain ⟨g, hMem, k, hHolds⟩ := State.not_slotFree hFree
      obtain ⟨t, -, hStep, hFree', -⟩ := hRun.queued.delivers (p := p) hMem hHolds
      have hOther : s.forwarding? (.deliver g.id) ≠ some id := by
        intro hSame
        have hHolder := hRun.queued.forward?_of_mem hMem
        rw [Option.some.inj hSame, hFind] at hHolder
        rw [← Option.some.inj hHolder, hDelivery] at hHolds
        cases hHolds
      have hFind' := (State.next?_relay hStep).forward? hOther hFind
      obtain ⟨trace, u, result, hPassing, hDone⟩ :=
        (hRun.step hStep).waiter_passes hFind' hDelivery hFree'
      exact ⟨_, u, result, hPassing.of_step hStep ⟨_, .inr rfl⟩, hDone⟩

theorem State.client?_withClient_of_ne {j : Nat} (s : State) (c : Lsp.Client) (h : j ≠ k) :
    (s.withClient j c).client? k = s.client? k := by
  rw [client?_eq, client?_eq, face?_withClient, if_neg h]

/-- Neither taking the lock nor sending changes the status, the slot or the connections. -/
theorem State.next?_passing (hStep : s.next? p event = some t)
    (hEvent : ∃ id, event = .acquire id ∨ event = .deliver id) :
    t.status = s.status ∧ ∀ k, s.Serves k → t.Serves k := by
  cases State.next?_relay hStep with
  | aside hNone => obtain ⟨id, rfl | rfl⟩ := hEvent <;> cases hNone
  | begun message hNone =>
    obtain ⟨id, rfl | rfl⟩ := hEvent <;> rcases hNone with h | ⟨settings, h⟩ <;> cases h
  | looked _ _ _ _ _ hAfter =>
    subst hAfter
    exact ⟨rfl, fun k h => ⟨h.running, h.slot, h.connected⟩⟩
  | @sent _ j _ c d _ _ _ _ hClient hTell hAfter =>
    subst hAfter
    obtain ⟨hPhase, hConnection⟩ := State.tell_same hTell
    refine ⟨rfl, fun k ⟨hRunning, hSlot, e, hOther, hLoop, hWritable⟩ => ⟨hRunning, hSlot, ?_⟩⟩
    by_cases hSame : j = k
    · subst hSame
      obtain rfl := Option.some.inj (hClient.symm.trans hOther)
      exact ⟨d, State.client?_withClient hClient, hPhase.trans hLoop, hConnection ▸ hWritable⟩
    · exact ⟨e, (State.client?_withClient_of_ne s d hSame).trans hOther, hLoop, hWritable⟩
  | taken hNone => obtain ⟨id, rfl | rfl⟩ := hEvent <;> cases hNone

/-- While forwardings are passed on, the status stays what it is, and so does the session. -/
theorem Passing.keeps (h : Passing p s trace t) :
    (t.status = s.status ∧ ∀ k, s.Serves k → t.Serves k) ∧
      ∀ step ∈ trace, step.before.status = s.status ∧ ∀ k, s.Serves k → step.before.Serves k := by
  obtain ⟨hRun, hEach⟩ := h
  induction hRun with
  | start => exact ⟨⟨rfl, fun k => id⟩, fun step hMem => absurd hMem List.not_mem_nil⟩
  | @step trace t event u prior last ih =>
    obtain ⟨⟨hStatus, hServes⟩, hEarlier⟩ := ih fun step hMem =>
      hEach step (List.mem_append_left _ hMem)
    have hLast := hEach ⟨t, _, _⟩ (List.mem_append_right _ List.mem_cons_self)
    obtain ⟨hStatus', hServes'⟩ := State.next?_passing last hLast
    refine ⟨⟨hStatus'.trans hStatus, fun k h => hServes' k (hServes k h)⟩, fun step hMem => ?_⟩
    rcases List.mem_append.mp hMem with hOld | hNew
    · exact hEarlier step hOld
    · rw [List.mem_singleton.mp hNew]
      exact ⟨hStatus, hServes⟩

end EditorBridge.Session
