import EditorBridge.Proofs.Session.Returning
import EditorBridge.Proofs.Session.Verdicts
/-!
What becomes of a notification that is forwarded. Every forwarding has a number of its own. It waits
for the lock of the slot; with the lock it looks at the status, and it either has nobody to tell or
keeps the lock until it has told the session in the slot. Then it is done until its result is taken.
No other step of the manager touches it, so what has become of it is told by its own steps.
-/
namespace EditorBridge.Session

namespace State

/-- The number of the forwarding that an event begins or goes on with. -/
def forwarding? (s : State) : Event → Option Nat
  | .changeConfiguration _ | .forward _ => some s.nextForward
  | .acquire id | .deliver id | .takeResult id => some id
  | _ => none

def forward? (s : State) (id : Nat) : Option Forward := s.forwards.find? (·.id == id)

/-- What a forwarding finds when it has the lock and looks at the status: nobody to tell, or the
session in the slot. -/
inductive Finds (s : State) : Delivery → Prop where
  | nobody (h : s.slot = none ∨ s.status ≠ .running) : Finds s (.done (.ok false))
  | session {k : Nat} (hSlot : s.slot = some k) (hRunning : s.status = .running) :
      Finds s (.holding k)

end State

/-- What is told to whoever forwarded a notification that was sent, or could not be. -/
def forwarded : Except Lsp.Error Unit → Except Error Bool
  | .ok () => .ok true
  | .error e => .error (.lsp e)

/-- What a step does to what is forwarded. -/
inductive Relay (p : Profile) (s : State) (event : Event) (t : State) : Prop where
  | aside (hEvent : s.forwarding? event = none) (hForwards : t.forwards = s.forwards)
      (hNext : t.nextForward = s.nextForward)
  | begun (message : Message)
      (hEvent : event = .forward message ∨ ∃ settings, event = .changeConfiguration settings)
      (hForwards : t.forwards = s.forwards ++ [⟨s.nextForward, message, .waiting⟩])
      (hNext : t.nextForward = s.nextForward + 1) (hAttempts : t.attempts = s.attempts)
      (hServer : t.server = s.server)
  | looked {id : Nat} {f : Forward} {delivery : Delivery} (hEvent : event = .acquire id)
      (hFind : s.forward? id = some f) (hWaits : f.delivery = .waiting)
      (hFree : s.slotFree = true) (hFinds : s.Finds delivery)
      (hAfter : t = s.setDelivery id delivery)
  | sent {id k : Nat} {f : Forward} {c d : Lsp.Client} {result : Except Lsp.Error Unit}
      (hEvent : event = .deliver id) (hFind : s.forward? id = some f)
      (hHolds : f.delivery = .holding k) (hClient : s.client? k = some c)
      (hTell : s.tell p c f.message = (d, result))
      (hAfter : t = (s.withClient k d).setDelivery id (.done (forwarded result)))
  | taken {id : Nat} {f : Forward} {result : Except Error Bool} (hEvent : event = .takeResult id)
      (hFind : s.forward? id = some f) (hDone : f.delivery = .done result)
      (hAfter : t = { s with forwards := s.forwards.filter (·.id != id) })

/-- What is forwarded stays as it is, and so do the options of the latest server. -/
structure Apart (s t : State) : Prop where
  forwards : t.forwards = s.forwards
  nextForward : t.nextForward = s.nextForward
  server : t.server = s.server

variable {p : Profile} {s t u : State} {event : Event} {k id : Nat} {f : Forward}

namespace Apart

theorem refl (s : State) : Apart s s := ⟨rfl, rfl, rfl⟩

theorem trans (hFirst : Apart s t) (hSecond : Apart t u) : Apart s u where
  forwards := hSecond.forwards.trans hFirst.forwards
  nextForward := hSecond.nextForward.trans hFirst.nextForward
  server := hSecond.server.trans hFirst.server

end Apart

namespace State

theorem onAttempt_apart (s : State) (k : Nat) (f : Attempt → Attempt) :
    Apart s (s.onAttempt k f) := ⟨rfl, rfl, rfl⟩

theorem exited_apart (s : State) (code : Option Int) : Apart s (s.exited code) := by
  unfold exited
  split <;> exact ⟨rfl, rfl, rfl⟩

theorem onProcess_apart (s : State) (k : Nat)
    (f : Process.Manager → Process.Manager × List Process.Effect) :
    Apart s (s.onProcess k f) := by
  have hEffect (s : State) (effect : Process.Effect) : Apart s (s.takeEffect k effect) := by
    cases effect with
    | exited exit => exact exited_apart s exit.code
    | _ => exact ⟨rfl, rfl, rfl⟩
  have hAll (effects : List Process.Effect) (s : State) :
      Apart s (effects.foldl (fun s e => s.takeEffect k e) s) := by
    induction effects generalizing s with
    | nil => exact .refl s
    | cons effect effects ih => exact (hEffect s effect).trans (ih _)
  unfold onProcess
  split
  · exact .refl s
  · exact (onAttempt_apart ..).trans (hAll ..)

theorem terminate_apart (s : State) (k : Nat) (last : Bool) :
    Apart s (s.terminate k last) := by
  unfold terminate
  split
  · exact ⟨rfl, rfl, rfl⟩
  · split <;> exact ⟨rfl, rfl, rfl⟩

theorem continueClosing_apart (s : State) (k : Nat) (last : Bool) (c : Lsp.Client)
    (progress : Lsp.Client.Closing) : Apart s (s.continueClosing k last c progress) := by
  unfold continueClosing
  split
  · exact (onAttempt_apart ..).trans (terminate_apart ..)
  · exact ⟨rfl, rfl, rfl⟩

theorem stopStep_apart (h : s.stopStep? = some t) : Apart s t := by
  cases stopStep_cases h with
  | joined | ended => exact ⟨rfl, rfl, rfl⟩
  | took =>
    unfold takeSlot
    split <;> exact ⟨rfl, rfl, rfl⟩
  | absent => exact terminate_apart ..
  | released | closed => exact continueClosing_apart ..

theorem promote_apart (s : State) (k : Nat) : Apart s (s.promote k) := by
  have hRelease : Apart s s.releaseSlot := by
    unfold releaseSlot
    split <;> exact ⟨rfl, rfl, rfl⟩
  unfold promote
  split
  · exact ⟨hRelease.forwards, hRelease.nextForward, hRelease.server⟩
  · exact ⟨rfl, rfl, rfl⟩

theorem startStep_apart (h : s.startStep? p k = some t) : Apart s t := by
  cases startStep_cases h with
  | promoted => exact promote_apart s k
  | _ => exact ⟨rfl, rfl, rfl⟩

theorem launched_apart {result : Except Error (Stream.Transport × Option Process.Manager)}
    (h : s.launched k result = some t) : Apart s t := by
  unfold launched at h
  split at h
  · split at h <;> exact Option.some.inj h ▸ ⟨rfl, rfl, rfl⟩
  · cases h

theorem fire_apart (s : State) (timer : Timer) : Apart s (s.fire timer) := by
  unfold fire
  split
  · exact ⟨rfl, rfl, rfl⟩
  · exact ⟨rfl, rfl, rfl⟩
  · split
    · exact continueClosing_apart ..
    · exact .refl s
  · split
    · exact (onProcess_apart ..).trans ⟨rfl, rfl, rfl⟩
    · exact .refl s

theorem Finds.of_acquire (h : s.acquire? id = some t) :
    ∃ f delivery, s.forward? id = some f ∧ f.delivery = .waiting ∧ s.slotFree = true ∧
      s.Finds delivery ∧ t = s.setDelivery id delivery := by
  unfold acquire? at h
  split at h
  · rename_i hFind
    split at h
    · rename_i hFree
      split at h
      · rename_i k hSlot
        split at h
        · rename_i hRunning
          exact ⟨_, _, hFind, rfl, hFree, .session hSlot hRunning, (Option.some.inj h).symm⟩
        · rename_i hNot
          exact ⟨_, _, hFind, rfl, hFree, .nobody (.inr hNot), (Option.some.inj h).symm⟩
      · rename_i hSlot
        exact ⟨_, _, hFind, rfl, hFree, .nobody (.inl hSlot), (Option.some.inj h).symm⟩
    · cases h
  · cases h

theorem deliver_relay (h : s.deliver? p id = some t) : Relay p s (.deliver id) t := by
  unfold deliver? at h
  split at h
  · rename_i message k hFind
    obtain ⟨c, hClient, hTold⟩ := Option.map_eq_some_iff.mp h
    generalize hTell : s.tell p c message = told at hTold
    obtain ⟨d, result⟩ := told
    refine .sent rfl hFind rfl hClient hTell ?_
    match result, hTold with
    | .ok (), hTold => exact hTold.symm
    | .error e, hTold => exact hTold.symm
  · cases h

theorem takeResult_eq {result : Except Error Bool} : s.takeResult? id = some (t, result) ↔
    ∃ f, s.forward? id = some f ∧ f.delivery = .done result ∧
      t = { s with forwards := s.forwards.filter (·.id != id) } := by
  constructor
  · intro h
    unfold takeResult? at h
    split at h
    · rename_i hFind
      cases h
      exact ⟨_, hFind, rfl, rfl⟩
    · cases h
  · rintro ⟨⟨number, message, delivery⟩, hFind, rfl, rfl⟩
    have hFind : s.forwards.find? (·.id == id) = some ⟨number, message, .done result⟩ := hFind
    simp [takeResult?, hFind]

/-- Everything but a start and the forwardings keeps apart from them. -/
theorem next?_apart (h : s.next? p event = some t) (hForwarding : s.forwarding? event = none)
    (hStart : ∀ path root, event ≠ .start path root) : Apart s t := by
  cases event with
  | start path root => exact absurd rfl (hStart path root)
  | changeConfiguration | forward | acquire | deliver | takeResult => cases hForwarding
  | stop =>
    simp only [next?] at h
    split at h
    · exact Option.some.inj h ▸ ⟨rfl, rfl, rfl⟩
    · cases h
  | launched k result => exact launched_apart h
  | task k => exact startStep_apart h
  | stopStep => exact stopStep_apart h
  | loop k =>
    obtain ⟨c, -, hLoop⟩ := Option.bind_eq_some_iff.mp h
    obtain ⟨⟨c', notifications⟩, -, rfl⟩ := Option.map_eq_some_iff.mp hLoop
    exact ⟨rfl, rfl, rfl⟩
  | tellExit k =>
    obtain ⟨m, -, hTell⟩ := Option.bind_eq_some_iff.mp h
    obtain ⟨⟨m', exit⟩, -, rfl⟩ := Option.map_eq_some_iff.mp hTell
    exact (onAttempt_apart ..).trans (exited_apart ..)
  | connection | obey | line => exact Option.some.inj h ▸ ⟨rfl, rfl, rfl⟩
  | sawExit | errors | errorsEnd => exact Option.some.inj h ▸ onProcess_apart ..
  | exit k code =>
    simp only [next?] at h
    split at h
    · exact Option.some.inj h ▸ exited_apart ..
    · cases h
  | fire timer =>
    simp only [next?] at h
    split at h
    · exact Option.some.inj h ▸ fire_apart ..
    · cases h

/-- Every step of a run is one of these for what is forwarded. -/
theorem next?_relay (h : s.next? p event = some t) : Relay p s event t := by
  cases event with
  | start path root =>
    obtain ⟨-, rfl⟩ := start_eq (start_of_next? h).2
    exact .aside rfl rfl rfl
  | changeConfiguration settings =>
    simp only [next?] at h
    split at h
    · exact Option.some.inj h ▸ .begun .configuration (.inr ⟨settings, rfl⟩) rfl rfl rfl rfl
    · cases h
  | forward message =>
    simp only [next?] at h
    split at h
    · exact Option.some.inj h ▸ .begun message (.inl rfl) rfl rfl rfl rfl
    · cases h
  | acquire id =>
    obtain ⟨f, delivery, hFind, hWaits, hFree, hFinds, hAfter⟩ := Finds.of_acquire h
    exact .looked rfl hFind hWaits hFree hFinds hAfter
  | deliver id => exact deliver_relay h
  | takeResult id =>
    obtain ⟨⟨u, result⟩, hTaken, rfl⟩ := Option.map_eq_some_iff.mp h
    obtain ⟨f, hFind, hDone, hAfter⟩ := takeResult_eq.mp hTaken
    exact .taken rfl hFind hDone hAfter
  | _ =>
    have hApart := next?_apart h rfl (by simp)
    exact .aside rfl hApart.forwards hApart.nextForward

/-- Only a start changes the options of the server. -/
theorem next?_server (h : s.next? p event = some t) :
    t.server = match event with
      | .start path root => some ⟨path, [], root⟩
      | _ => s.server := by
  cases hForwarding : s.forwarding? event with
  | none =>
    cases event with
    | start path root =>
      obtain ⟨-, rfl⟩ := start_eq (start_of_next? h).2
      rfl
    | _ => exact (next?_apart h hForwarding (by simp)).server
  | some id =>
    have hSame : t.server = s.server := by
      cases next?_relay h with
      | aside hNone => simp [hNone] at hForwarding
      | begun _ _ _ _ _ hServer => exact hServer
      | looked _ _ _ _ _ hAfter | sent _ _ _ _ _ hAfter | taken _ _ _ hAfter =>
        exact hAfter ▸ rfl
    cases event with
    | start path root => cases hForwarding
    | _ => exact hSame

theorem id_of_forward? (h : s.forward? id = some f) : f.id = id := by
  simpa using List.find?_some h

theorem forward?_setDelivery (s : State) (other id : Nat) (delivery : Delivery) :
    (s.setDelivery other delivery).forward? id =
      (s.forward? id).map fun f => if f.id = other then { f with delivery } else f := by
  have hNumber : ((·.id == id) ∘ fun f : Forward => if f.id = other then { f with delivery } else f)
      = (·.id == id) := by
    funext f
    simp only [Function.comp_apply]
    split <;> rfl
  rw [forward?, setDelivery, List.find?_map, hNumber, ← forward?]

end State

/-- A step that does not go on with a forwarding leaves it as it is. -/
theorem Relay.forward? (hRelay : Relay p s event t) (hOther : s.forwarding? event ≠ some id)
    (hFind : s.forward? id = some f) : t.forward? id = some f := by
  have hNot {other : Nat} (h : s.forwarding? event = some other) : f.id ≠ other := by
    rintro rfl
    rw [← State.id_of_forward? hFind] at hOther
    exact hOther h
  cases hRelay with
  | aside _ hForwards =>
    rw [State.forward?, hForwards]
    exact hFind
  | begun message _ hForwards =>
    rw [State.forward?, hForwards, List.find?_append]
    exact Option.or_eq_some_iff.mpr (.inl hFind)
  | looked hEvent _ _ _ _ hAfter =>
    subst hEvent hAfter
    rw [State.forward?_setDelivery, hFind, Option.map_some, if_neg (hNot rfl)]
  | @sent _ k _ _ d _ hEvent _ _ _ _ hAfter =>
    subst hEvent hAfter
    have hSame : (s.withClient k d).forward? id = some f := hFind
    rw [State.forward?_setDelivery, hSame, Option.map_some, if_neg (hNot rfl)]
  | @taken other _ _ hEvent _ _ hAfter =>
    subst hEvent hAfter
    have hNe : id ≠ other := State.id_of_forward? hFind ▸ hNot rfl
    have hKept : (fun g : Forward => decide ((g.id != other) = true ∧ (g.id == id) = true)) =
        (·.id == id) := by
      funext g
      by_cases h : g.id = id <;> simp [h, hNe]
    rw [State.forward?, List.find?_filter, hKept]
    exact hFind

/-- The numbers of what is forwarded and whose result was not taken, the oldest first. -/
def State.numbers (s : State) : List Nat := s.forwards.map (·.id)

/-- What holds of all that is forwarded: no two have the same number, no two hold the lock, and
whoever holds it has a client to tell. -/
structure Queued (s : State) : Prop where
  numbered : ∀ n ∈ s.numbers, n < s.nextForward
  distinct : s.numbers.Nodup
  alone : ∀ f ∈ s.forwards, ∀ g ∈ s.forwards, ∀ j k,
    f.delivery = .holding j → g.delivery = .holding k → f.id = g.id
  clients : ∀ k, s.Locks k → ∃ c, s.client? k = some c

theorem State.numbers_setDelivery (s : State) (id : Nat) (delivery : Delivery) :
    (s.setDelivery id delivery).numbers = s.numbers := by
  rw [numbers, setDelivery, List.map_map]
  refine List.map_congr_left fun f _ => ?_
  simp only [Function.comp_apply]
  split <;> rfl

/-- Numbers are given out one after the other. -/
theorem Relay.numbers (hRelay : Relay p s event t) :
    t.numbers.Sublist s.numbers ∧ t.nextForward = s.nextForward ∨
      t.numbers = s.numbers ++ [s.nextForward] ∧ t.nextForward = s.nextForward + 1 := by
  have hSublist {u : State} (h : u.numbers = s.numbers) : u.numbers.Sublist s.numbers := h ▸ .refl _
  cases hRelay with
  | aside _ hForwards hNext => exact .inl ⟨hSublist (congrArg (List.map _) hForwards), hNext⟩
  | begun message _ hForwards hNext =>
    refine .inr ⟨?_, hNext⟩
    rw [State.numbers, hForwards, List.map_append]
    rfl
  | looked _ _ _ _ _ hAfter | sent _ _ _ _ _ hAfter =>
    subst hAfter
    exact .inl ⟨hSublist (State.numbers_setDelivery ..), rfl⟩
  | taken _ _ _ hAfter =>
    subst hAfter
    exact .inl ⟨List.filter_sublist.map _, rfl⟩

/-- A forwarding that holds the lock held it before, or nobody did. -/
theorem Relay.holding (hRelay : Relay p s event t) (hMem : f ∈ t.forwards)
    (hHolds : f.delivery = .holding k) :
    f ∈ s.forwards ∨ s.slotFree = true ∧ event = .acquire f.id := by
  cases hRelay with
  | aside _ hForwards => exact .inl (hForwards ▸ hMem)
  | begun message _ hForwards =>
    rw [hForwards] at hMem
    rcases List.mem_append.mp hMem with hOld | hNew
    · exact .inl hOld
    · rw [List.mem_singleton.mp hNew] at hHolds
      cases hHolds
  | looked hEvent _ _ hFree _ hAfter =>
    subst hEvent hAfter
    obtain ⟨g, hOld, hSet⟩ := List.mem_map.mp hMem
    split at hSet
    · rename_i hSame
      refine .inr ⟨hFree, ?_⟩
      rw [← hSet, ← hSame]
    · exact .inl (hSet ▸ hOld)
  | sent _ _ _ _ _ hAfter =>
    subst hAfter
    obtain ⟨g, hOld, hSet⟩ := List.mem_map.mp hMem
    split at hSet
    · rw [← hSet] at hHolds
      cases hHolds
    · exact .inl (hSet ▸ hOld)
  | taken _ _ _ hAfter =>
    subst hAfter
    exact .inl (List.mem_filter.mp hMem).1

theorem Queued.create (p : Profile) : Queued (.create p) :=
  ⟨nofun, List.nodup_nil, nofun, fun _ ⟨_, hMem, _⟩ => nomatch hMem⟩

/-- A client that is there stays there. -/
theorem Run.client_stays {trace : List Step} (hRun : Run p (.create p) trace s)
    (hStep : s.next? p event = some t) {c : Lsp.Client} (hClient : s.client? k = some c) :
    ∃ d, t.client? k = some d := by
  obtain ⟨said, hCourse⟩ := hRun.course k
  obtain ⟨messages, hTurn⟩ := State.next?_turn hStep k
  obtain ⟨d, hClient', -⟩ := hTurn.flow hClient (hCourse.stage.not_launching hClient)
  exact ⟨d, hClient'⟩

theorem Queued.step {trace : List Step} (h : Queued s) (hRun : Run p (.create p) trace s)
    (hStep : s.next? p event = some t) : Queued t := by
  have hRelay := State.next?_relay hStep
  refine ⟨?_, ?_, ?_, ?_⟩
  · intro n hMem
    rcases hRelay.numbers with ⟨hSublist, hNext⟩ | ⟨hNumbers, hNext⟩
    · exact hNext ▸ h.numbered n (hSublist.subset hMem)
    · rw [hNumbers] at hMem
      rcases List.mem_append.mp hMem with hOld | hNew
      · have hOld := h.numbered n hOld
        omega
      · have hNew := List.mem_singleton.mp hNew
        omega
  · rcases hRelay.numbers with ⟨hSublist, -⟩ | ⟨hNumbers, -⟩
    · exact h.distinct.sublist hSublist
    · rw [hNumbers]
      refine List.nodup_append.mpr ⟨h.distinct, List.pairwise_singleton .., fun n hOld m hNew => ?_⟩
      have hOld := h.numbered n hOld
      have hNew := List.mem_singleton.mp hNew
      omega
  · intro f hF g hG j k hHoldsF hHoldsG
    -- The lock is taken only when nobody holds it, so at most one of the two has taken it now.
    rcases hRelay.holding hF hHoldsF with hOldF | ⟨hFree, hEventF⟩
    · rcases hRelay.holding hG hHoldsG with hOldG | ⟨hFree, -⟩
      · exact h.alone f hOldF g hOldG j k hHoldsF hHoldsG
      · exact absurd ⟨f, hOldF, hHoldsF⟩ (State.not_locks_of_slotFree hFree j)
    · rcases hRelay.holding hG hHoldsG with hOldG | ⟨-, hEventG⟩
      · exact absurd ⟨g, hOldG, hHoldsG⟩ (State.not_locks_of_slotFree hFree k)
      · exact Event.acquire.inj (hEventF.symm.trans hEventG)
  · intro k hLocks
    rcases (State.next?_shift hStep).locks hLocks with hOld | ⟨hSlot, hRunning⟩
    · obtain ⟨c, hClient⟩ := h.clients k hOld
      exact hRun.client_stays hStep hClient
    · obtain ⟨c, hClient, -⟩ := hRun.placed.up hRunning k hSlot
      exact hRun.client_stays hStep hClient

theorem Run.queued {trace : List Step} (hRun : Run p (.create p) trace s) : Queued s := by
  induction hRun with
  | start => exact .create p
  | step prior last ih => exact ih.step prior last

end EditorBridge.Session
