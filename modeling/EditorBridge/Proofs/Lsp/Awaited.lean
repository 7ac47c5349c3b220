import EditorBridge.Proofs.Lsp.Client
import EditorBridge.Proofs.Rpc.Course
/-!
The end of one call of a client whose connection is open. The call is open until its response is
received or its time is over, and then its end is kept, whatever happens, until the caller takes it.
The loop leaves an open connection only when the client is closed and everything is written.
-/
namespace EditorBridge.Frame.Connection

/-- Is what is sent accepted, and has nothing failed of what arrives? -/
def IsLive (c : Connection) : Prop := c.writable = true ∧ c.receive.1 ≠ .failed

instance (c : Connection) : Decidable c.IsLive := inferInstanceAs (Decidable (_ ∧ _))

theorem transport_receive_put (t : Stream.Transport) (text : String) :
    (t.put text).receive.1 = t.receive.1 := by
  unfold Stream.Transport.receive Stream.Transport.put
  dsimp only
  split
  · rfl
  · split
    · rfl
    · split <;> rfl

/-- What is sent does not change what is received. -/
theorem receive_put (c : Connection) (message : String) :
    (c.put message).receive.1 = c.receive.1 := by
  have hTransport := transport_receive_put c.transport (encode message)
  unfold receive
  dsimp only [put, onto]
  cases c.reader.next? with
  | some next => rfl
  | none =>
    generalize (c.transport.put (encode message)).receive = sent at hTransport
    generalize c.transport.receive = unsent at hTransport
    obtain ⟨received, after⟩ := sent
    obtain ⟨received', after'⟩ := unsent
    obtain rfl : received = received' := hTransport
    cases received with
    | piece text =>
      dsimp only
      generalize c.reader.feed text = fed
      obtain ⟨reader, fault⟩ := fed
      cases fault <;> rfl
    | failed fault => rfl
    | waiting => rfl

/-- A connection stays open when a message is sent. -/
theorem IsLive.put {c : Connection} (h : c.IsLive) (message : String) : (c.put message).IsLive :=
  ⟨h.1, (receive_put c message).symm ▸ h.2⟩

end EditorBridge.Frame.Connection

namespace EditorBridge.Rpc.Client

variable {answer : Request → Response} {c d : Client} {effects : List Effect} {id : Nat}

theorem loop_writes {m : String} {rest : List String} (hRunning : c.phase = .running)
    (hAccepted : c.accepted = m :: rest) (hWritable : c.connection.writable = true) :
    c.loopStep? answer =
      some ({ c with accepted := rest, connection := c.connection.put m }, []) := by
  obtain ⟨nextId, pending, accepted, isOpen, phase, connection⟩ := c
  obtain rfl : phase = .running := hRunning
  obtain rfl : accepted = m :: rest := hAccepted
  have hWrite : Client.write ⟨nextId, pending, rest, isOpen, .running, connection⟩ m =
      ⟨nextId, pending, rest, isOpen, .running, connection.put m⟩ := write_of_writable hWritable
  simp only [loopStep?, hWrite]

theorem loop_leaves (hRunning : c.phase = .running) (hAccepted : c.accepted = [])
    (hClosed : c.isOpen = false) : c.loopStep? answer = some (c.leave, []) := by
  simp [loopStep?, hRunning, hAccepted, hClosed]

/-- While the connection is open the loop goes on, until the client is closed and all is written. -/
theorem loop_live (hRunning : c.phase = .running) (hLive : c.connection.IsLive)
    (h : c.loopStep? answer = some (d, effects)) :
    d.phase = .running ∨ c.isOpen = false ∧ c.accepted = [] ∧ d = c.leave ∧ effects = [] := by
  cases hAccepted : c.accepted with
  | cons m rest =>
    rw [loop_writes hRunning hAccepted hLive.1] at h
    obtain ⟨rfl, -⟩ := Prod.mk.inj (Option.some.inj h)
    exact .inl hRunning
  | nil =>
    simp only [loopStep?, hRunning, hAccepted] at h
    split at h
    · refine .inl ?_
      unfold receiveStep? at h
      split at h
      · rename_i m connection hReceive
        have hWritable : connection.writable = true := by
          rw [Frame.Connection.writable, Frame.Connection.receive_message hReceive]
          exact hLive.1
        exact (handle_writes hWritable (Option.some.inj h)).2.1.trans hRunning
      · obtain ⟨rfl, -⟩ := Prod.mk.inj (Option.some.inj h)
        exact hRunning
      · cases h
      · rename_i hReceive
        exact absurd (congrArg Prod.fst hReceive) hLive.2
    · rename_i hClosed
      obtain ⟨rfl, rfl⟩ := Prod.mk.inj (Option.some.inj h)
      exact .inr ⟨by simpa using hClosed, rfl, rfl, rfl⟩

/-- A message ends an open call if it is its response, and leaves the call open otherwise. -/
theorem handle_ends {m : String} (h : c.handle answer m = (d, effects)) (hSound : c.Sound)
    (hOpen : id ∈ c.pending) :
    (∃ r, answers id m = some r ∧ id ∉ d.pending ∧ effects = [.finished id (.answered r)]) ∨
    answers id m = none ∧ id ∈ d.pending ∧ ∀ outcome, .finished id outcome ∉ effects := by
  rcases dispatch_cases answer c m with
    ⟨notifications, reply, hDispatch, hNone⟩ | ⟨other, r, hAnswers, -, hDispatch⟩
  · have hQuiet : ∀ outcome, Effect.finished id outcome ∉ notifications.map Effect.notified := by
      simp
    cases reply with
    | none =>
      simp only [handle, hDispatch, Prod.mk.injEq] at h
      obtain ⟨rfl, rfl⟩ := h
      exact .inr ⟨hNone id hOpen, hOpen, hQuiet⟩
    | some reply =>
      simp only [handle, hDispatch, Prod.mk.injEq] at h
      obtain ⟨rfl, rfl⟩ := h
      exact .inr ⟨hNone id hOpen, (write_calls c reply).2.1 ▸ hOpen, hQuiet⟩
  · simp only [handle, hDispatch, Prod.mk.injEq] at h
    obtain ⟨rfl, rfl⟩ := h
    by_cases hSame : id = other
    · subst hSame
      exact .inl ⟨r, hAnswers, hSound.distinct.not_mem_erase, rfl⟩
    · refine .inr ⟨answers_eq_none_of_ne hAnswers hSame, (List.mem_erase_of_ne hSame).mpr hOpen, ?_⟩
      simp [hSame]

/-- A step of a loop that goes on ends an open call by its response, or leaves it open. -/
theorem loop_ends (hGoesOn : d.phase ≠ .ended) (h : c.loopStep? answer = some (d, effects))
    (hSound : c.Sound) (hOpen : id ∈ c.pending) :
    (∃ r, c.inbound?.bind (answers id) = some r ∧ id ∉ d.pending ∧
      effects = [.finished id (.answered r)]) ∨
    c.inbound?.bind (answers id) = none ∧ id ∈ d.pending ∧
      ∀ outcome, .finished id outcome ∉ effects := by
  have hIdle (hInbound : c.inbound? = none) (hPending : d.pending = c.pending)
      (hNothing : effects = []) : c.inbound?.bind (answers id) = none ∧ id ∈ d.pending ∧
        ∀ outcome, .finished id outcome ∉ effects := by
    simp [hInbound, hPending, hOpen, hNothing]
  unfold loopStep? at h
  split at h
  · cases h
  · obtain ⟨rfl, -⟩ := Prod.mk.inj (Option.some.inj h)
    exact absurd rfl hGoesOn
  · rename_i hRunning
    split at h
    · rename_i m rest hAccepted
      obtain ⟨rfl, rfl⟩ := Prod.mk.inj (Option.some.inj h)
      exact .inr (hIdle (by simp [inbound?, hAccepted]) (write_calls _ m).2.1 rfl)
    · rename_i hAccepted
      split at h
      · rename_i hTakes
        unfold receiveStep? at h
        split at h
        · rename_i m connection hReceive
          have hInbound : c.inbound? = some m := by
            simp [inbound?, hRunning, hAccepted, hTakes, hReceive]
          rw [hInbound]
          exact handle_ends (Option.some.inj h) ⟨hSound.distinct, hSound.numbered, hSound.settled⟩
            hOpen
        · rename_i hReceive
          obtain ⟨rfl, rfl⟩ := Prod.mk.inj (Option.some.inj h)
          exact .inr (hIdle (by simp [inbound?, hReceive]) rfl rfl)
        · cases h
        · rename_i hReceive
          obtain ⟨rfl, rfl⟩ := Prod.mk.inj (Option.some.inj h)
          exact .inr (hIdle (by simp [inbound?, hReceive]) rfl rfl)
      · rename_i hClosed
        obtain ⟨rfl, rfl⟩ := Prod.mk.inj (Option.some.inj h)
        exact .inr (hIdle (by simp [inbound?, hClosed]) rfl rfl)

end EditorBridge.Rpc.Client

namespace EditorBridge.Rpc

/-- Is the outcome a proper answer to a call that asks for nothing: no error, and no result but
null? -/
def Outcome.isProper : Outcome → Bool
  | .answered response => response.error.isNone && (response.result.bind Json.nonNull?).isNone
  | .timedOut | .cancelled => false

end EditorBridge.Rpc

namespace EditorBridge.Lsp.Client

/-- How far a call has come that its caller awaits: it is open, or it has ended and the end is
kept. -/
structure Awaits (c : Client) (id : Nat) (outcome : Option Rpc.Outcome) : Prop where
  isOpen : id ∈ c.rpc.pending ↔ outcome = none
  kept : c.ended.find? (·.id == id) = outcome.map fun outcome => ⟨id, outcome⟩

variable {c d : Client} {id : Nat} {outcome : Option Rpc.Outcome}

/-- What ends of other calls are kept does not matter. -/
theorem Awaits.of_ended {rpc : Rpc.Client} {effects : List Rpc.Effect} (h : c.Awaits id outcome)
    (hOpen : id ∈ rpc.pending ↔ id ∈ c.rpc.pending)
    (hEffects : outcome = none → ∀ other, .finished id other ∉ effects) :
    (c.follow rpc effects).1.Awaits id outcome where
  isOpen := hOpen.trans h.isOpen
  kept := by
    cases outcome with
    | some outcome => simp [follow, List.find?_append, h.kept]
    | none =>
      refine List.find?_eq_none.mpr fun kept hKept => ?_
      rcases mem_follow_ended.mp hKept with hOld | hFinished
      · exact List.find?_eq_none.mp h.kept kept hOld
      · simp only [beq_iff_eq]
        rintro rfl
        exact hEffects rfl _ hFinished

/-- The end of an open call is the one that is kept. -/
theorem Awaits.finish {rpc : Rpc.Client} {ending : Rpc.Outcome} (h : c.Awaits id none)
    (hClosed : id ∉ rpc.pending) :
    (c.follow rpc [.finished id ending]).1.Awaits id (some ending) where
  isOpen := by simpa [follow] using hClosed
  kept := by simp [follow, List.find?_append, h.kept]

/-- While the loop goes on, a call that is awaited ends by its response. -/
theorem Awaits.loop {answer : Rpc.Request → Rpc.Response} {notifications : List Rpc.Notification}
    (h : c.Awaits id outcome) (hNumbered : c.Numbered) (hGoesOn : d.rpc.phase ≠ .ended)
    (hLoop : c.loopStep? answer = some (d, notifications)) :
    d.Awaits id (outcome.or ((c.rpc.inbound?.bind (Rpc.answers id)).map .answered)) := by
  obtain ⟨⟨rpc, effects⟩, hStep, hFollow⟩ := Option.map_eq_some_iff.mp hLoop
  obtain rfl : (c.follow rpc effects).1 = d := congrArg Prod.fst hFollow
  cases outcome with
  | some outcome =>
    have hEnded : id ∉ c.rpc.pending := fun hOpen => Option.some_ne_none _ (h.isOpen.mp hOpen)
    have hStill : id ∉ rpc.pending := fun hOpen => hEnded ((loop_calls hStep).2.2.2 hOpen)
    exact h.of_ended (iff_of_false hStill hEnded) nofun
  | none =>
    have hOpen := h.isOpen.mpr rfl
    rcases Rpc.Client.loop_ends hGoesOn hStep hNumbered.rpc hOpen with
      ⟨r, hResponse, hEnded, rfl⟩ | ⟨hNone, hStill, hEffects⟩
    · rw [hResponse]
      exact h.finish hEnded
    · rw [hNone]
      exact h.of_ended (iff_of_true hStill hOpen) fun _ => hEffects

/-- A call that is open when its time is over ends by that. -/
theorem Awaits.expire (h : c.Awaits id outcome) (hNumbered : c.Numbered) :
    (c.expire id).Awaits id (outcome.or (some .timedOut)) := by
  cases outcome with
  | some outcome =>
    have hEnded : id ∉ c.rpc.pending := fun hOpen => Option.some_ne_none _ (h.isOpen.mp hOpen)
    have hSame : c.expire id = c := by simp [Client.expire, Rpc.Client.expire, follow, hEnded]
    rw [hSame]
    exact h
  | none =>
    rw [expire_of_mem (h.isOpen.mpr rfl)]
    exact h.finish hNumbered.rpc.distinct.not_mem_erase

/-- An end that is kept is taken by its caller. -/
theorem Awaits.taken {ending : Rpc.Outcome} (h : c.Awaits id outcome)
    (hTake : c.takeEnd? id = some (d, ending)) : outcome = some ending := by
  obtain ⟨kept, hFind, hTaken⟩ := Option.map_eq_some_iff.mp hTake
  rw [h.kept] at hFind
  obtain ⟨ending', rfl, rfl⟩ := Option.map_eq_some_iff.mp hFind
  cases hTaken
  rfl

/-- The messages by which a client parts from its server. The notification of the exit is sent only
behind a proper answer to the shutdown request. -/
def farewell (id : Nat) (outcome : Rpc.Outcome) : List Rpc.Utterance :=
  .call id methods.shutdown none :: if outcome.isProper then [.notice methods.exit none] else []

/-- The proper answers are those that the client reads as one. -/
theorem result_shutdown (outcome : Rpc.Outcome) :
    (∃ error, outcome.result methods.shutdown Schema.null.check = .error error) ∧
        outcome.isProper = false ∨
      outcome.result methods.shutdown Schema.null.check = .ok () ∧ outcome.isProper = true := by
  cases outcome with
  | timedOut | cancelled => exact .inl ⟨⟨_, rfl⟩, rfl⟩
  | answered response =>
    obtain ⟨version, id, result, error⟩ := response
    cases error with
    | some error => exact .inl ⟨⟨_, rfl⟩, rfl⟩
    | none =>
      cases result with
      | none => exact .inr ⟨rfl, rfl⟩
      | some value =>
        cases value with
        | null => exact .inr ⟨rfl, rfl⟩
        | _ => exact .inl ⟨⟨_, rfl⟩, rfl⟩

/-- A client that is up begins to close by its next call. -/
theorem beginClose_of_up (hInitialized : c.initialized = true) (hOpen : c.rpc.isOpen = true)
    (hRunning : c.rpc.phase = .running) (hNumbered : c.Numbered) :
    ∃ d, c.beginClose = (d, .awaiting c.rpc.nextId) ∧ d.rpc.isOpen = true ∧
      d.rpc.phase = .running ∧ d.rpc.connection = c.rpc.connection ∧
      d.Awaits c.rpc.nextId none ∧ c.rpc.Flow d.rpc [.call c.rpc.nextId methods.shutdown none] := by
  let d : Client := { c with
    initialized := false
    rpc := { c.rpc with
      nextId := c.rpc.nextId + 1
      accepted := c.rpc.accepted ++
        [(Rpc.Utterance.call c.rpc.nextId methods.shutdown none).text]
      pending := c.rpc.pending ++ [c.rpc.nextId] } }
  have hClose : c.beginClose = (d, .awaiting c.rpc.nextId) := by
    simp [beginClose, askShutdown, hInitialized, ask, Rpc.Client.call, Rpc.Client.enqueue,
      Rpc.Client.refusal?, hOpen, hRunning, d, Rpc.Utterance.text]
  refine ⟨d, hClose, hOpen, hRunning, rfl, ⟨by simp [d], ?_⟩, .took _ rfl rfl⟩
  exact List.find?_eq_none.mpr fun kept hKept => by
    simpa using Nat.ne_of_lt (hNumbered.ended kept hKept)

theorem tell_of_open (hOpen : c.rpc.isOpen = true) (hRunning : c.rpc.phase = .running)
    (method : String) (params : Option Json) :
    c.tell method params = ({ c with rpc := { c.rpc with
      accepted := c.rpc.accepted ++ [(Rpc.Utterance.notice method params).text] } }, .ok ()) := by
  simp [tell, Rpc.Client.notify, Rpc.Client.enqueue, Rpc.Client.refusal?, hOpen, hRunning,
    Rpc.Utterance.text]

/-- Behind the end of the shutdown request the client is closed, after the last message if the
answer was proper. -/
theorem Awaits.closeStep {progress : Closing} (h : c.Awaits id outcome)
    (hOpen : c.rpc.isOpen = true) (hRunning : c.rpc.phase = .running)
    (hStep : c.closeStep? (.awaiting id) = some (d, progress)) :
    ∃ ending shutdown, outcome = some ending ∧ progress = .flushing shutdown ∧
      d.rpc.isOpen = false ∧ d.rpc.phase = .running ∧ d.rpc.connection = c.rpc.connection ∧
      c.rpc.Flow d.rpc (if ending.isProper then [.notice methods.exit none] else []) := by
  obtain ⟨⟨e, ending⟩, hTake, hFinish⟩ := Option.map_eq_some_iff.mp hStep
  obtain ⟨-, hSame, -⟩ := takeEnd_unsaid hTake
  have hStill : e.rpc.phase = .running := hSame ▸ hRunning
  rw [← hSame]
  dsimp only at hFinish
  rcases result_shutdown ending with ⟨⟨error, hResult⟩, hProper⟩ | ⟨hResult, hProper⟩
  · simp only [finishShutdown, hResult] at hFinish
    cases hFinish
    refine ⟨ending, _, h.taken hTake, rfl, rfl, hStill, rfl, ?_⟩
    rw [hProper]
    exact .took [] (List.append_nil _).symm rfl
  · simp only [finishShutdown, hResult, tell_of_open (hSame ▸ hOpen) hStill] at hFinish
    cases hFinish
    refine ⟨ending, _, h.taken hTake, rfl, rfl, hStill, rfl, ?_⟩
    rw [hProper]
    exact .took _ rfl rfl

end EditorBridge.Lsp.Client
