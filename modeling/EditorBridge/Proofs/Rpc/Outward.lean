import EditorBridge.Proofs.Frame.Outward
import EditorBridge.Proofs.Rpc.Course
import EditorBridge.Proofs.Rpc.Passage
/-!
Clients without what has arrived. What has arrived but was not received decides nothing yet, so two
clients that differ in nothing else show the same until one of them receives a message. The step
that receives it depends on the message alone, and a client that waits with nothing left over can
always be brought to the same step by one frame.
-/
namespace EditorBridge.Rpc

namespace Client

/-- The client without what has arrived. -/
def outward (c : Client) : Client := { c with connection := c.connection.outward }

/-- Does the loop look for what has arrived? -/
def Listens (c : Client) : Prop := c.phase = .running ∧ c.accepted = [] ∧ c.isOpen = true

instance (c : Client) : Decidable c.Listens := inferInstanceAs (Decidable (_ ∧ _))

variable {answer : Request → Response} {c d : Client} {event : Event} {entries : List Entry}
  {m : String}

theorem inbound?_of_not_listens (h : ¬ c.Listens) : c.inbound? = none := if_neg h

theorem Listens.loopStep? (h : c.Listens) : c.loopStep? answer = c.receiveStep? answer := by
  obtain ⟨nextId, pending, accepted, isOpen, phase, connection⟩ := c
  obtain ⟨rfl, rfl, rfl⟩ := h
  rfl

theorem Listens.inbound? (h : c.Listens) : c.inbound? = c.connection.receive.1.message? := by
  refine (if_pos h).trans ?_
  cases c.connection.receive.1 <;> rfl

theorem Listens.next?_loop (h : c.Listens) :
    c.next? answer .loop = (c.receiveStep? answer).map fun (d, effects) =>
      (d, c.connection.receive.1.message?.toList.map .received ++ effects.map .brought) := by
  simp only [next?, h.loopStep?, h.inbound?]

theorem write_outward (c : Client) (text : String) :
    c.outward.write text = (c.write text).outward := by
  have hSend : c.outward.connection.send text = (c.connection.send text).map _ :=
    Frame.Connection.send_outward ..
  unfold write
  rw [hSend]
  cases c.connection.send text <;> rfl

theorem dispatch_outward (answer : Request → Response) (c : Client) (m : String) :
    c.outward.dispatch answer m =
      ((c.dispatch answer m).1.outward, (c.dispatch answer m).2) := by
  have hPending : c.outward.pending = c.pending := rfl
  unfold dispatch
  rw [hPending]
  split
  · rfl
  · rfl
  · rfl
  · split
    · rfl
    · split <;> rfl

/-- What a message does depends on nothing else that has arrived. -/
theorem handle_outward (answer : Request → Response) (c : Client) (m : String) :
    c.outward.handle answer m = ((c.handle answer m).1.outward, (c.handle answer m).2) := by
  unfold handle
  rw [dispatch_outward]
  obtain ⟨d, effects, reply⟩ := c.dispatch answer m
  cases reply with
  | none => rfl
  | some reply => simp only [write_outward]

theorem loopStep?_outward (hDeaf : ¬ c.Listens) :
    c.outward.loopStep? answer =
      (c.loopStep? answer).map fun (d, effects) => (d.outward, effects) := by
  obtain ⟨nextId, pending, accepted, isOpen, phase, connection⟩ := c
  cases phase with
  | ended => rfl
  | closing => rfl
  | running =>
    cases accepted with
    | cons m rest =>
      exact congrArg (fun e => some (e, []))
        (write_outward ⟨nextId, pending, rest, isOpen, .running, connection⟩ m)
    | nil =>
      cases isOpen with
      | true => exact absurd ⟨rfl, rfl, rfl⟩ hDeaf
      | false => rfl

/-- Unless the loop looks for what has arrived, every step of the client is the one that it makes
without it. -/
theorem next?_outward (hOwn : event.isOwn = true) (hDeaf : event = .loop → ¬ c.Listens) :
    c.outward.next? answer event =
      (c.next? answer event).map fun (d, entries) => (d.outward, entries) := by
  cases event with
  | transport change => cases hOwn
  | dropSender => rfl
  | abort => rfl
  | loop =>
    have hInbound := inbound?_of_not_listens (hDeaf rfl)
    have hInbound' : c.outward.inbound? = none := inbound?_of_not_listens (hDeaf rfl)
    simp only [next?, loopStep?_outward (hDeaf rfl), hInbound, hInbound', Option.map_map]
    rfl
  | expire id =>
    simp only [next?, expire]
    by_cases hOpen : c.pending.contains id
    · rw [if_pos hOpen, if_pos (show c.outward.pending.contains id from hOpen)]
      rfl
    · rw [if_neg hOpen, if_neg (show ¬ c.outward.pending.contains id from hOpen)]
      rfl
  | notify method params =>
    have hRefusal : c.outward.refusal? = c.refusal? := rfl
    simp only [next?, notify, enqueue, hRefusal]
    cases c.refusal? <;> rfl
  | call method params =>
    let numbered (c : Client) : Client := { c with nextId := c.nextId + 1 }
    have hRefusal : (numbered c.outward).refusal? = (numbered c).refusal? := rfl
    simp only [numbered] at hRefusal
    simp only [next?, call, enqueue, hRefusal]
    cases ({ c with nextId := c.nextId + 1 } : Client).refusal? <;> rfl

/-- Callers and the clock leave the connection alone, unless the client is aborted. -/
theorem caller_connection (hOwn : event.isOwn = true) (hLoop : event ≠ .loop)
    (h : c.next? answer event = some (d, entries)) :
    d.connection.reader = c.connection.reader ∧
      (d.phase = .running → c.phase = .running ∧ d.connection = c.connection) := by
  cases event with
  | transport change => cases hOwn
  | loop => exact absurd rfl hLoop
  | dropSender =>
    obtain ⟨rfl, -⟩ := Prod.mk.inj (Option.some.inj h)
    exact ⟨rfl, fun hRunning => ⟨hRunning, rfl⟩⟩
  | abort =>
    obtain ⟨rfl, -⟩ := Prod.mk.inj (Option.some.inj h)
    exact ⟨rfl, fun hRunning => by cases hRunning⟩
  | expire id =>
    obtain ⟨rfl, -⟩ := Prod.mk.inj (Option.some.inj h)
    unfold expire
    split <;> exact ⟨rfl, fun hRunning => ⟨hRunning, rfl⟩⟩
  | notify method params =>
    obtain ⟨rfl, -⟩ := Prod.mk.inj (Option.some.inj h)
    unfold notify enqueue
    cases c.refusal? <;> exact ⟨rfl, fun hRunning => ⟨hRunning, rfl⟩⟩
  | call method params =>
    cases hCall : c.call method params with
    | mk e result =>
      cases result with
      | ok id =>
        simp only [next?, hCall, Option.some.injEq, Prod.mk.injEq] at h
        obtain ⟨rfl, -⟩ := h
        obtain ⟨-, -, rfl⟩ := call_ok hCall
        exact ⟨rfl, fun hRunning => ⟨hRunning, rfl⟩⟩
      | error error =>
        simp only [next?, hCall, Option.some.injEq, Prod.mk.injEq] at h
        obtain ⟨rfl, -⟩ := h
        obtain rfl := call_error hCall
        exact ⟨rfl, fun hRunning => ⟨hRunning, rfl⟩⟩

/-- A loop that has left its connection does not go back. -/
theorem running_of_next? (hOwn : event.isOwn = true)
    (h : c.next? answer event = some (d, entries)) (hRunning : d.phase = .running) :
    c.phase = .running := by
  by_cases hLoop : event = .loop
  · subst hLoop
    obtain ⟨⟨e, effects⟩, hStep, hSame⟩ := Option.map_eq_some_iff.mp h
    obtain ⟨rfl, -⟩ := Prod.mk.inj hSame
    unfold loopStep? at hStep
    split at hStep
    · cases hStep
    · obtain ⟨rfl, -⟩ := Prod.mk.inj (Option.some.inj hStep)
      cases hRunning
    · assumption
  · exact ((caller_connection hOwn hLoop h).2 hRunning).1

/-- What every client keeps of its connection: no message in it is too large, and the loop leaves it
when it fails. -/
structure Intact (c : Client) : Prop where
  fits : ∀ m ∈ c.connection.reader.queue, m.utf8ByteSize ≤ Frame.maxSize
  isOpen : c.phase = .running → c.connection.IsOpen

theorem intact_create : Intact (.create .fresh) := ⟨by simp [create, Frame.Connection.onTransport,
  Frame.Reader.empty], fun _ => ⟨rfl, rfl⟩⟩

theorem Intact.write (h : c.Intact) (text : String) : (c.write text).Intact := by
  cases hWritable : c.connection.writable with
  | true =>
    rw [write_of_writable hWritable]
    exact ⟨h.fits, fun hRunning => ⟨(h.isOpen hRunning).connected, (h.isOpen hRunning).open_⟩⟩
  | false =>
    obtain ⟨fault, hSend⟩ := Frame.Connection.send_of_not_writable hWritable text
    simp only [Client.write, hSend]
    exact ⟨h.fits, fun hRunning => by cases hRunning⟩

theorem Intact.handle (h : c.Intact) (answer : Request → Response) (m : String) :
    (c.handle answer m).1.Intact := by
  rcases dispatch_cases answer c m with
    ⟨notifications, reply, hDispatch, -⟩ | ⟨id, r, -, -, hDispatch⟩
  · simp only [Client.handle, hDispatch]
    cases reply with
    | none => exact h
    | some reply => exact h.write reply
  · simp only [Client.handle, hDispatch]
    exact ⟨h.fits, h.isOpen⟩

/-- What a loop finds that looks for what has arrived. -/
inductive Hears (answer : Request → Response) (c d : Client) : List Entry → Prop where
  | text (hSame : d.outward = c.outward) : Hears answer c d []
  | message {m : String} {connection : Frame.Connection} {effects : List Effect}
      (hSize : m.utf8ByteSize ≤ Frame.maxSize) (hSame : connection.outward = c.connection.outward)
      (hHandle : ({ c with connection } : Client).handle answer m = (d, effects)) :
      Hears answer c d (.received m :: effects.map .brought)
  | failed (hSame : d.outward = c.leave.outward) : Hears answer c d []

/-- A loop that looks for what has arrived finds one of these. -/
theorem hears_of_listens (hIntact : c.Intact) (hListens : c.Listens)
    (h : c.next? answer .loop = some (d, entries)) : Hears answer c d entries ∧ d.Intact := by
  obtain ⟨⟨e, effects⟩, hStep, hSame⟩ := Option.map_eq_some_iff.mp h
  obtain ⟨rfl, rfl⟩ := Prod.mk.inj hSame
  rw [hListens.loopStep?, receiveStep?] at hStep
  rw [hListens.inbound?]
  have hOpen := hIntact.isOpen hListens.1
  generalize hReceive : c.connection.receive = received at hStep
  obtain ⟨arrival, connection⟩ := received
  obtain ⟨hFits, hSize⟩ := Frame.Connection.receive_fits hReceive hIntact.fits
  cases arrival with
  | waiting => cases hStep
  | failed =>
    obtain ⟨rfl, rfl⟩ := Prod.mk.inj (Option.some.inj hStep)
    refine ⟨.failed ?_, hFits, fun hRunning => by cases hRunning⟩
    simp only [outward, leave, Frame.Connection.outward_close hReceive]
  | text =>
    obtain ⟨rfl, rfl⟩ := Prod.mk.inj (Option.some.inj hStep)
    have hSame := Frame.Connection.outward_receive hReceive (by simp)
    exact ⟨.text (by simp only [outward, hSame]), hFits, fun _ => hOpen.of_outward hSame⟩
  | message m =>
    have hHandle := Option.some.inj hStep
    have hSame := Frame.Connection.outward_receive hReceive (by simp)
    have hTaken : ({ c with connection } : Client).Intact :=
      ⟨hFits, fun _ => hOpen.of_outward hSame⟩
    have hIntact' := hTaken.handle answer m
    rw [hHandle] at hIntact'
    exact ⟨.message (hSize m rfl) hSame hHandle, hIntact'⟩

theorem Intact.loop_deaf {effects : List Effect} (hIntact : c.Intact) (hDeaf : ¬ c.Listens)
    (h : c.loopStep? answer = some (d, effects)) : d.Intact := by
  unfold loopStep? at h
  split at h
  · cases h
  · obtain ⟨rfl, -⟩ := Prod.mk.inj (Option.some.inj h)
    exact ⟨hIntact.fits, fun hRunning => by cases hRunning⟩
  · rename_i hRunning
    split at h
    · rename_i m rest _
      obtain ⟨rfl, -⟩ := Prod.mk.inj (Option.some.inj h)
      have hTaken : ({ c with accepted := rest } : Client).Intact := ⟨hIntact.fits, hIntact.isOpen⟩
      exact hTaken.write m
    · rename_i hAccepted
      split at h
      · rename_i hOpen
        exact absurd ⟨hRunning, hAccepted, hOpen⟩ hDeaf
      · obtain ⟨rfl, -⟩ := Prod.mk.inj (Option.some.inj h)
        exact ⟨hIntact.fits, fun hRunning => by cases hRunning⟩

theorem Intact.next? (hIntact : c.Intact) (hOwn : event.isOwn = true)
    (h : c.next? answer event = some (d, entries)) : d.Intact := by
  by_cases hLoop : event = .loop
  · subst hLoop
    by_cases hListens : c.Listens
    · exact (hears_of_listens hIntact hListens h).2
    · obtain ⟨⟨e, effects⟩, hStep, hSame⟩ := Option.map_eq_some_iff.mp h
      obtain ⟨rfl, -⟩ := Prod.mk.inj hSame
      exact hIntact.loop_deaf hListens hStep
  · obtain ⟨hReader, hConnection⟩ := caller_connection hOwn hLoop h
    refine ⟨hReader ▸ hIntact.fits, fun hRunning => ?_⟩
    obtain ⟨hBefore, hSame⟩ := hConnection hRunning
    exact hSame ▸ hIntact.isOpen hBefore

theorem Intact.after (hIntact : c.Intact) (happening : Stream.Happening) :
    (c.after happening).Intact where
  fits := hIntact.fits
  isOpen hRunning := by
    obtain ⟨hConnected, hClosed⟩ := c.connection.transport.after_open happening
    obtain ⟨hBefore, hOpen⟩ := hIntact.isOpen hRunning
    exact ⟨hConnected.trans hBefore, hClosed.trans hOpen⟩

variable {trace : List Entry} {heard : List String}

theorem Passage.intact (h : Passage answer c trace heard d) (hIntact : c.Intact) : d.Intact := by
  induction h with
  | start => exact hIntact
  | own _ hOwn last ih => exact ih.next? hOwn last
  | outside _ happening ih => exact ih.after happening

/-- The second client shows what the first one shows, and while its loop runs it has nothing left
over of what has arrived. -/
structure Twin (c d : Client) : Prop where
  same : d.outward = c.outward
  dry : d.phase = .running → d.outward = d

namespace Twin

theorem listens (h : Twin c d) : d.Listens ↔ c.Listens := by
  have hListens : d.outward.Listens ↔ c.outward.Listens := by rw [h.same]
  exact hListens

/-- What does not look for what has arrived, the twin does as well. -/
theorem own {c' : Client} (h : Twin c d) (hOwn : event.isOwn = true)
    (hDeaf : event = .loop → ¬ c.Listens) (hStep : c.next? answer event = some (c', entries)) :
    ∃ d', d.next? answer event = some (d', entries) ∧ Twin c' d' := by
  have hOther : d.outward.next? answer event = (d.next? answer event).map _ :=
    next?_outward hOwn fun hLoop => h.listens.not.mpr (hDeaf hLoop)
  rw [h.same, next?_outward hOwn hDeaf, hStep] at hOther
  obtain ⟨⟨d', entries'⟩, hNext, hSame⟩ := Option.map_eq_some_iff.mp hOther.symm
  obtain ⟨hOutward, rfl⟩ := Prod.mk.inj hSame
  refine ⟨d', hNext, hOutward, fun hRunning => ?_⟩
  have hDry : d.outward.next? answer event = (d.next? answer event).map _ :=
    next?_outward hOwn fun hLoop => h.listens.not.mpr (hDeaf hLoop)
  rw [h.dry (running_of_next? hOwn hNext hRunning), hNext] at hDry
  exact (Prod.mk.inj (Option.some.inj hDry)).1.symm

/-- What happens on the connection happens to the twin, but nothing arrives there. -/
theorem outside (h : Twin c d) (happening : Stream.Happening) :
    ∃ d', Passage answer d [] (c.connection.transport.seen happening) d' ∧
      Twin (c.after happening) d' := by
  -- What is not arriving commutes with leaving out what has arrived.
  have hAlso (hSeen : ∀ t : Stream.Transport, t.outward.seen happening = t.seen happening)
      (hAfter : ∀ t : Stream.Transport, (t.after happening).outward = t.outward.after happening) :
      ∃ d', Passage answer d [] (c.connection.transport.seen happening) d' ∧
        Twin (c.after happening) d' := by
    have hOutward (c : Client) : (c.after happening).outward = c.outward.after happening := by
      simp only [outward, after, Frame.Connection.outward, Frame.Connection.onto, hAfter]
    have hSame : d.connection.transport.seen happening = c.connection.transport.seen happening := by
      rw [← hSeen, ← hSeen c.connection.transport]
      exact congrArg (·.connection.transport.seen happening) h.same
    refine ⟨d.after happening, ?_, ?_, fun hRunning => ?_⟩
    · rw [← hSame]
      exact .outside .start happening
    · rw [hOutward, hOutward, h.same]
    · rw [hOutward, h.dry hRunning]
  -- What arrives is left out on both sides.
  have hAlone (hSeen : c.connection.transport.seen happening = [])
      (hAfter : (c.connection.transport.after happening).outward = c.connection.transport.outward) :
      ∃ d', Passage answer d [] (c.connection.transport.seen happening) d' ∧
        Twin (c.after happening) d' := by
    refine ⟨d, hSeen ▸ .start, h.same.trans ?_, h.dry⟩
    simp only [outward, after, Frame.Connection.outward, Frame.Connection.onto, hAfter]
  cases happening with
  | arrive bytes => exact hAlone rfl (Stream.Transport.outward_deliver _ bytes)
  | arriveEnd => exact hAlone rfl rfl
  | write => exact hAlso (fun _ => rfl) Stream.Transport.outward_write
  | read => exact hAlso (fun _ => rfl) fun _ => rfl
  | breakOff => exact hAlso (fun _ => rfl) fun _ => rfl

/-- Where a connection fails, the stream to the twin ends. -/
theorem fails {c' : Client} (h : Twin c d) (hListens : c.Listens)
    (hSame : c'.outward = c.leave.outward) : ∃ d', Passage answer d [] [] d' ∧ Twin c' d' := by
  have hHears : d.Listens := h.listens.mpr hListens
  have hDry : d.connection.outward = d.connection := congrArg Client.connection (h.dry hHears.1)
  have hFailed := Frame.Connection.receive_ended hDry
  generalize hReceive : (d.connection.onto (·.after .arriveEnd)).receive = received at hFailed
  obtain ⟨arrival, connection⟩ := received
  obtain rfl : arrival = .failed := hFailed
  have hEnded : (d.after .arriveEnd).Listens := hHears
  have hStep : (d.after .arriveEnd).next? answer .loop =
      some (({ d with connection } : Client).leave, []) := by
    rw [hEnded.next?_loop]
    simp only [receiveStep?, after, hReceive]
    rfl
  refine ⟨_, .own (.outside .start .arriveEnd) rfl hStep, ?_, fun hRunning => by cases hRunning⟩
  have hClose : connection.close.outward = d.connection.close.outward :=
    (Frame.Connection.outward_close hReceive).trans rfl
  calc ({ d with connection } : Client).leave.outward
      = d.outward.leave.outward := by simp only [leave, outward, hClose]; rfl
    _ = c'.outward := by rw [h.same, hSame]; rfl

/-- A message comes to the twin in one frame. -/
theorem hears {c' : Client} (h : Twin c d) (hIntact : c.Intact) (hListens : c.Listens)
    (hHears : Hears answer c c' entries) : ∃ d', Passage answer d entries [] d' ∧ Twin c' d' := by
  cases hHears with
  | text hSame => exact ⟨d, .start, h.same.trans hSame.symm, h.dry⟩
  | failed hSame => exact h.fails hListens hSame
  | @message m connection effects hSize hSame hHandle =>
    have hHears : d.Listens := h.listens.mpr hListens
    have hDry := h.dry hHears.1
    have hOpen : d.connection.IsOpen :=
      (hIntact.isOpen hListens.1).of_outward (congrArg Client.connection h.same)
    obtain ⟨read, hText, hMessage⟩ :=
      Frame.Connection.receive_frame hOpen (congrArg Client.connection hDry) hSize
    let bytes := Utf8.encode (Frame.encode m).toList
    let looked : Client := { d with connection := read }
    have hArrived : (d.after (.arrive bytes)).Listens := hHears
    have hLooked : looked.Listens := hHears
    have hFirst : (d.after (.arrive bytes)).next? answer .loop = some (looked, []) := by
      have hSome : (d.after (.arrive bytes)).connection.receive = (.text, read) := hText
      rw [hArrived.next?_loop]
      simp only [receiveStep?, hSome]
      rfl
    have hTwin : d.handle answer m = (c'.outward, effects) := by
      have hOutward : ({ c with connection } : Client).outward = d := by
        rw [← hDry, h.same]
        simp only [outward, hSame]
      have hHandled := handle_outward answer { c with connection } m
      rwa [hOutward, hHandle] at hHandled
    have hSecond : looked.next? answer .loop =
        some (c'.outward, .received m :: effects.map .brought) := by
      rw [hLooked.next?_loop]
      simp only [receiveStep?, looked, hMessage, hTwin]
      rfl
    exact ⟨c'.outward, .own (.own (.outside .start (.arrive bytes)) rfl hFirst) rfl hSecond, rfl,
      fun _ => rfl⟩

end Twin

end Client
end EditorBridge.Rpc
