import EditorBridge.Proofs.Rpc.Run
/-!
The way of a message from its caller to the connection. A client takes messages into its queue and
its loop writes them from there, the oldest first. So at every moment what was taken is what was
written and then what waits, until the loop leaves the connection and what waits is lost. Replies to
the requests of the server are written between them and are no messages of a caller.
-/
namespace EditorBridge.Rpc

/-- A message of a caller. -/
inductive Utterance where
  | call (id : Nat) (method : String) (params : Option Json)
  | notice (method : String) (params : Option Json)

namespace Utterance

def method : Utterance → String
  | call _ method _ => method
  | notice method _ => method

/-- The message as it is written. -/
def text : Utterance → String
  | call id method params =>
    Json.recordText (Request.toMembers ⟨version, .nat id, method, Client.parameters params⟩)
  | notice method params =>
    Json.recordText (Notification.toMembers ⟨version, method, Client.parameters params⟩)

end Utterance

namespace Client

/-- The frames that are on their way to the peer. -/
def outbox (c : Client) : List String := c.connection.transport.outbox

/-- The messages that a client has taken from one moment to the next. -/
def taken (c d : Client) : List String := d.accepted.drop c.accepted.length

/-- The message of a caller that is written from one moment to the next: it was the oldest in the
queue, and now its frame is on its way. -/
def written (c d : Client) : List String :=
  match c.accepted with
  | [] => []
  | m :: rest =>
    if d.accepted = rest ∧ d.outbox = c.outbox ++ [Frame.encode m] then [m] else []

/-- How messages of callers go through a client: it takes some, or it writes the oldest, or it is
done with the connection. -/
inductive Flow (c d : Client) : List Utterance → Prop where
  | took (messages : List Utterance) (hAccepted : d.accepted = c.accepted ++ messages.map (·.text))
      (hPhase : d.phase = c.phase) : Flow c d messages
  | wrote (m : String) (hBefore : c.phase = .running) (hAccepted : c.accepted = m :: d.accepted)
      (hOutbox : d.outbox = c.outbox ++ [Frame.encode m]) (hPhase : d.phase = .running) :
      Flow c d []
  | dropped (hAccepted : d.accepted <:+ c.accepted) (hOutbox : d.outbox = c.outbox)
      (hPhase : d.phase ≠ .running) : Flow c d []

variable {c d : Client} {messages : List Utterance}

theorem Flow.refl (c : Client) : Flow c c [] := .took [] (by simp) rfl

theorem written_of_length_le (h : c.accepted.length ≤ d.accepted.length) : c.written d = [] := by
  unfold written
  split
  · rfl
  · rename_i m rest hAccepted
    rw [if_neg]
    rintro ⟨hRest, -⟩
    rw [hAccepted, hRest] at h
    exact Nat.not_succ_le_self _ h

theorem written_of_outbox_eq (h : d.outbox = c.outbox) : c.written d = [] := by
  unfold written
  split
  · rfl
  · simp [h]

/-- A client takes the messages that are said, and nothing else. -/
theorem Flow.taken_eq (h : Flow c d messages) : c.taken d = messages.map (·.text) := by
  cases h with
  | took messages hAccepted hPhase => simp [taken, hAccepted]
  | wrote m hBefore hAccepted hOutbox hPhase => simp [taken, hAccepted]
  | dropped hAccepted hOutbox hPhase => simpa [taken] using hAccepted.length_le

/-- What was taken is what was written and what waits, while the loop runs. -/
def Tally (c : Client) (takenAll writtenAll : List String) : Prop :=
  ∃ rest, takenAll = writtenAll ++ rest ∧ (c.phase = .running → rest = c.accepted)

theorem Flow.tally (h : Flow c d messages) {takenAll writtenAll : List String}
    (hTally : c.Tally takenAll writtenAll) :
    d.Tally (takenAll ++ c.taken d) (writtenAll ++ c.written d) := by
  obtain ⟨rest, hAll, hRest⟩ := hTally
  rw [h.taken_eq]
  cases h with
  | took messages hAccepted hPhase =>
    have hLength : c.accepted.length ≤ d.accepted.length := by simp [hAccepted]
    refine ⟨rest ++ messages.map (·.text), ?_, fun hRunning => ?_⟩
    · simp [hAll, written_of_length_le hLength]
    · rw [hAccepted, hRest (hPhase ▸ hRunning)]
  | wrote m hBefore hAccepted hOutbox hPhase =>
    refine ⟨d.accepted, ?_, fun _ => rfl⟩
    simp [hAll, hRest hBefore, written, hAccepted, hOutbox]
  | dropped hAccepted hOutbox hPhase =>
    refine ⟨rest, ?_, fun hRunning => absurd hRunning hPhase⟩
    simp [hAll, written_of_outbox_eq hOutbox]

theorem enqueue_ok {text : String} (h : c.enqueue text = .ok d) :
    c.isOpen = true ∧ d = { c with accepted := c.accepted ++ [text] } := by
  unfold enqueue at h
  split at h
  · cases h
  · rename_i hRefusal
    refine ⟨?_, (Except.ok.inj h).symm⟩
    cases hOpen : c.isOpen with
    | true => rfl
    | false => simp [refusal?, hOpen] at hRefusal

/-- A call that is taken waits behind the messages taken before it, and it is open from now on. -/
theorem call_ok {method : String} {params : Option Json} {id : Nat}
    (h : c.call method params = (d, .ok id)) :
    id = c.nextId ∧ c.isOpen = true ∧ d = { c with
      nextId := c.nextId + 1
      accepted := c.accepted ++ [(Utterance.call id method params).text]
      pending := c.pending ++ [id] } := by
  simp only [call] at h
  split at h
  · cases h
  · rename_i e hEnqueue
    obtain ⟨hOpen, rfl⟩ := enqueue_ok hEnqueue
    obtain ⟨rfl, hId⟩ := Prod.mk.inj h
    obtain rfl := Except.ok.inj hId
    exact ⟨rfl, hOpen, rfl⟩

theorem call_error {method : String} {params : Option Json} {e : CallError}
    (h : c.call method params = (d, .error e)) : d = { c with nextId := c.nextId + 1 } := by
  simp only [call] at h
  split at h
  · exact (Prod.mk.inj h).1.symm
  · cases h

theorem notify_ok {method : String} {params : Option Json}
    (h : c.notify method params = (d, .ok ())) :
    c.isOpen = true ∧
      d = { c with accepted := c.accepted ++ [(Utterance.notice method params).text] } := by
  simp only [notify] at h
  split at h
  · cases h
  · rename_i e hEnqueue
    obtain ⟨hOpen, rfl⟩ := enqueue_ok hEnqueue
    exact ⟨hOpen, (Prod.mk.inj h).1.symm⟩

theorem notify_error {method : String} {params : Option Json} {e : CallError}
    (h : c.notify method params = (d, .error e)) : d = c := by
  simp only [notify] at h
  split at h
  · exact (Prod.mk.inj h).1.symm
  · cases h

/-- What a step of the loop does to the messages: it writes the oldest of the queue or, when there
is none, the reply to a request that it receives; or it writes nothing and stays or leaves. -/
inductive LoopMove (answer : Request → Response) (c d : Client) : Prop where
  | wrote (m : String) (hBefore : c.phase = .running) (hAccepted : c.accepted = m :: d.accepted)
      (hOutbox : d.outbox = c.outbox ++ [Frame.encode m]) (hPhase : d.phase = .running)
  | replied {text : String} {r : Request} (hInbound : c.inbound? = some text)
      (hRequest : Inbound.parse text = .ok (.request r)) (hAccepted : d.accepted = c.accepted)
      (hOutbox : d.outbox = c.outbox ++ [Frame.encode (answer r).text]) (hPhase : d.phase = c.phase)
  | stayed (hAccepted : d.accepted = c.accepted) (hOutbox : d.outbox = c.outbox)
      (hPhase : d.phase = c.phase)
  | left (hAccepted : d.accepted <:+ c.accepted) (hOutbox : d.outbox = c.outbox)
      (hPhase : d.phase ≠ .running)

/-- A message is written to a connection that takes it; otherwise the loop leaves. -/
theorem write_cases (c : Client) (m : String) :
    (c.write m).accepted = c.accepted ∧ (c.write m).isOpen = c.isOpen ∧
      ((c.write m).outbox = c.outbox ++ [Frame.encode m] ∧ (c.write m).phase = c.phase ∨
        (c.write m).outbox = c.outbox ∧ (c.write m).phase = .closing) := by
  unfold write
  split
  · rename_i connection hSend
    refine ⟨rfl, rfl, .inl ⟨?_, rfl⟩⟩
    unfold Frame.Connection.send Stream.Transport.send at hSend
    split at hSend
    · rename_i transport hTaken
      obtain rfl := Except.ok.inj hSend
      split at hTaken
      · cases hTaken
      · split at hTaken
        · exact Except.ok.inj hTaken ▸ rfl
        · cases hTaken
    · cases hSend
  · exact ⟨rfl, rfl, .inr ⟨rfl, rfl⟩⟩

/-- Receiving writes nothing. -/
theorem receive_outbox {connection connection' : Frame.Connection} {arrival : Frame.Arrival}
    (h : connection.receive = (arrival, connection')) :
    connection'.transport.outbox = connection.transport.outbox := by
  have hReceive (t : Stream.Transport) : t.receive.2.outbox = t.outbox := by
    unfold Stream.Transport.receive
    split
    · rfl
    · split
      · rfl
      · split <;> rfl
  unfold Frame.Connection.receive at h
  split at h
  · cases h
    rfl
  · have hSame := hReceive connection.transport
    split at h
    · cases h
      rfl
    · rename_i hFailed
      rw [hFailed] at hSame
      cases h
      exact hSame
    · rename_i hPiece
      rw [hPiece] at hSame
      split at h <;> cases h <;> exact hSame

variable {answer : Request → Response} {effects : List Effect}

theorem handle_move {connection : Frame.Connection} {m : String} (hInbound : c.inbound? = some m)
    (hOutbox : connection.transport.outbox = c.outbox)
    (h : ({ c with connection } : Client).handle answer m = (d, effects)) :
    LoopMove answer c d ∧ d.isOpen = c.isOpen := by
  have hQuiet : ({ c with connection } : Client).outbox = c.outbox := hOutbox
  unfold handle dispatch at h
  split at h
  · rename_i e effects' hDispatch
    obtain ⟨rfl, -⟩ := Prod.mk.inj h
    -- Without a reply, at most an open call has ended.
    split at hDispatch
    · cases hDispatch
      exact ⟨.stayed rfl hQuiet rfl, rfl⟩
    · cases hDispatch
      exact ⟨.stayed rfl hQuiet rfl, rfl⟩
    · cases hDispatch
    · split at hDispatch
      · cases hDispatch
        exact ⟨.stayed rfl hQuiet rfl, rfl⟩
      · split at hDispatch <;> cases hDispatch <;> exact ⟨.stayed rfl hQuiet rfl, rfl⟩
  · rename_i e effects' reply hDispatch
    obtain ⟨rfl, -⟩ := Prod.mk.inj h
    split at hDispatch
    · cases hDispatch
    · cases hDispatch
    · rename_i r hRequest
      cases hDispatch
      obtain ⟨hAccepted, hOpen, ⟨hWritten, hPhase⟩ | ⟨hNothing, hPhase⟩⟩ :=
        write_cases { c with connection } (answer r).text
      · exact ⟨.replied hInbound hRequest hAccepted (hQuiet ▸ hWritten) hPhase, hOpen⟩
      · exact ⟨.left ⟨[], hAccepted⟩ (hNothing.trans hQuiet) (by simp [hPhase]), hOpen⟩
    · split at hDispatch
      · cases hDispatch
      · split at hDispatch <;> cases hDispatch

theorem loop_move (h : c.loopStep? answer = some (d, effects)) :
    LoopMove answer c d ∧ d.isOpen = c.isOpen := by
  unfold loopStep? at h
  split at h
  · cases h
  · cases h
    exact ⟨.left (List.nil_suffix ..) rfl (by simp [letGo]), rfl⟩
  · rename_i hRunning
    split at h
    · rename_i m rest hAccepted
      obtain ⟨rfl, -⟩ := Prod.mk.inj (Option.some.inj h)
      obtain ⟨hRest, hOpen, ⟨hWritten, hPhase⟩ | ⟨hNothing, hPhase⟩⟩ :=
        write_cases { c with accepted := rest } m
      · exact ⟨.wrote m hRunning (by rw [hAccepted, hRest]) hWritten (hPhase.trans hRunning), hOpen⟩
      · refine ⟨.left ?_ hNothing (by simp [hPhase]), hOpen⟩
        rw [hRest, hAccepted]
        exact List.suffix_cons m rest
    · rename_i hAccepted
      split at h
      · rename_i hOpen
        unfold receiveStep? at h
        split at h
        · rename_i m connection hReceive
          have hInbound : c.inbound? = some m := by
            simp [inbound?, hRunning, hAccepted, hOpen, hReceive]
          exact handle_move hInbound (receive_outbox hReceive) (Option.some.inj h)
        · rename_i connection hReceive
          cases h
          exact ⟨.stayed rfl (receive_outbox hReceive) rfl, rfl⟩
        · cases h
        · rename_i connection hReceive
          have hOutbox := receive_outbox hReceive
          cases h
          exact ⟨.left (List.suffix_refl _) hOutbox (by simp [leave]), rfl⟩
      · cases h
        exact ⟨.left (List.suffix_refl _) rfl (by simp [leave]), rfl⟩

theorem LoopMove.flow (h : LoopMove answer c d) : Flow c d [] := by
  cases h with
  | wrote m hBefore hAccepted hOutbox hPhase => exact .wrote m hBefore hAccepted hOutbox hPhase
  | replied hInbound hRequest hAccepted hOutbox hPhase =>
    exact .took [] (by simp [hAccepted]) hPhase
  | stayed hAccepted hOutbox hPhase => exact .took [] (by simp [hAccepted]) hPhase
  | left hAccepted hOutbox hPhase => exact .dropped hAccepted hOutbox hPhase

/-- What a step of the loop writes is the message of a caller, or the reply to a request of the
server, or nothing. -/
theorem LoopMove.outbox (h : LoopMove answer c d) :
    d.outbox = c.outbox ++ (c.written d).map Frame.encode ∨
      c.written d = [] ∧ ∃ text r, c.inbound? = some text ∧
        Inbound.parse text = .ok (.request r) ∧
        d.outbox = c.outbox ++ [Frame.encode (answer r).text] := by
  cases h with
  | wrote m hBefore hAccepted hOutbox hPhase =>
    exact .inl (by simp [written, hAccepted, hOutbox])
  | replied hInbound hRequest hAccepted hOutbox hPhase =>
    exact .inr ⟨written_of_length_le (by simp [hAccepted]), _, _, hInbound, hRequest, hOutbox⟩
  | stayed hAccepted hOutbox hPhase => exact .inl (by simp [written_of_outbox_eq hOutbox, hOutbox])
  | left hAccepted hOutbox hPhase => exact .inl (by simp [written_of_outbox_eq hOutbox, hOutbox])

end Client
end EditorBridge.Rpc
