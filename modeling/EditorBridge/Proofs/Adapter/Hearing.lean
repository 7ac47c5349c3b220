import EditorBridge.Proofs.Adapter.Events
import EditorBridge.Proofs.Frame.Outward
/-!
A message that arrives while the loop has nothing else to do: two steps of the loop take it and act
on it, and the connection is as it was before.
-/
namespace EditorBridge.Adapter.Client

variable {c d : Client} {m : String}

/-- The loop has written what it was given and acted on what has arrived, and looks for more. -/
structure Listens (c : Client) : Prop where
  running : c.phase = .running
  accepted : c.accepted = []
  isOpen : c.isOpen = true
  connection : c.connection.IsOpen
  dry : c.connection.outward = c.connection

/-- The frame of a message arrives. -/
def hearing (m : String) : List Action :=
  [.transport (.arrive (Utf8.encode (Frame.encode m).toList)), .loop, .loop]

/-- The client with another connection. -/
def withConnection (c : Client) (connection : Frame.Connection) : Client := { c with connection }

theorem Listens.looks (h : c.Listens) (connection : Frame.Connection) :
    (c.withConnection connection).loopStep? = (c.withConnection connection).receiveStep? := by
  have hRunning : (c.withConnection connection).phase = .running := h.running
  have hAccepted : (c.withConnection connection).accepted = [] := h.accepted
  have hOpen : (c.withConnection connection).isOpen = true := h.isOpen
  simp only [loopStep?, hRunning, hAccepted, hOpen, if_true]

/-- The loop takes some text that completes no message. -/
theorem Listens.reads {arrived read : Frame.Connection} (h : c.Listens)
    (hText : arrived.receive = (.text, read)) :
    (c.withConnection arrived).next? .loop = some (c.withConnection read, []) := by
  have hStep : (c.withConnection arrived).loopStep? = some (c.withConnection read) := by
    rw [h.looks, receiveStep?]
    have hReceive : (c.withConnection arrived).connection.receive = (.text, read) := hText
    rw [hReceive]
    rfl
  have hInbound : (c.withConnection arrived).inbound? = none := by
    simp [inbound?, withConnection, hText]
  have hWrote : (c.withConnection arrived).wrote (c.withConnection read)
      (c.withConnection arrived).utterance? = [] :=
    wrote_of_outbox_eq (Frame.Connection.receive_same hText).1
  exact quiet_entries hStep hInbound hWrote (by simp [withConnection, h.running])

/-- A message that arrives is acted on. -/
theorem Listens.hears (h : c.Listens) (hSize : m.utf8ByteSize ≤ Frame.maxSize) : ∃ said,
    Handled m c (c.handle m) said ∧
      c.follow? (hearing m) = some (.received m c.writable :: said.map .wrote, c.handle m) := by
  obtain ⟨read, hText, hMessage⟩ := Frame.Connection.receive_frame h.connection h.dry hSize
  obtain ⟨said, hHandled⟩ := handled c m
  have hInbound : (c.withConnection read).inbound? = some m := by
    simp [inbound?, withConnection, h.running, h.accepted, h.isOpen, hMessage]
  have hStep : (c.withConnection read).loopStep? = some (c.handle m) := by
    rw [h.looks, receiveStep?]
    have hReceive : (c.withConnection read).connection.receive = (.message m, c.connection) :=
      hMessage
    rw [hReceive]
    rfl
  have hActs := handled_entries hInbound h.running h.accepted hMessage hHandled hStep
  have hWritable : (c.withConnection read).writable = c.writable := by
    have hSame := Frame.Connection.receive_message hMessage
    simp only [writable, withConnection, Frame.Connection.writable, hSame]
  rw [hWritable] at hActs
  have hArrives : c.next? (.transport (.arrive (Utf8.encode (Frame.encode m).toList))) =
      some (c.withConnection
        (c.connection.onto (·.deliver (Utf8.encode (Frame.encode m).toList))), []) := rfl
  exact ⟨said, hHandled, follow?_cons hArrives (follow?_cons (h.reads hText) (follow?_single hActs))⟩

/-- An event that arrives is queued if there is room for it, and the loop listens as before. -/
theorem Listens.hears_event {e : Event} (h : c.Listens) (hSize : m.utf8ByteSize ≤ Frame.maxSize)
    (hParse : Message.parse m = .ok (.event e)) :
    c.follow? (hearing m) = some ([.received m c.writable], c.queueEvent e) ∧
      (c.queueEvent e).Listens := by
  obtain ⟨said, hHandled, hFollow⟩ := h.hears hSize
  have hHandle : c.handle m = c.queueEvent e := by simp only [handle, hParse]
  rw [hHandle] at hHandled hFollow
  have hSilent : said = [] := by
    rw [← hHandled.wrote]
    simp [reply?, hParse, wrote]
  subst hSilent
  refine ⟨hFollow, ?_⟩
  unfold queueEvent
  split
  · exact ⟨h.running, h.accepted, h.isOpen, h.connection, h.dry⟩
  · exact h

/-- The one request that waits is written, and then the loop listens. -/
theorem Listens.writes {r : Request} (h : ({ c with accepted := [] } : Client).Listens)
    (hAccepted : c.accepted = [r]) (hWritable : c.writable = true) : ∃ connection,
      c.next? .loop = some ({ c with accepted := [], connection }, [.wrote (.request r)]) ∧
        ({ c with accepted := [], connection } : Client).Listens ∧ connection.writable = true := by
  have hRunning : c.phase = .running := h.running
  have hSend := Frame.Connection.send_of_writable hWritable (Message.request r).text
  have hStep : c.loopStep? = some { c with
      accepted := [], connection := c.connection.put (Message.request r).text } := by
    simp only [loopStep?, hRunning, hAccepted, write, hSend]
  have hSaid : c.utterance? = some (.request r) := by simp [utterance?, hRunning, hAccepted]
  have hWrote : c.wrote { c with
      accepted := [], connection := c.connection.put (Message.request r).text } c.utterance? =
      [.request r] := by
    rw [hSaid]
    exact wrote_of_put rfl
  have hNext := quiet_entries hStep (by simp [inbound?, hAccepted]) hWrote (by simp [hRunning])
  have hDry : c.connection.outward = c.connection := h.dry
  exact ⟨_, hNext, ⟨h.running, rfl, h.isOpen, ⟨h.connection.connected, h.connection.open_⟩,
    congrArg (Frame.Connection.put · (Message.request r).text) hDry⟩, hWritable⟩

end EditorBridge.Adapter.Client
