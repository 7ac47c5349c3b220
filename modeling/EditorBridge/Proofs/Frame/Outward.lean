import EditorBridge.Proofs.Frame.Connection
import EditorBridge.Proofs.Frame.Outlook
/-!
Connections without what has arrived. What has arrived and was not received shows nothing to the
peer and does not decide what is sent. A connection that is open and has nothing left over takes one
frame as its message and then again has nothing left over.
-/
namespace EditorBridge.Frame

variable {text : List Char} {messages : List String} {fault : Option Fault} {n : Nat}

theorem contentLength_le {header : List Char} (h : contentLength header = .ok n) : n ≤ maxSize := by
  unfold contentLength parseLength at h
  split at h
  · cases h
  · split at h
    · cases h
    · split at h
      · cases h
      · rename_i hSize
        obtain rfl := Except.ok.inj h
        exact Nat.le_of_not_lt hSize

/-- No text says a message that is too large. -/
theorem Says.fits (h : Says text messages fault) : ∀ m ∈ messages, m.utf8ByteSize ≤ maxSize := by
  induction h with
  | ends | faulty => simp
  | @message _ body _ _ _ hFront _ ih =>
    refine List.forall_mem_cons.mpr ⟨?_, ih⟩
    cases hFront with
    | message _ hLength =>
      rw [utf8ByteSize_eq_byteSize, String.toList_ofList]
      exact contentLength_le hLength

/-- The text of one frame says its message and nothing else. -/
theorem content_encode {m : String} (hSize : m.utf8ByteSize ≤ maxSize) :
    content (encode m).toList = ⟨[m], [], none⟩ := by
  have hFront := front_encode_append hSize []
  rw [List.append_nil] at hFront
  have hRest : content [] = ⟨[], [], none⟩ := content_of_incomplete rfl
  rw [content_of_message hFront, hRest, String.ofList_toList]

end EditorBridge.Frame

namespace EditorBridge.Stream.Transport

/-- The connection without what has arrived. -/
def outward (t : Transport) : Transport :=
  { t with decoder := .empty, pieces := [], reading := true }

theorem send_outward (t : Transport) (text : String) :
    t.outward.send text = (t.send text).map outward := by
  have hConnected : (!t.outward.connected || t.outward.closed) = (!t.connected || t.closed) := rfl
  have hWriting : t.outward.writing = t.writing := rfl
  unfold send
  rw [hConnected, hWriting]
  split
  · rfl
  · split <;> rfl

/-- What arrives shows nothing yet. -/
theorem outward_deliver (t : Transport) (bytes : List UInt8) :
    (t.deliver bytes).outward = t.outward := by
  obtain ⟨hOutbox, hWire, hWriting, hClosed, hConnected⟩ := deliver_same t bytes
  simp only [outward, hOutbox, hWire, hWriting, hClosed, hConnected]

theorem outward_write (t : Transport) : (t.after .write).outward = t.outward.after .write := by
  have hWriting : t.outward.writing = t.writing := rfl
  have hOutbox : t.outward.outbox = t.outbox := rfl
  have hClosed : t.outward.closed = t.closed := rfl
  simp only [after, writeStep?, hWriting, hOutbox, hClosed]
  cases t.writing with
  | false => rfl
  | true =>
    cases t.outbox with
    | cons m rest => rfl
    | nil => cases t.closed <;> rfl

/-- What happens on a connection does not close it. -/
theorem after_open (t : Transport) (happening : Happening) :
    (t.after happening).connected = t.connected ∧ (t.after happening).closed = t.closed := by
  cases happening with
  | arrive bytes =>
    obtain ⟨-, -, -, hClosed, hConnected⟩ := deliver_same t bytes
    exact ⟨hConnected, hClosed⟩
  | arriveEnd | read | breakOff => exact ⟨rfl, rfl⟩
  | write =>
    cases hStep : t.writeStep? with
    | none => simp [after, hStep]
    | some u =>
      simp only [after, hStep, Option.getD_some]
      obtain ⟨-, ⟨m, rest, -, rfl⟩ | ⟨-, -, rfl⟩⟩ := writeStep?_cases hStep <;> exact ⟨rfl, rfl⟩

end EditorBridge.Stream.Transport

namespace EditorBridge.Frame.Connection

/-- The connection without what has arrived. -/
def outward (c : Connection) : Connection := ⟨.empty, c.transport.outward⟩

theorem send_outward (c : Connection) (message : String) :
    c.outward.send message = (c.send message).map outward := by
  have hSend : c.outward.transport.send (encode message) =
      (c.transport.send (encode message)).map Stream.Transport.outward :=
    Stream.Transport.send_outward ..
  unfold send
  rw [hSend]
  cases c.transport.send (encode message) <;> rfl

/-- Is the connection open, as far as its owner knows? -/
structure IsOpen (c : Connection) : Prop where
  connected : c.transport.connected = true
  open_ : c.transport.closed = false

variable {c d : Connection} {m : String}

/-- Receiving a message or some text takes nothing but what has arrived. -/
theorem outward_receive {arrival : Arrival} (h : c.receive = (arrival, d))
    (hArrival : arrival ≠ .failed) : d.outward = c.outward := by
  unfold receive at h
  split at h
  · cases h
    rfl
  · split at h
    · cases h
      rfl
    · cases h
      exact absurd rfl hArrival
    · rename_i text transport hPiece
      have hSame : transport.outward = c.transport.outward := by
        unfold Stream.Transport.receive at hPiece
        split at hPiece
        · cases hPiece
        · split at hPiece
          · cases hPiece
            rfl
          · split at hPiece <;> cases hPiece
      split at h
      · cases h
        exact absurd rfl hArrival
      · cases h
        simp only [outward, hSame]

/-- Messages that are too large are not queued. -/
theorem receive_fits {arrival : Arrival} (h : c.receive = (arrival, d))
    (hFits : ∀ m ∈ c.reader.queue, m.utf8ByteSize ≤ maxSize) :
    (∀ m ∈ d.reader.queue, m.utf8ByteSize ≤ maxSize) ∧
      ∀ m, arrival = .message m → m.utf8ByteSize ≤ maxSize := by
  have hFeed (text : List Char) : ∀ m ∈ (c.reader.feed text).1.queue, m.utf8ByteSize ≤ maxSize := by
    rw [Reader.feed_eq]
    exact List.forall_mem_append.mpr ⟨hFits, (says_content _).fits⟩
  unfold receive at h
  split at h
  · rename_i m reader hNext
    obtain ⟨rfl, rfl⟩ := Prod.mk.inj h
    unfold Reader.next? at hNext
    split at hNext
    · cases hNext
    · rename_i first rest hQueue
      obtain ⟨rfl, rfl⟩ := Prod.mk.inj (Option.some.inj hNext)
      obtain ⟨hFirst, hRest⟩ := List.forall_mem_cons.mp (hQueue ▸ hFits)
      exact ⟨hRest, fun m hSame => Arrival.message.inj hSame ▸ hFirst⟩
  · split at h
    · obtain ⟨rfl, rfl⟩ := Prod.mk.inj h
      exact ⟨hFits, by simp⟩
    · obtain ⟨rfl, rfl⟩ := Prod.mk.inj h
      exact ⟨hFits, by simp⟩
    · rename_i text transport hPiece
      have hQueue := hFeed text
      split at h
      all_goals
        rename_i hRead
        obtain ⟨rfl, rfl⟩ := Prod.mk.inj h
        rw [hRead] at hQueue
        exact ⟨hQueue, by simp⟩

theorem IsOpen.of_outward (h : c.IsOpen) (hSame : d.outward = c.outward) : d.IsOpen where
  connected := (congrArg (·.transport.connected) hSame).trans h.connected
  open_ := (congrArg (·.transport.closed) hSame).trans h.open_

/-- Once it is closed, it does not matter in which way a connection has failed. -/
theorem outward_close {arrival : Arrival} (h : c.receive = (arrival, d)) :
    d.close.outward = c.close.outward := by
  obtain ⟨hOutbox, hWire, hWriting, -, -⟩ := receive_same h
  simp only [close, outward, Stream.Transport.close, Stream.Transport.outward, hOutbox, hWire,
    hWriting]

/-- A connection that has nothing left over takes one frame as some text, then as its message, and
then again has nothing left over. -/
theorem receive_frame (hOpen : c.IsOpen) (hDry : c.outward = c) (hSize : m.utf8ByteSize ≤ maxSize) :
    ∃ d, (c.onto (·.deliver (Utf8.encode (encode m).toList))).receive = (.text, d) ∧
      d.receive = (.message m, c) := by
  have hText : (encode m).toList ≠ [] := by
    rw [encode_toList]
    simp
  have hDeliver : c.outward.transport.deliver (Utf8.encode (encode m).toList) =
      { c.outward.transport with pieces := [(encode m).toList] } := by
    rw [Utf8.deliver_eq (t := c.outward.transport) rfl hOpen.open_]
    simp [outward, Stream.Transport.outward, Utf8.feed_encode, hText]
  refine ⟨{ c.outward with reader := ⟨[], [m]⟩ }, ?_, by rw [← hDry]; rfl⟩
  rw [← hDry, onto, hDeliver]
  have hPiece : ({ c.outward.transport with pieces := [(encode m).toList] }).receive =
      (.piece (encode m).toList, c.outward.transport) := by
    simp [Stream.Transport.receive, outward, Stream.Transport.outward, hOpen.connected, hOpen.open_]
  have hFeed : Reader.empty.feed (encode m).toList = (⟨[], [m]⟩, none) := by
    simp [Reader.feed_eq, Reader.empty, content_encode hSize]
  have hReader : c.outward.reader = .empty := rfl
  have hNext : Reader.empty.next? = none := rfl
  simp only [receive, hReader, hNext, hPiece, hFeed]
  rfl

/-- Behind the end of its stream, a connection that has nothing left over fails. -/
theorem receive_ended (hDry : c.outward = c) :
    (c.onto (·.after .arriveEnd)).receive.1 = .failed := by
  rw [← hDry]
  cases hConnected : c.transport.connected <;> cases hClosed : c.transport.closed <;>
    simp [receive, Reader.next?, Reader.empty, outward, Stream.Transport.outward, onto,
      Stream.Transport.after, Stream.Transport.deliverEnd, Stream.Transport.receive, hConnected,
      hClosed]

end EditorBridge.Frame.Connection
