import EditorBridge.Frame.Connection
import EditorBridge.Proofs.Stream.Happening
/-!
What sending and receiving messages does to the connection under them.
-/
namespace EditorBridge.Frame.Connection

/-- Is a message that is sent accepted? -/
def writable (c : Connection) : Bool := c.transport.writable

/-- The connection with one more message under way to the peer. -/
def put (c : Connection) (message : String) : Connection := c.onto (·.put (encode message))

variable {c d : Connection} {message : String} {arrival : Arrival}

theorem send_of_writable (h : c.writable = true) (message : String) :
    c.send message = .ok (c.put message) := by
  simp only [send, Stream.Transport.send_of_writable h]
  rfl

theorem send_of_not_writable (h : c.writable = false) (message : String) :
    ∃ fault, c.send message = .error fault := by
  obtain ⟨fault, hSend⟩ := Stream.Transport.send_of_not_writable h (encode message)
  exact ⟨fault, by simp only [send, hSend]⟩

theorem close_writable (c : Connection) : c.close.writable = false :=
  Stream.Transport.close_writable c.transport

theorem transport_receive (t : Stream.Transport) :
    t.receive.2.outbox = t.outbox ∧ t.receive.2.wire = t.wire ∧
      t.receive.2.writing = t.writing ∧ t.receive.2.closed = t.closed ∧
      (t.receive.2.writable = true → t.writable = true) := by
  unfold Stream.Transport.receive
  split
  · exact ⟨rfl, rfl, rfl, rfl, id⟩
  · split
    · exact ⟨rfl, rfl, rfl, rfl, id⟩
    · split
      · exact ⟨rfl, rfl, rfl, rfl, id⟩
      · exact ⟨rfl, rfl, rfl, rfl, fun h => by simp [Stream.Transport.writable] at h⟩

/-- Receiving writes nothing, and it opens nothing that was closed. -/
theorem receive_same (h : c.receive = (arrival, d)) :
    d.transport.outbox = c.transport.outbox ∧ d.transport.wire = c.transport.wire ∧
      d.transport.writing = c.transport.writing ∧ d.transport.closed = c.transport.closed ∧
      (d.writable = true → c.writable = true) := by
  unfold receive at h
  split at h
  · cases h
    exact ⟨rfl, rfl, rfl, rfl, id⟩
  · have hSame := transport_receive c.transport
    split at h
    · cases h
      exact ⟨rfl, rfl, rfl, rfl, id⟩
    · rename_i hFailed
      rw [hFailed] at hSame
      cases h
      exact hSame
    · rename_i hPiece
      rw [hPiece] at hSame
      split at h <;> cases h <;> exact hSame

/-- A message is taken from those that have been read, and the connection stays as it is. -/
theorem receive_message (h : c.receive = (.message message, d)) : d.transport = c.transport := by
  unfold receive at h
  split at h
  · cases h
    rfl
  · split at h
    · cases h
    · cases h
    · split at h <;> cases h

/-- Text is taken only from a connection that stays as open as it was. -/
theorem receive_text (h : c.receive = (.text, d)) : d.writable = c.writable := by
  unfold receive at h
  split at h
  · cases h
  · split at h
    · cases h
    · cases h
    · rename_i text transport hPiece
      have hSame : transport.writable = c.transport.writable := by
        unfold Stream.Transport.receive at hPiece
        split at hPiece
        · cases hPiece
        · split at hPiece
          · cases hPiece
            rfl
          · split at hPiece <;> cases hPiece
      split at h <;> cases h
      exact hSame

end EditorBridge.Frame.Connection
