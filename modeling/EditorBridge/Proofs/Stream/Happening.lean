import EditorBridge.Stream.Transport
/-!
What happens on a connection without its owner: bytes arrive or end, the writer goes on, the peer
reads, or writing fails. None of it makes a connection writable that was not, so an owner who could
not send once never can.
-/
namespace EditorBridge.Stream

inductive Happening where
  /-- One read's worth of bytes of the peer arrives. -/
  | arrive (bytes : List UInt8)
  /-- The peer's stream ends. -/
  | arriveEnd
  /-- The writer goes on, if there is something to do. -/
  | write
  /-- The peer reads what was written to it. -/
  | read
  /-- The peer is gone. -/
  | breakOff

namespace Transport

def after (t : Transport) : Happening → Transport
  | .arrive bytes => t.deliver bytes
  | .arriveEnd => t.deliverEnd
  | .write => t.writeStep?.getD t
  | .read => t.takeWire.2
  | .breakOff => t.failWriting

/-- Is what the owner sends accepted? -/
def writable (t : Transport) : Bool := t.connected && !t.closed && t.writing

/-- The connection with one more text under way to the peer. -/
def put (t : Transport) (text : String) : Transport := { t with outbox := t.outbox ++ [text] }

variable {t : Transport}

theorem send_of_writable (h : t.writable = true) (text : String) : t.send text = .ok (t.put text) := by
  simp only [writable, Bool.and_eq_true, Bool.not_eq_true'] at h
  obtain ⟨⟨hConnected, hOpen⟩, hWriting⟩ := h
  simp [send, put, hConnected, hOpen, hWriting]

theorem send_of_not_writable (h : t.writable = false) (text : String) :
    ∃ fault, t.send text = .error fault := by
  unfold send
  split
  · exact ⟨_, rfl⟩
  · rename_i hConnected
    split
    · rename_i hWriting
      simp_all [writable]
    · exact ⟨_, rfl⟩

theorem close_writable (t : Transport) : t.close.writable = false := by simp [close, writable]

/-- What arrives does not touch the other direction. -/
theorem deliver_same (t : Transport) (bytes : List UInt8) :
    (t.deliver bytes).outbox = t.outbox ∧ (t.deliver bytes).wire = t.wire ∧
      (t.deliver bytes).writing = t.writing ∧ (t.deliver bytes).closed = t.closed ∧
      (t.deliver bytes).connected = t.connected := by
  unfold deliver
  split
  · split
    rename_i read decoder hFeed
    split
    · exact ⟨rfl, rfl, rfl, rfl, rfl⟩
    · split <;> exact ⟨rfl, rfl, rfl, rfl, rfl⟩
  · exact ⟨rfl, rfl, rfl, rfl, rfl⟩

/-- What the writer does: it writes the oldest text, or with all written it ends. -/
theorem writeStep?_cases {u : Transport} (h : t.writeStep? = some u) :
    t.writing = true ∧
      ((∃ m rest, t.outbox = m :: rest ∧ u = { t with outbox := rest, wire := t.wire ++ [m] }) ∨
        (t.outbox = [] ∧ t.closed = true ∧ u = { t with writing := false })) := by
  unfold writeStep? at h
  split at h
  · rename_i hWriting
    split at h
    · rename_i m rest hOutbox
      exact ⟨hWriting, .inl ⟨m, rest, hOutbox, (Option.some.inj h).symm⟩⟩
    · rename_i hOutbox
      split at h
      · rename_i hClosed
        exact ⟨hWriting, .inr ⟨hOutbox, hClosed, (Option.some.inj h).symm⟩⟩
      · cases h
  · cases h

theorem after_writable {happening : Happening} (h : (t.after happening).writable = true) :
    t.writable = true := by
  cases happening with
  | arrive bytes =>
    obtain ⟨-, -, hWriting, hClosed, hConnected⟩ := deliver_same t bytes
    simpa only [after, writable, hWriting, hClosed, hConnected] using h
  | arriveEnd => exact h
  | write =>
    cases hStep : t.writeStep? with
    | none => simpa only [after, hStep, Option.getD_none] using h
    | some u =>
      simp only [after, hStep, Option.getD_some] at h
      obtain ⟨-, ⟨m, rest, -, rfl⟩ | ⟨-, -, rfl⟩⟩ := writeStep?_cases hStep
      · exact h
      · simp [writable] at h
  | read => exact h
  | breakOff => simp [after, failWriting, writable] at h

/-- What the peer reads. -/
def seen (t : Transport) : Happening → List String
  | .read => t.wire
  | _ => []

/-- As long as the peer is there, nothing of what is sent is lost, whatever happens: it is read, or
on its way, and the writer ends only when all is written for an owner who has gone. -/
theorem after_calm {happening : Happening} (hCalm : happening ≠ .breakOff) :
    t.seen happening ++ ((t.after happening).wire ++ (t.after happening).outbox) =
      t.wire ++ t.outbox ∧
    (t.after happening).closed = t.closed ∧ (t.after happening).connected = t.connected ∧
    ((t.after happening).writing = t.writing ∨
      t.outbox = [] ∧ t.closed = true ∧ (t.after happening).outbox = [] ∧
        (t.after happening).writing = false) := by
  cases happening with
  | arrive bytes =>
    obtain ⟨hOutbox, hWire, hWriting, hClosed, hConnected⟩ := deliver_same t bytes
    exact ⟨by simp [seen, after, hOutbox, hWire], hClosed, hConnected, .inl hWriting⟩
  | arriveEnd => exact ⟨rfl, rfl, rfl, .inl rfl⟩
  | write =>
    cases hStep : t.writeStep? with
    | none => simp [seen, after, hStep]
    | some u =>
      simp only [seen, after, hStep, Option.getD_some, List.nil_append]
      obtain ⟨-, ⟨m, rest, hOutbox, rfl⟩ | ⟨hOutbox, hClosed, rfl⟩⟩ := writeStep?_cases hStep
      · simp [hOutbox]
      · exact ⟨rfl, rfl, rfl, .inr ⟨hOutbox, hClosed, hOutbox, rfl⟩⟩
  | read => exact ⟨rfl, rfl, rfl, .inl rfl⟩
  | breakOff => exact absurd rfl hCalm

/-- How many steps the writer still has to make once the owner has gone. -/
def drain (t : Transport) : Nat := t.outbox.length + t.writing.toNat

/-- Only the owner makes more work for the writer. -/
theorem after_drain (t : Transport) (happening : Happening) :
    (t.after happening).drain ≤ t.drain := by
  cases happening with
  | arrive bytes =>
    obtain ⟨hOutbox, -, hWriting, -, -⟩ := deliver_same t bytes
    simp [drain, after, hOutbox, hWriting]
  | arriveEnd => exact Nat.le_refl _
  | write =>
    cases hStep : t.writeStep? with
    | none => simp [after, hStep]
    | some u =>
      simp only [after, hStep, Option.getD_some]
      obtain ⟨-, ⟨m, rest, hOutbox, rfl⟩ | ⟨-, -, rfl⟩⟩ := writeStep?_cases hStep
      · simp [drain, hOutbox]
      · simp [drain]
  | read => exact Nat.le_refl _
  | breakOff => simp [drain, after, failWriting]

/-- When the owner has gone, the writer never waits. -/
theorem write_drain (hClosed : t.closed = true) (hDrained : t.writing = false → t.outbox = []) :
    (t.after .write).drain ≤ t.drain - 1 := by
  simp only [after, drain]
  unfold writeStep?
  cases hWriting : t.writing with
  | false => simp [hDrained hWriting, hWriting]
  | true => cases hOutbox : t.outbox <;> simp [hClosed]

/-- When the writing has ended, nothing more comes to the peer. -/
theorem after_wire (hWriting : t.writing = false) (happening : Happening) :
    (t.after happening).wire.length ≤ t.wire.length := by
  cases happening with
  | arrive bytes => exact Nat.le_of_eq (congrArg List.length (deliver_same t bytes).2.1)
  | arriveEnd => exact Nat.le_refl _
  | write => simp [after, writeStep?, hWriting]
  | read => exact Nat.zero_le _
  | breakOff => exact Nat.zero_le _

theorem seen_of_wire (hWire : t.wire = []) (happening : Happening) : t.seen happening = [] := by
  cases happening with
  | read => exact hWire
  | _ => rfl

end Transport
end EditorBridge.Stream
