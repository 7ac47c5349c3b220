import EditorBridge.Proofs.Frame.Cuts
import EditorBridge.Proofs.Frame.Delivery
import EditorBridge.Proofs.Text.Chunks
/-!
What a connection brings of any bytes. The text ahead of a connection stands in its buffer, in the
pieces that wait and in the bytes that are not yet read, and what is found in this text is what can
still come. Whatever the bytes are, a connection brings no messages but those found in their text,
in this order; and it brings all of them if the text has no fault.
-/
namespace EditorBridge.Frame

/-- The text that has not been looked at, when `bytes` are still unread. -/
def Connection.ahead (c : Connection) (bytes : List UInt8) : List Char :=
  c.reader.buffer ++ (c.transport.pieces.flatten ++ (c.transport.decoder.feed bytes).1)

/-- An open connection, with what is found in the text ahead of it. -/
structure Faces (c : Connection) (bytes : List UInt8) (found : Content) : Prop where
  ahead : content (c.ahead bytes) = found
  taken : front c.reader.buffer = .incomplete
  connected : c.transport.connected = true
  open_ : c.transport.closed = false

/-- What happened brought the messages, some while the peer wrote, without a failure, and the others
behind the end of the stream; then the connection fails. -/
def Delivered (happenings : List Happening) (messages : List String) : Prop :=
  ∃ arrivals c later d,
    follow (.onTransport .fresh) happenings = (arrivals, c) ∧ .failed ∉ arrivals ∧
    Receives (c.onto (·.deliverEnd)) later d ∧
    messages = arrivals.filterMap Arrival.message? ++ later ∧ d.receive.1 = .failed

namespace Faces

variable {c d : Connection} {bytes chunk : List UInt8} {found : Content} {arrival : Arrival}
  {happenings : List Happening}

theorem fresh (bytes : List UInt8) :
    Faces (.onTransport .fresh) bytes (content (Utf8.Decoder.empty.feed bytes).1) :=
  ⟨rfl, rfl, rfl, rfl⟩

/-- A read moves text from the unread bytes to the pieces. -/
theorem read (h : Faces c (chunk ++ bytes) found) (hReading : c.transport.reading = true) :
    Faces (c.onto (·.deliver chunk)) bytes found ∧
      (c.onto (·.deliver chunk)).transport.reading = true := by
  have hDeliver := Utf8.deliver_eq hReading h.open_ chunk
  have hPiece : ([(c.transport.decoder.feed chunk).1].filter (· ≠ [])).flatten =
      (c.transport.decoder.feed chunk).1 := by
    rw [List.flatten_filter_ne_nil, List.flatten_singleton]
  have hAhead : (c.onto (·.deliver chunk)).ahead bytes = c.ahead (chunk ++ bytes) := by
    simp only [Connection.ahead, Connection.onto, hDeliver, Utf8.feed_append, List.flatten_append,
      hPiece, List.append_assoc]
  refine ⟨⟨hAhead ▸ h.ahead, h.taken, ?_, ?_⟩, ?_⟩
  · simp only [Connection.onto, hDeliver, h.connected]
  · simp only [Connection.onto, hDeliver, h.open_]
  · simp only [Connection.onto, hDeliver, hReading]

/-- A queued message comes first. -/
theorem look_queued (h : Faces c bytes found) {m : String} {queue : List String}
    (hQueue : c.reader.queue = m :: queue) :
    ∃ d, c.receive = (.message m, d) ∧ d.reader.queue = queue ∧ d.transport = c.transport ∧
      Faces d bytes found := by
  refine ⟨{ c with reader := ⟨c.reader.buffer, queue⟩ }, ?_, rfl, rfl, h.ahead, h.taken,
    h.connected, h.open_⟩
  simp [Connection.receive, Reader.next?, hQueue]

/-- A piece that completes no fault queues the messages that it completes. -/
theorem look_piece (h : Faces c bytes found) (hQueue : c.reader.queue = [])
    {piece : List Char} {pieces : List (List Char)} (hPieces : c.transport.pieces = piece :: pieces)
    (hNone : (content (c.reader.buffer ++ piece)).fault = none) :
    ∃ d messages, c.receive = (.text, d) ∧ found.messages = d.reader.queue ++ messages ∧
      d.transport = { c.transport with pieces } ∧ Faces d bytes { found with messages } := by
  have hAhead := h.ahead
  rw [Connection.ahead, hPieces, List.flatten_cons, List.append_assoc, ← List.append_assoc,
    content_append, hNone] at hAhead
  obtain rfl := hAhead
  let read : Reader :=
    ⟨(content (c.reader.buffer ++ piece)).left, (content (c.reader.buffer ++ piece)).messages⟩
  refine ⟨⟨read, { c.transport with pieces }⟩, _, ?_, rfl, rfl, rfl, front_left hNone, h.connected,
    h.open_⟩
  simp [Connection.receive, Reader.next?, hQueue, Stream.Transport.receive, h.connected, h.open_,
    hPieces, Reader.feed_eq, hNone, read]

/-- A piece that completes a fault fails, and the fault is the first of the text ahead. -/
theorem look_fault (h : Faces c bytes found) (hQueue : c.reader.queue = [])
    {piece : List Char} {pieces : List (List Char)} (hPieces : c.transport.pieces = piece :: pieces)
    {fault : Fault} (hFault : (content (c.reader.buffer ++ piece)).fault = some fault) :
    c.receive.1 = .failed ∧ found.fault = some fault := by
  have hAhead := h.ahead
  rw [Connection.ahead, hPieces, List.flatten_cons, List.append_assoc, ← List.append_assoc,
    content_append, hFault] at hAhead
  obtain rfl := hAhead
  refine ⟨?_, rfl⟩
  simp [Connection.receive, Reader.next?, hQueue, Stream.Transport.receive, h.connected, h.open_,
    hPieces, Reader.feed_eq, hFault]

/-- Without a message and without a piece, the owner waits as long as the peer may still write. -/
theorem look_nothing (h : Faces c bytes found) (hQueue : c.reader.queue = [])
    (hPieces : c.transport.pieces = []) :
    c.receive = if c.transport.reading then (.waiting, c)
      else (.failed, c.onto fun t => { t with connected := false }) := by
  cases hReading : c.transport.reading <;>
    simp [Connection.receive, Reader.next?, hQueue, Stream.Transport.receive, h.connected, h.open_,
      hPieces, hReading, Connection.onto]

/-- A look that does not fail takes what comes first of what was still to come. -/
theorem look (h : Faces c bytes found) (hLook : c.receive = (arrival, d))
    (hArrival : arrival ≠ .failed) :
    ∃ messages, c.reader.queue ++ found.messages =
        arrival.message?.toList ++ (d.reader.queue ++ messages) ∧
      d.transport.reading = c.transport.reading ∧ Faces d bytes { found with messages } := by
  match hQueue : c.reader.queue, hPieces : c.transport.pieces with
  | m :: queue, _ =>
    obtain ⟨d', hSame, rfl, hTransport, hNext⟩ := h.look_queued hQueue
    obtain ⟨rfl, rfl⟩ := Prod.mk.inj (hSame.symm.trans hLook)
    exact ⟨found.messages, rfl, by rw [hTransport], hNext⟩
  | [], piece :: pieces =>
    cases hFault : (content (c.reader.buffer ++ piece)).fault with
    | none =>
      obtain ⟨d', messages, hSame, hMessages, hTransport, hNext⟩ :=
        h.look_piece hQueue hPieces hFault
      obtain ⟨rfl, rfl⟩ := Prod.mk.inj (hSame.symm.trans hLook)
      exact ⟨messages, hMessages, by rw [hTransport], hNext⟩
    | some fault =>
      have hFailed := (h.look_fault hQueue hPieces hFault).1
      rw [hLook] at hFailed
      exact absurd hFailed hArrival
  | [], [] =>
    have hSame := (h.look_nothing hQueue hPieces).symm.trans hLook
    split at hSame
    · obtain ⟨rfl, rfl⟩ := Prod.mk.inj hSame
      refine ⟨found.messages, by rw [hQueue]; rfl, rfl, h⟩
    · exact absurd (Prod.mk.inj hSame).1.symm hArrival

/-- Without a fault in the text ahead, a look fails only when nothing is left of a stream that has
ended. -/
theorem look_ne_failed (h : Faces c bytes found) (hFault : found.fault = none)
    (hMore : c.reader.queue ≠ [] ∨ c.transport.pieces ≠ [] ∨ c.transport.reading = true) :
    c.receive.1 ≠ .failed := by
  match hQueue : c.reader.queue, hPieces : c.transport.pieces with
  | m :: queue, _ =>
    obtain ⟨d, hLook, -⟩ := h.look_queued hQueue
    rw [hLook]
    exact Arrival.noConfusion
  | [], piece :: pieces =>
    cases hPiece : (content (c.reader.buffer ++ piece)).fault with
    | none =>
      obtain ⟨d, -, hLook, -⟩ := h.look_piece hQueue hPieces hPiece
      rw [hLook]
      exact Arrival.noConfusion
    | some fault =>
      have hFound := (h.look_fault hQueue hPieces hPiece).2
      rw [hFault] at hFound
      cases hFound
  | [], [] =>
    have hReading : c.transport.reading = true := by simpa [hQueue, hPieces] using hMore
    rw [h.look_nothing hQueue hPieces, if_pos hReading]
    exact Arrival.noConfusion

/-- As long as nothing fails, what was got and what is still to come are together what was to come
before. -/
theorem follow (h : Faces c (bytesRead happenings ++ bytes) found)
    (hReading : c.transport.reading = true) {arrivals : List Arrival}
    (hFollow : Frame.follow c happenings = (arrivals, d)) (hArrivals : .failed ∉ arrivals) :
    ∃ messages, c.reader.queue ++ found.messages =
        arrivals.filterMap Arrival.message? ++ (d.reader.queue ++ messages) ∧
      Faces d bytes { found with messages } := by
  induction happenings generalizing c found arrivals with
  | nil =>
    obtain ⟨rfl, rfl⟩ := Prod.mk.inj hFollow
    exact ⟨found.messages, rfl, h⟩
  | cons happening rest ih =>
    cases happening with
    | read chunk =>
      rw [bytesRead, List.flatMap_cons, List.append_assoc] at h
      obtain ⟨hNext, hReading⟩ := h.read hReading
      exact ih hNext hReading hFollow hArrivals
    | look =>
      rw [Frame.follow] at hFollow
      generalize hLook : c.receive = looked at hFollow
      obtain ⟨arrival, e⟩ := looked
      obtain ⟨rfl, rfl⟩ := Prod.mk.inj hFollow
      simp only [List.mem_cons, not_or] at hArrivals
      obtain ⟨messages, hFirst, hStill, hNext⟩ := h.look hLook (Ne.symm hArrivals.1)
      obtain ⟨later, hRest, hEnd⟩ := ih hNext (hStill.trans hReading) rfl hArrivals.2
      refine ⟨later, ?_, hEnd⟩
      rw [hFirst, hRest, List.filterMap_cons]
      cases arrival <;> simp [Arrival.message?]

/-- Without a fault in the text ahead, nothing fails while the peer writes. -/
theorem follow_ne_failed (h : Faces c (bytesRead happenings ++ bytes) found)
    (hReading : c.transport.reading = true) (hFault : found.fault = none) :
    .failed ∉ (Frame.follow c happenings).1 := by
  induction happenings generalizing c found with
  | nil => simp [Frame.follow]
  | cons happening rest ih =>
    cases happening with
    | read chunk =>
      rw [bytesRead, List.flatMap_cons, List.append_assoc] at h
      obtain ⟨hNext, hReading⟩ := h.read hReading
      exact ih hNext hReading hFault
    | look =>
      have hArrival := h.look_ne_failed hFault (.inr (.inr hReading))
      obtain ⟨messages, -, hStill, hNext⟩ := h.look rfl hArrival
      have hRest := ih hNext (hStill.trans hReading) hFault
      simp only [Frame.follow, List.mem_cons, not_or]
      exact ⟨Ne.symm hArrival, hRest⟩

theorem onto_deliverEnd (h : Faces c bytes found) : Faces (c.onto (·.deliverEnd)) bytes found :=
  ⟨h.ahead, h.taken, h.connected, h.open_⟩

theorem receives (h : Faces c bytes found) {later : List String} (hLater : Receives c later d) :
    ∃ messages, c.reader.queue ++ found.messages = later ++ (d.reader.queue ++ messages) ∧
      Faces d bytes { found with messages } := by
  induction hLater generalizing found with
  | done => exact ⟨found.messages, rfl, h⟩
  | text hLook _ ih =>
    obtain ⟨messages, hFirst, -, hNext⟩ := h.look hLook (by simp)
    obtain ⟨rest, hRest, hEnd⟩ := ih hNext
    exact ⟨rest, hFirst.trans hRest, hEnd⟩
  | message hLook _ ih =>
    obtain ⟨messages, hFirst, -, hNext⟩ := h.look hLook (by simp)
    obtain ⟨rest, hRest, hEnd⟩ := ih hNext
    refine ⟨rest, ?_, hEnd⟩
    rw [hFirst, hRest]
    rfl

/-- The queue is emptied before anything else is looked at. -/
theorem drain_queue (h : Faces c bytes found) :
    ∃ d, Receives c c.reader.queue d ∧ d.reader.queue = [] ∧ d.transport = c.transport ∧
      Faces d bytes found := by
  generalize hQueue : c.reader.queue = queue
  induction queue generalizing c with
  | nil => exact ⟨c, .done c, hQueue, rfl, h⟩
  | cons m queue ih =>
    obtain ⟨d, hLook, hRest, hTransport, hNext⟩ := h.look_queued hQueue
    obtain ⟨e, hReceives, hEmpty, hSame, hEnd⟩ := ih hNext hRest
    exact ⟨e, .message hLook hReceives, hEmpty, hSame.trans hTransport, hEnd⟩

/-- After the end of the stream, all that is found in a text without a fault comes, and behind it
the connection fails. -/
theorem drain (h : Faces c [] found) (hReading : c.transport.reading = false)
    (hFault : found.fault = none) :
    ∃ d, Receives c (c.reader.queue ++ found.messages) d ∧ d.receive.1 = .failed := by
  generalize hPieces : c.transport.pieces = pieces
  induction pieces generalizing c found with
  | nil =>
    obtain ⟨d, hQueue, hEmpty, hTransport, hNext⟩ := h.drain_queue
    rw [← hTransport] at hPieces hReading
    have hNothing : found.messages = [] := by
      rw [← hNext.ahead, Connection.ahead, hPieces, List.flatten_nil, List.nil_append]
      have hBuffer : d.reader.buffer ++ (d.transport.decoder.feed []).1 = d.reader.buffer :=
        List.append_nil _
      rw [hBuffer, content_of_incomplete hNext.taken]
    refine ⟨d, by rw [hNothing, List.append_nil]; exact hQueue, ?_⟩
    rw [hNext.look_nothing hEmpty hPieces, hReading]
    rfl
  | cons piece pieces ih =>
    obtain ⟨d, hQueue, hEmpty, hTransport, hNext⟩ := h.drain_queue
    rw [← hTransport] at hPieces hReading
    cases hPiece : (content (d.reader.buffer ++ piece)).fault with
    | none =>
      obtain ⟨e, messages, hLook, hMessages, hPopped, hRest⟩ :=
        hNext.look_piece hEmpty hPieces hPiece
      obtain ⟨f, hReceives, hEnd⟩ := ih hRest (by rw [hPopped]; exact hReading) hFault
        (by rw [hPopped])
      rw [hMessages]
      exact ⟨f, hQueue.append (.text hLook hReceives), hEnd⟩
    | some fault =>
      have hFound := (hNext.look_fault hEmpty hPieces hPiece).2
      rw [hFault] at hFound
      cases hFound

end Faces

variable {happenings : List Happening} {messages : List String}

/-- Nothing is delivered that the text of the bytes does not say. -/
theorem Delivered.isPrefix (h : Delivered happenings messages) :
    messages <+: (content (Utf8.Decoder.empty.feed (bytesRead happenings)).1).messages := by
  obtain ⟨arrivals, c, later, d, hFollow, hArrivals, hReceives, rfl, -⟩ := h
  have hFresh := Faces.fresh (bytesRead happenings ++ [])
  obtain ⟨messages, hFirst, hNext⟩ := hFresh.follow rfl hFollow hArrivals
  obtain ⟨rest, hRest, -⟩ := hNext.onto_deliverEnd.receives hReceives
  have hQueue : (c.onto (·.deliverEnd)).reader.queue = c.reader.queue := rfl
  rw [hQueue] at hRest
  refine ⟨d.reader.queue ++ rest, ?_⟩
  rw [List.append_assoc, ← hRest, ← hFirst, List.append_nil]
  rfl

/-- A text without a fault is delivered, however its bytes are cut. -/
theorem delivered_content
    (h : (content (Utf8.Decoder.empty.feed (bytesRead happenings)).1).fault = none) :
    Delivered happenings
      (content (Utf8.Decoder.empty.feed (bytesRead happenings)).1).messages := by
  have hFresh := Faces.fresh (bytesRead happenings ++ [])
  rw [← List.append_nil (bytesRead happenings)] at h ⊢
  generalize content (Utf8.Decoder.empty.feed (bytesRead happenings ++ [])).1 = found at hFresh h ⊢
  have hArrivals := hFresh.follow_ne_failed rfl h
  generalize hFollow : Frame.follow (.onTransport .fresh) happenings = followed at hArrivals
  obtain ⟨arrivals, c⟩ := followed
  obtain ⟨messages, hFirst, hNext⟩ := hFresh.follow rfl hFollow hArrivals
  obtain ⟨d, hReceives, hFailed⟩ := hNext.onto_deliverEnd.drain rfl h
  exact ⟨arrivals, c, _, d, hFollow, hArrivals, hReceives, hFirst, hFailed⟩

end EditorBridge.Frame
