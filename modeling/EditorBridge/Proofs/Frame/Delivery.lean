import EditorBridge.Frame.Connection
import EditorBridge.Proofs.Frame.Encoding
import EditorBridge.Proofs.Text.Utf8
/-!
Receiving undoes sending. The peer's bytes come in reads that may be cut anywhere, and the owner may
look for messages between any two of them. What is carried along is the text that is still to come:
it stands in the buffer, in the pieces that wait and in the bytes that are not yet read, and it is
always the frames of the messages that are not yet queued.
-/
namespace EditorBridge.Frame

/-- What happens while the peer writes: a read brings bytes, or the owner looks. -/
inductive Happening where
  | read (bytes : List UInt8)
  | look
deriving DecidableEq, Repr

/-- The bytes of all reads. -/
def bytesRead (happenings : List Happening) : List UInt8 :=
  happenings.flatMap fun
    | .read bytes => bytes
    | .look => []

/-- What the owner gets from what happens, look after look. -/
def follow (c : Connection) : List Happening → List Arrival × Connection
  | [] => ([], c)
  | .read bytes :: rest => follow (c.onto (·.deliver bytes)) rest
  | .look :: rest =>
    let (arrival, c) := c.receive
    let (arrivals, c) := follow c rest
    (arrival :: arrivals, c)

/-- The message of an arrival, if it brings one. -/
def Arrival.message? : Arrival → Option String
  | .message m => some m
  | _ => none

/-- Looks that bring the given messages and no failure. -/
inductive Receives : Connection → List String → Connection → Prop where
  | done (c : Connection) : Receives c [] c
  | text {c c' d : Connection} {messages : List String} (hLook : c.receive = (.text, c'))
      (hRest : Receives c' messages d) : Receives c messages d
  | message {c c' d : Connection} {m : String} {messages : List String}
      (hLook : c.receive = (.message m, c')) (hRest : Receives c' messages d) :
      Receives c (m :: messages) d

theorem Receives.append {c d e : Connection} {first second : List String}
    (hFirst : Receives c first d) (hSecond : Receives d second e) :
    Receives c (first ++ second) e := by
  induction hFirst with
  | done => exact hSecond
  | text hLook _ ih => exact .text hLook (ih hSecond)
  | message hLook _ ih => exact .message hLook (ih hSecond)

/-- A connection that still has to queue the messages `later`, of whose bytes `bytes` are unread. -/
structure Awaits (c : Connection) (bytes : List UInt8) (later : List String) : Prop where
  fits : ∀ m ∈ later, m.utf8ByteSize ≤ maxSize
  text : c.reader.buffer ++ (c.transport.pieces.flatten ++ (c.transport.decoder.feed bytes).1) =
    stream later
  ends : (c.transport.decoder.feed bytes).2 = .empty
  taken : front c.reader.buffer = .incomplete
  connected : c.transport.connected = true
  open_ : c.transport.closed = false

/-- A piece of a stream is no fault, and it queues the messages whose frames end in it. -/
theorem feed_of_append_eq_stream {r : Reader} {piece rest : List Char} {later : List String}
    (hSize : ∀ m ∈ later, m.utf8ByteSize ≤ maxSize)
    (h : r.buffer ++ (piece ++ rest) = stream later) :
    ∃ whole later' left, r.feed piece = (⟨left, r.queue ++ whole⟩, none) ∧
      later = whole ++ later' ∧ left ++ rest = stream later' ∧ front left = .incomplete := by
  rw [← List.append_assoc] at h
  obtain ⟨whole, later', left, hFrames, hLater, hLeft, hFront⟩ :=
    frames_of_append_eq_stream hSize h (Nat.lt_succ_self _)
  refine ⟨whole, later', left, ?_, hLater, hLeft, hFront⟩
  rw [Reader.feed, hFrames]
  simp [Function.comp_def]

namespace Awaits

variable {c : Connection} {bytes : List UInt8} {later : List String}

/-- Nothing has arrived, and all messages are unread. -/
theorem fresh {messages : List String} (hSize : ∀ m ∈ messages, m.utf8ByteSize ≤ maxSize) :
    Awaits (.onTransport .fresh) (Utf8.encode (stream messages)) messages := by
  have hFeed := Utf8.feed_encode (stream messages)
  exact ⟨hSize, by simp [Connection.onTransport, Reader.empty, Stream.Transport.fresh, hFeed],
    by simp [Connection.onTransport, Stream.Transport.fresh, hFeed], rfl, rfl, rfl⟩

/-- A read moves text from the unread bytes to the pieces. -/
theorem read {chunk : List UInt8} (h : Awaits c (chunk ++ bytes) later)
    (hReading : c.transport.reading = true) :
    Awaits (c.onto (·.deliver chunk)) bytes later ∧
      (c.onto (·.deliver chunk)).transport.reading = true := by
  obtain ⟨hSize, hText, hEnds, hTaken, hConnected, hOpen⟩ := h
  rw [Utf8.feed_append] at hText hEnds
  generalize hFeed : c.transport.decoder.feed chunk = fed at hText hEnds
  obtain ⟨text, decoder⟩ := fed
  -- Bytes that complete no character change the decoder alone.
  by_cases hEmpty : text = []
  · have hDeliver : c.transport.deliver chunk = { c.transport with decoder } := by
      simp [Stream.Transport.deliver, hReading, hFeed, hEmpty]
    simp only [hEmpty, List.nil_append] at hText
    simp only [Connection.onto, hDeliver]
    exact ⟨⟨hSize, hText, hEnds, hTaken, hConnected, hOpen⟩, hReading⟩
  · have hDeliver : c.transport.deliver chunk =
        { c.transport with decoder, pieces := c.transport.pieces ++ [text] } := by
      simp [Stream.Transport.deliver, hReading, hFeed, hEmpty, hOpen]
    simp only [Connection.onto, hDeliver]
    exact ⟨⟨hSize, by simpa using hText, hEnds, hTaken, hConnected, hOpen⟩, hReading⟩

/-- A queued message comes first. -/
theorem look_queued (h : Awaits c bytes later) {m : String} {queue : List String}
    (hQueue : c.reader.queue = m :: queue) :
    ∃ d, c.receive = (.message m, d) ∧ d.reader.queue = queue ∧ d.transport = c.transport ∧
      Awaits d bytes later := by
  refine ⟨{ c with reader := ⟨c.reader.buffer, queue⟩ }, ?_, rfl, rfl, h.fits, h.text, h.ends,
    h.taken, h.connected, h.open_⟩
  simp [Connection.receive, Reader.next?, hQueue]

/-- A piece queues the messages that it completes. -/
theorem look_piece (h : Awaits c bytes later) (hQueue : c.reader.queue = [])
    {piece : List Char} {pieces : List (List Char)}
    (hPieces : c.transport.pieces = piece :: pieces) :
    ∃ d later', c.receive = (.text, d) ∧ later = d.reader.queue ++ later' ∧
      d.transport = { c.transport with pieces } ∧ Awaits d bytes later' := by
  obtain ⟨hSize, hText, hEnds, -, hConnected, hOpen⟩ := h
  rw [hPieces, List.flatten_cons, List.append_assoc] at hText
  obtain ⟨whole, later', left, hFeed, hLater, hLeft, hFront⟩ := feed_of_append_eq_stream hSize hText
  rw [hQueue, List.nil_append] at hFeed
  refine ⟨⟨⟨left, whole⟩, { c.transport with pieces }⟩, later', ?_, hLater, rfl, ?_, hLeft, hEnds,
    hFront, hConnected, hOpen⟩
  · simp [Connection.receive, Reader.next?, hQueue, Stream.Transport.receive, hConnected, hOpen,
      hPieces, hFeed]
  · intro m hm
    exact hSize m (hLater ▸ List.mem_append_right _ hm)

/-- Without a message and without a piece, an owner who may still hear more waits. -/
theorem look_waiting (h : Awaits c bytes later) (hQueue : c.reader.queue = [])
    (hPieces : c.transport.pieces = []) (hReading : c.transport.reading = true) :
    c.receive = (.waiting, c) := by
  simp [Connection.receive, Reader.next?, hQueue, Stream.Transport.receive, h.connected, h.open_,
    hPieces, hReading]

/-- One look while the peer may still write. -/
theorem look (h : Awaits c bytes later) (hReading : c.transport.reading = true) :
    ∃ arrival d later', c.receive = (arrival, d) ∧ arrival ≠ .failed ∧
      c.reader.queue ++ later = arrival.message?.toList ++ (d.reader.queue ++ later') ∧
      d.transport.reading = true ∧ Awaits d bytes later' := by
  match hQueue : c.reader.queue, hPieces : c.transport.pieces with
  | m :: queue, _ =>
    obtain ⟨d, hLook, rfl, hTransport, hNext⟩ := h.look_queued hQueue
    exact ⟨_, d, later, hLook, by simp, rfl, hTransport ▸ hReading, hNext⟩
  | [], piece :: pieces =>
    obtain ⟨d, later', hLook, hLater, hTransport, hNext⟩ := h.look_piece hQueue hPieces
    exact ⟨_, d, later', hLook, by simp, hLater, hTransport ▸ hReading, hNext⟩
  | [], [] =>
    exact ⟨_, c, later, h.look_waiting hQueue hPieces hReading, by simp,
      by simp [hQueue, Arrival.message?], hReading, h⟩

/-- While the peer writes, nothing fails, and what was got and what is still to come are together
what was to come before. -/
theorem follow {happenings : List Happening} (h : Awaits c (bytesRead happenings ++ bytes) later)
    (hReading : c.transport.reading = true) :
    ∃ arrivals d later', Frame.follow c happenings = (arrivals, d) ∧ .failed ∉ arrivals ∧
      c.reader.queue ++ later =
        arrivals.filterMap Arrival.message? ++ (d.reader.queue ++ later') ∧
      Awaits d bytes later' := by
  induction happenings generalizing c later with
  | nil => exact ⟨[], c, later, rfl, by simp, rfl, h⟩
  | cons happening rest ih =>
    cases happening with
    | read chunk =>
      rw [bytesRead, List.flatMap_cons, List.append_assoc] at h
      obtain ⟨hNext, hReading⟩ := h.read hReading
      exact ih hNext hReading
    | look =>
      obtain ⟨arrival, d, later', hLook, hArrival, hQueue, hReading, hNext⟩ := h.look hReading
      obtain ⟨arrivals, e, later'', hFollow, hArrivals, hRest, hEnd⟩ := ih hNext hReading
      refine ⟨arrival :: arrivals, e, later'', ?_, ?_, ?_, hEnd⟩
      · simp [Frame.follow, hLook, hFollow]
      · simp [hArrivals, Ne.symm hArrival]
      · rw [hQueue, hRest, List.filterMap_cons]
        cases arrival <;> simp [Arrival.message?]

/-- With every byte read and every piece looked at, there is nothing left to queue. -/
theorem exhausted (h : Awaits c [] later) (hPieces : c.transport.pieces = []) :
    later = [] ∧ c.reader.buffer = [] ∧ c.transport.decoder = .empty := by
  obtain ⟨hSize, hText, hEnds, hTaken, -, -⟩ := h
  have hNothing : c.transport.decoder.feed [] = ([], c.transport.decoder) := rfl
  rw [hNothing, hPieces] at hText
  rw [hNothing] at hEnds
  match later with
  | [] => exact ⟨rfl, by simpa using hText, hEnds⟩
  | m :: later =>
    simp only [List.flatten_nil, List.append_nil, stream_cons] at hText
    rw [hText, front_encode_append (hSize m (by simp))] at hTaken
    exact absurd hTaken (by simp)

/-- The queue is emptied before anything else is looked at. -/
theorem drain_queue (h : Awaits c bytes later) :
    ∃ d, Receives c c.reader.queue d ∧ d.reader.queue = [] ∧ d.transport = c.transport ∧
      Awaits d bytes later := by
  generalize hQueue : c.reader.queue = queue
  induction queue generalizing c with
  | nil => exact ⟨c, .done c, hQueue, rfl, h⟩
  | cons m queue ih =>
    obtain ⟨d, hLook, hRest, hTransport, hNext⟩ := h.look_queued hQueue
    obtain ⟨e, hReceives, hEmpty, hSame, hEnd⟩ := ih hNext hRest
    exact ⟨e, .message hLook hReceives, hEmpty, hSame.trans hTransport, hEnd⟩

/-- After the end of the stream every message comes, and behind the last one the connection fails
with nothing left. -/
theorem drain (h : Awaits c [] later) (hReading : c.transport.reading = false) :
    ∃ d, Receives c (c.reader.queue ++ later) d ∧ d.reader = .empty ∧
      d.transport.decoder = .empty ∧ d.transport.pieces = [] ∧
      d.transport.receive.1 = .failed .disconnected ∧ d.receive.1 = .failed := by
  generalize hPieces : c.transport.pieces = pieces
  induction pieces generalizing c later with
  | nil =>
    obtain ⟨d, hQueue, hEmpty, hTransport, hNext⟩ := h.drain_queue
    rw [← hTransport] at hPieces hReading
    obtain ⟨rfl, hBuffer, hDecoder⟩ := hNext.exhausted hPieces
    have hReceive : d.transport.receive =
        (.failed .disconnected, { d.transport with connected := false }) := by
      simp [Stream.Transport.receive, hNext.connected, hNext.open_, hPieces, hReading]
    refine ⟨d, by simpa using hQueue, ?_, hDecoder, hPieces, by rw [hReceive], ?_⟩
    · calc d.reader = ⟨d.reader.buffer, d.reader.queue⟩ := rfl
        _ = .empty := by rw [hBuffer, hEmpty]; rfl
    · simp [Connection.receive, Reader.next?, hEmpty, hReceive]
  | cons piece pieces ih =>
    obtain ⟨d, hQueue, hEmpty, hTransport, hNext⟩ := h.drain_queue
    rw [← hTransport] at hPieces hReading
    obtain ⟨e, later', hLook, rfl, hPopped, hRest⟩ := hNext.look_piece hEmpty hPieces
    obtain ⟨f, hReceives, hEnd⟩ := ih hRest (by rw [hPopped]; exact hReading) (by rw [hPopped])
    exact ⟨f, hQueue.append (.text hLook hReceives), hEnd⟩

end Awaits

/-- Receiving undoes sending. The bytes of the frames of any messages within the bound, cut into any
reads with any looks between them, are received as exactly these messages in their order: some while
the peer writes, without a failure, and the others behind the end of the stream. Then the connection
fails, and neither the decoder nor the reader holds anything back. -/
theorem receives_messages {messages : List String} {happenings : List Happening}
    (hSize : ∀ m ∈ messages, m.utf8ByteSize ≤ maxSize)
    (hBytes : bytesRead happenings = Utf8.encode (stream messages)) :
    ∃ arrivals c later d,
      follow (.onTransport .fresh) happenings = (arrivals, c) ∧ .failed ∉ arrivals ∧
      Receives (c.onto (·.deliverEnd)) later d ∧
      messages = arrivals.filterMap Arrival.message? ++ later ∧
      d.receive.1 = .failed ∧ d.transport.receive.1 = .failed .disconnected ∧
      d.reader = .empty ∧ d.transport.pieces = [] ∧ d.transport.decoder.keptBack = [] := by
  have hFresh := Awaits.fresh hSize
  rw [← hBytes, ← List.append_nil (bytesRead happenings)] at hFresh
  obtain ⟨arrivals, c, later, hFollow, hArrivals, hMessages, hRest⟩ := hFresh.follow rfl
  have hEnd : Awaits (c.onto (·.deliverEnd)) [] later :=
    ⟨hRest.fits, hRest.text, hRest.ends, hRest.taken, hRest.connected, hRest.open_⟩
  obtain ⟨d, hReceives, hReader, hDecoder, hPieces, hFailed, hFails⟩ := hEnd.drain rfl
  exact ⟨arrivals, c, _, d, hFollow, hArrivals, hReceives, hMessages, hFails, hFailed, hReader,
    hPieces, by rw [hDecoder]; rfl⟩

/-- A frame cut inside its header, between carriage return and line feed, and inside a character. -/
def cutFrame : List Happening :=
  [.read (Utf8.encode "Content-Le".toList), .look, .read (Utf8.encode "ngth: 2\r".toList),
    .read (Utf8.encode "\n\r\n".toList ++ [0xc3]), .look, .look, .read [0xa9]]

theorem receives_messages_cutFrame :
    ∃ arrivals c later d,
      follow (.onTransport .fresh) cutFrame = (arrivals, c) ∧ .failed ∉ arrivals ∧
      Receives (c.onto (·.deliverEnd)) later d ∧
      ["é"] = arrivals.filterMap Arrival.message? ++ later ∧
      d.receive.1 = .failed ∧ d.transport.receive.1 = .failed .disconnected ∧
      d.reader = .empty ∧ d.transport.pieces = [] ∧ d.transport.decoder.keptBack = [] :=
  receives_messages (by decide) (by decide +kernel)

end EditorBridge.Frame
