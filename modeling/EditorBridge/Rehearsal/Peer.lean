import EditorBridge.Frame.Reader
import EditorBridge.Json.Parser
import EditorBridge.Stream.Transport
/-!
The other end of a connection, for rehearsing a client without a real server: it writes bytes and
frames, and reads the messages that the client has written and then the end of the stream.
-/
namespace EditorBridge.Rehearsal

/-- The other end, with what it has read and not yet shown. -/
structure Peer where
  inbox : Frame.Reader
  sawEnd : Bool
  closed : Bool

namespace Peer

def fresh : Peer := ⟨.empty, false, false⟩

/-- Writes bytes, and tells whether they were taken. -/
def write (p : Peer) (t : Stream.Transport) (bytes : List UInt8) : Stream.Transport × Bool :=
  if p.closed then (t, false)
  else if bytes.isEmpty then (t, true)
  else if t.reading then (t.deliverAll bytes, true)
  else (t, false)

def framed (text : String) : List UInt8 := Utf8.encode (Frame.encode text).toList

def say (p : Peer) (t : Stream.Transport) (text : String) : Stream.Transport × Bool :=
  p.write t (framed text)

def close (p : Peer) (t : Stream.Transport) : Peer × Stream.Transport :=
  ({ p with closed := true }, t.deliverEnd)

/-- The value of a message; what is no JSON stands for itself. -/
def valueOf (message : String) : Json :=
  match Json.parse message with
  | .ok value => value
  | .error _ => .string message

def collect (p : Peer) (t : Stream.Transport) : Peer × Stream.Transport :=
  let (texts, t) := t.takeWire
  ({ p with inbox := (p.inbox.feed (String.join texts).toList).1 }, t)

def endMark : Json := .string "<eof>"

/-- Reads the next message or, once, the end of the stream; none when there is nothing to read. -/
def next? (p : Peer) (t : Stream.Transport) : Option (Peer × Json) :=
  match p.inbox.next? with
  | some (m, inbox) => some ({ p with inbox }, valueOf m)
  | none => if t.writing || p.sawEnd then none else some ({ p with sawEnd := true }, endMark)

def readAll (p : Peer) (t : Stream.Transport) : Peer × Stream.Transport × List Json :=
  let (p, t) := p.collect t
  let ending := !t.writing && !p.sawEnd
  ({ p with inbox := ⟨p.inbox.buffer, []⟩, sawEnd := p.sawEnd || ending }, t,
    p.inbox.queue.map valueOf ++ if ending then [endMark] else [])

end Peer
end EditorBridge.Rehearsal
