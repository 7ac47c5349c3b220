import EditorBridge.Frame.Reader
import EditorBridge.Stream.Transport
/-!
A connection that carries messages in frames: a transport, and the reader that finds the messages
in its text. Of what arrives, a message that is complete comes before any further text is looked at.
-/
namespace EditorBridge.Frame

/-- How far the loop of a client has come that reads a connection and writes to it. -/
inductive LoopPhase where
  | running
  /-- It has left the connection and will give up the calls that are still open. -/
  | closing
  | ended
deriving DecidableEq, Repr

/-- The two sides of a connection that carries messages. -/
structure Connection where
  reader : Reader
  transport : Stream.Transport

/-- What a connection has to give. -/
inductive Arrival where
  | message (text : String)
  /-- Some text, which completes no message that was looked for. -/
  | text
  | waiting
  | failed
deriving DecidableEq, Repr

namespace Connection

/-- A connection on which no message was sent or received. -/
def onTransport (transport : Stream.Transport) : Connection := ⟨.empty, transport⟩

/-- Sends a message in its frame. -/
def send (c : Connection) (message : String) : Except Stream.Fault Connection :=
  match c.transport.send (encode message) with
  | .ok transport => .ok { c with transport }
  | .error fault => .error fault

/-- Takes the next message, or else the next piece of text. -/
def receive (c : Connection) : Arrival × Connection :=
  match c.reader.next? with
  | some (m, reader) => (.message m, { c with reader })
  | none =>
    match c.transport.receive with
    | (.waiting, _) => (.waiting, c)
    | (.failed _, transport) => (.failed, { c with transport })
    | (.piece text, transport) =>
      match c.reader.feed text with
      | (reader, some _) => (.failed, ⟨reader, transport⟩)
      | (reader, none) => (.text, ⟨reader, transport⟩)

/-- Nothing more is sent or received; what was sent before is still written. -/
def close (c : Connection) : Connection := { c with transport := c.transport.close }

/-- Writes one of the frames that were sent. -/
def writeStep? (c : Connection) : Option Connection :=
  c.transport.writeStep?.map fun transport => { c with transport }

def onto (c : Connection) (f : Stream.Transport → Stream.Transport) : Connection :=
  { c with transport := f c.transport }

end Connection
end EditorBridge.Frame
