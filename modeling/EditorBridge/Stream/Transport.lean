import EditorBridge.Text.Utf8
/-!
A text connection over a pair of byte streams. What the peer writes is decoded as it arrives and
waits as pieces of text; what is sent waits until it is written to the peer. Closing gives up what
has not been received, but what was sent before is still written.
-/
namespace EditorBridge.Stream

/-- Why a transport does not do what it is asked to. -/
inductive Fault where
  | disconnected
  | channel
deriving DecidableEq, Repr

def Fault.message : Fault → String
  | .disconnected => "Transport is disconnected"
  | .channel => "Channel error: channel closed"

/-- A connection as its owner sees it, with what is under way in both directions. -/
structure Transport where
  /-- The bytes that wait for the rest of their sequence. -/
  decoder : Utf8.Decoder
  /-- The pieces of text that have arrived and were not received. -/
  pieces : List (List Char)
  /-- Are bytes of the peer still read? -/
  reading : Bool
  /-- Does the owner hold the connection for connected? -/
  connected : Bool
  /-- Has the owner given up both directions? -/
  closed : Bool
  /-- What was sent and is not yet written to the peer. -/
  outbox : List String
  /-- Is what was sent still written to the peer? -/
  writing : Bool
  /-- What was written to the peer and the peer has not read. -/
  wire : List String
deriving Repr

namespace Transport

/-- A connection on which nothing has happened. -/
def fresh : Transport := ⟨.empty, [], true, true, false, [], true, []⟩

/-- How many bytes are read at a time. -/
def readSize : Nat := 4096

/-- Takes one read's worth of bytes from the peer. Text for an owner who has gone ends the
reading. -/
def deliver (t : Transport) (bytes : List UInt8) : Transport :=
  if t.reading then
    let (text, decoder) := t.decoder.feed bytes
    if text = [] then { t with decoder }
    else if t.closed then { t with decoder, reading := false }
    else { t with decoder, pieces := t.pieces ++ [text] }
  else t

/-- Parts bytes into reads of the given size; the fuel is the number of bytes at least. -/
def reads (size : Nat) : Nat → List UInt8 → List (List UInt8)
  | 0, _ => []
  | _ + 1, [] => []
  | fuel + 1, b :: rest => ((b :: rest).take size) :: reads size fuel ((b :: rest).drop size)

/-- The peer has written some bytes, which are read in pieces. -/
def deliverAll (t : Transport) (bytes : List UInt8) : Transport :=
  (reads readSize bytes.length bytes).foldl deliver t

/-- The peer has written its last byte. What waits for the rest of its sequence is lost. -/
def deliverEnd (t : Transport) : Transport := { t with reading := false }

/-- What a transport has to give. -/
inductive Received where
  | piece (text : List Char)
  | failed (fault : Fault)
  | waiting
deriving Repr

/-- Takes the oldest piece. What arrived before the end of the stream comes before the end. -/
def receive (t : Transport) : Received × Transport :=
  if !t.connected || t.closed then (.failed .disconnected, t)
  else
    match t.pieces with
    | p :: rest => (.piece p, { t with pieces := rest })
    | [] =>
      if t.reading then (.waiting, t) else (.failed .disconnected, { t with connected := false })

/-- Takes a text that is to be written; when writing has failed nothing more is taken. -/
def send (t : Transport) (text : String) : Except Fault Transport :=
  if !t.connected || t.closed then .error .disconnected
  else if t.writing then .ok { t with outbox := t.outbox ++ [text] }
  else .error .channel

/-- The owner goes, and with him the pieces that he has not taken. -/
def close (t : Transport) : Transport := { t with connected := false, closed := true, pieces := [] }

/-- Writes one text to the peer; once the owner has gone and all is written, ends the writing. -/
def writeStep? (t : Transport) : Option Transport :=
  if t.writing then
    match t.outbox with
    | m :: rest => some { t with outbox := rest, wire := t.wire ++ [m] }
    | [] => if t.closed then some { t with writing := false } else none
  else none

def writeAll (t : Transport) : Transport :=
  if t.writing then
    { t with outbox := [], wire := t.wire ++ t.outbox, writing := !t.closed }
  else t

/-- Writing has failed because the peer is gone; what was sent is lost. -/
def failWriting (t : Transport) : Transport := { t with outbox := [], wire := [], writing := false }

def takeWire (t : Transport) : List String × Transport := (t.wire, { t with wire := [] })

end Transport
end EditorBridge.Stream
