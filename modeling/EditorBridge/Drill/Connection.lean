import EditorBridge.Drill.Record
import EditorBridge.Drill.Step
import EditorBridge.Json.Printer
import EditorBridge.Rehearsal.Peer
/-!
Drills of connections: frames over given pieces of text, and a transport with a peer.
-/
namespace EditorBridge.Drill

structure FramingRun where
  reader : Frame.Reader
  chunks : List (List Char)
  sent : List String
  isOpen : Bool

def frameFaultKind : Frame.Fault → String
  | .missingLength => "InvalidFormat"
  | .splitCharacter => "InvalidFormat"
  | .invalidLength _ => "InvalidContentLength"
  | .tooLarge _ => "MessageTooLarge"

def frameFault (f : Frame.Fault) : Json := errorAnswer (frameFaultKind f) f.message

def transportFault (reason : String) : Json :=
  errorAnswer "Transport" ((Frame.ReceiveFault.transport reason).message id)

def disconnected : Json := transportFault Stream.Fault.disconnected.message

def framingStep (s : FramingRun) (step : List Json) : FramingRun × Json :=
  match stepName step with
  | "receive" =>
    match s.reader.receive (if s.isOpen then s.chunks else []) with
    | (.message m, reader, rest) =>
      ({ s with reader, chunks := if s.isOpen then rest else s.chunks }, str m)
    | (.fault f, reader, rest) => ({ s with reader, chunks := rest }, frameFault f)
    | (.exhausted, reader, rest) =>
      if s.isOpen then
        ({ s with reader, chunks := rest }, transportFault "No more responses available")
      else ({ s with reader }, disconnected)
  | "send" =>
    if s.isOpen then ({ s with sent := s.sent ++ [Frame.encode (strOf (arg step 1))] }, .null)
    else (s, disconnected)
  | "close" => ({ s with isOpen := false }, .null)
  | "connected" => (s, .array [.bool s.isOpen, .bool s.isOpen])
  | _ => (s, .null)

def framing (i : Json) : Json :=
  let chunks := (strings (i.get "chunks")).map String.toList
  let (s, out) := runSteps framingStep ⟨.empty, chunks, [], true⟩ (stepsOf i)
  obj [("steps", .array out), ("sent", .array (s.sent.map str)), ("unread", .nat s.chunks.length)]

/-- A transport and its peer. Between two steps nothing else runs, unless the step has to wait: what
the peer has written stays in a pipe until then. -/
structure StreamRun where
  transport : Stream.Transport
  peer : Rehearsal.Peer
  unread : List UInt8

def pipeSize : Nat := 65536

def StreamRun.settle (s : StreamRun) : StreamRun :=
  { s with transport := (s.transport.deliverAll s.unread).writeAll, unread := [] }

/-- The peer writes into the pipe; answers whether that worked. The pipe takes what it can hold, and
for the rest the transport has to read. -/
def StreamRun.write (s : StreamRun) (bytes : List UInt8) : StreamRun × Bool :=
  if s.peer.closed then (s, false)
  else if bytes.isEmpty then (s, true)
  else if !s.transport.reading then (s, false)
  else
    let written := s.unread ++ bytes
    if written.length ≤ pipeSize then ({ s with unread := written }, true)
    else
      let kept := (written.length - 1) % pipeSize + 1
      let read := written.length - kept
      let s := { s with unread := written.take read }.settle
      if s.transport.reading then ({ s with unread := written.drop read }, true) else (s, false)

/-- Receives everything available; there are at most as many pieces as the fuel says. -/
def drainAll : Nat → Stream.Transport → List Char →
    Stream.Transport × List Char × Option Stream.Fault
  | 0, t, acc => (t, acc.reverse, none)
  | fuel + 1, t, acc =>
    match t.receive with
    | (.piece p, t) => drainAll fuel t (p.reverseAux acc)
    | (.waiting, t) => (t, acc.reverse, none)
    | (.failed f, t) => (t, acc.reverse, some f)

def streamFaultKind : Stream.Fault → String
  | .disconnected => "Disconnected"
  | .channel => "Channel"

def streamFault (f : Stream.Fault) : Json := errorAnswer (streamFaultKind f) f.message

def streamStep (s : StreamRun) (step : List Json) : StreamRun × Json :=
  let (s, r) : StreamRun × Json := match stepName step with
    | "write" =>
      let once := bytesOf (arg step 1)
      let n := (arg step 2).nat?.getD 1
      let (s, ok) := s.write (List.replicate n once).flatten
      (s, .bool ok)
    | "eof" => ({ s with peer := { s.peer with closed := true } }, .bool !s.peer.closed)
    | "drain" =>
      let s := if s.transport.connected then s.settle else s
      let t := if s.peer.closed then s.transport.deliverEnd else s.transport
      let (t, text, fault) := drainAll (t.pieces.length + 1) t []
      let ending := orNull (fault.map streamFault)
      let r := if strOf (arg step 1) = "count" then
          obj [("chars", .nat text.length),
            ("replaced", .nat (text.countP (· == Utf8.replacement))), ("end", ending)]
        else obj [("text", str (String.ofList text)), ("end", ending)]
      ({ s with transport := t }, r)
    | "send" =>
      match s.transport.send (strOf (arg step 1)) with
      | .ok t => ({ s with transport := t }, .null)
      | .error f => (s, streamFault f)
    | "close" => ({ s with transport := s.transport.close }, .null)
    | "peer_read" =>
      let s := s.settle
      let (texts, t) := s.transport.takeWire
      let text := String.join texts
      let r := if text.isEmpty && t.writing then .null else str text
      ({ s with transport := t }, r)
    | _ => (s, .null)
  (s, obj [("r", r), ("connected", .bool s.transport.connected)])

def stream (i : Json) : Json := .array (runSteps streamStep ⟨.fresh, .fresh, []⟩ (stepsOf i)).2

def peerBytes? (step : List Json) : Option (List UInt8) :=
  match stepName step with
  | "peer" => some (Rehearsal.Peer.framed (arg step 1).text)
  | "peer_text" => some (Rehearsal.Peer.framed (strOf (arg step 1)))
  | "peer_raw" => some (bytesOf (arg step 1))
  | _ => none

end EditorBridge.Drill
