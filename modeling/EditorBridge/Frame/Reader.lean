import EditorBridge.Frame.Header
/-!
Messages in frames. `encode` puts a message behind a header with its length in bytes; a `Reader`
takes the text of a stream in pieces of any size and gives back the messages. A fault leaves the
offending text where it is, so every later piece meets the same fault again.
-/
namespace EditorBridge.Frame

/-- The frame of a message. The length counts bytes, not characters. -/
def encode (message : String) : String :=
  "Content-Length: " ++ toString message.utf8ByteSize ++ "\r\n\r\n" ++ message

/-- The text before the first blank line and the text after it. `seen` is reversed. -/
def splitHeader (seen : List Char) : List Char → Option (List Char × List Char)
  | [] => none
  | '\r' :: '\n' :: '\r' :: '\n' :: rest => some (seen.reverse, rest)
  | c :: rest => splitHeader (c :: seen) rest

/-- What comes of cutting bytes off a text: too few of them, a place inside a character, or two
texts. -/
inductive Cut where
  | short
  | inside
  | exact (front rest : List Char)
deriving DecidableEq, Repr

/-- Cuts off `n` bytes. `seen` is reversed. -/
def cut (seen : List Char) : Nat → List Char → Cut
  | 0, s => .exact seen.reverse s
  | _ + 1, [] => .short
  | n + 1, c :: s => if c.utf8Size ≤ n + 1 then cut (c :: seen) (n + 1 - c.utf8Size) s else .inside

/-- What stands at the front of a text. -/
inductive Front where
  /-- Neither a whole frame nor a fault. -/
  | incomplete
  | fault (fault : Fault)
  | message (message rest : List Char)
deriving Repr

/-- Looks at the front of a text. A fault in the header is met before the message is there. -/
def front (text : List Char) : Front :=
  match splitHeader [] text with
  | none => .incomplete
  | some (header, rest) =>
    match contentLength header with
    | .error fault => .fault fault
    | .ok n =>
      match cut [] n rest with
      | .short => .incomplete
      | .inside => .fault .splitCharacter
      | .exact message rest => .message message rest

/-- Takes whole frames off the front of a text, at most as many as the fuel says. Answers the
messages, the text that is left and the fault at its front. -/
def frames : Nat → List Char → List (List Char) × List Char × Option Fault
  | 0, text => ([], text, none)
  | fuel + 1, text =>
    match front text with
    | .incomplete => ([], text, none)
    | .fault fault => ([], text, some fault)
    | .message message rest =>
      let (messages, left, fault) := frames fuel rest
      (message :: messages, left, fault)

/-- The receiving side of a connection: text that is not yet a message, and messages not yet
taken. -/
structure Reader where
  buffer : List Char
  queue : List String
deriving DecidableEq, Repr

namespace Reader

/-- A reader that has seen nothing. -/
def empty : Reader := ⟨[], []⟩

/-- Takes a piece of text. Every message that it completes is queued; the fault met behind them is
answered. A frame is longer than its message, so there are no more frames than characters. -/
def feed (r : Reader) (piece : List Char) : Reader × Option Fault :=
  let text := r.buffer ++ piece
  let (messages, left, fault) := frames (text.length + 1) text
  (⟨left, r.queue ++ messages.map String.ofList⟩, fault)

/-- Takes the oldest message that is queued. -/
def next? (r : Reader) : Option (String × Reader) :=
  match r.queue with
  | [] => none
  | m :: rest => some (m, ⟨r.buffer, rest⟩)

/-- What a receiver gets; `exhausted` when the pieces give out. -/
inductive Receipt where
  | message (message : String)
  | fault (fault : Fault)
  | exhausted
deriving DecidableEq, Repr

/-- Receives one message: the oldest in the queue, or else the first that further pieces complete.
A fault in a piece comes before the messages that the same piece completes, which stay queued.
Answers also the pieces that were not needed. -/
def receive (r : Reader) (pieces : List (List Char)) : Receipt × Reader × List (List Char) :=
  match r.next? with
  | some (m, r) => (.message m, r, pieces)
  | none =>
    match pieces with
    | [] => (.exhausted, r, [])
    | piece :: rest =>
      match r.feed piece with
      | (r, some fault) => (.fault fault, r, rest)
      | (r, none) => receive r rest

end Reader

/-- How a connection fails to give the next message: by the connection itself or by a frame. -/
inductive ReceiveFault (ε : Type) where
  | transport (cause : ε)
  | frame (fault : Fault)
deriving DecidableEq, Repr

def ReceiveFault.message {ε : Type} (transport : ε → String) : ReceiveFault ε → String
  | .transport cause => "Transport error: " ++ transport cause
  | .frame fault => fault.message

end EditorBridge.Frame
