import EditorBridge.Adapter.Message
import EditorBridge.Duration
import EditorBridge.Frame.Connection
/-!
A client of the debug adapter protocol over one connection. Requests and the replies to requests of
the adapter are numbered in one sequence. A caller that has sent a request may wait for its answer
later: an answer that arrives before is kept for it. Events are kept in a queue of bounded size.
Each function here is one step that nothing interrupts; a run is any sequence of them.
-/
namespace EditorBridge.Adapter

inductive CallError where
  | rejected (command message : String)
  | transport
  | timeout (command : String) (limit : Duration)
  | closed
deriving Repr

def CallError.message : CallError → String
  | .rejected command message => "Debug adapter rejected '" ++ command ++ "': " ++ message
  | .transport => "Transport error: Outbound channel closed"
  | .timeout command limit =>
    "Debug adapter did not answer '" ++ command ++ "' within " ++ limit.text
  | .closed => "Debug adapter connection closed"

/-- How many events are kept; when so many wait, newer ones are dropped. -/
def eventCapacity : Nat := 256

/-- How long a loop may take to write the rest when the client is closed. -/
def closeLimit : Duration := .ofSecs 2

/-- An answer that has arrived for a request whose caller has not taken it. -/
structure Answer where
  seq : Nat
  response : Response
deriving Repr

/-- A client: its requests, its queue, its events, and how far its loop has come. -/
structure Client where
  nextSeq : Nat
  /-- The numbers of the requests that were sent and for which the loop awaits an answer. -/
  pending : List Nat
  answers : List Answer
  accepted : List Request
  isOpen : Bool
  phase : Frame.LoopPhase
  events : List Event
  connection : Frame.Connection

namespace Client

/-- A client that has sent nothing and whose loop runs. The first request has the number 1. -/
def create (transport : Stream.Transport) : Client :=
  ⟨1, [], [], [], true, .running, [], .onTransport transport⟩

/-- Would a request be taken now? -/
def takesRequests (c : Client) : Bool := c.isOpen && c.phase != .ended

/-- Sends a request without waiting for its answer. Its number is used up even when it is
refused. -/
def send (c : Client) (command : String) (arguments : Option Json) :
    Client × Except CallError Nat :=
  let seq := c.nextSeq
  let c := { c with nextSeq := seq + 1 }
  if c.takesRequests then
    ({ c with
        accepted := c.accepted ++ [⟨seq, command, arguments⟩], pending := c.pending ++ [seq] },
      .ok seq)
  else (c, .error .transport)

/-- What the first request tells the adapter about its client. -/
def handshakeArguments (clientName adapterName : String) : Json :=
  Json.ofMembers [("clientID", .string clientName), ("clientName", .string clientName),
    ("adapterID", .string adapterName), ("pathFormat", .string "path"),
    ("linesStartAt1", .bool true), ("columnsStartAt1", .bool true),
    ("supportsRunInTerminalRequest", .bool false)]

/-- The first request of a conversation. -/
def handshakeCommand : String := "initialize"

/-- An answer as its caller sees it: one without success is an error. -/
def judge (r : Response) : Except CallError Response :=
  if r.success then .ok r else .error (.rejected r.command (r.message.getD ""))

/-- Looks for the answer to a request and takes it; none while the loop still awaits it. -/
def poll? (c : Client) (seq : Nat) : Option (Client × Except CallError Response) :=
  match c.answers.find? (·.seq == seq) with
  | some a => some ({ c with answers := c.answers.filter (·.seq != seq) }, judge a.response)
  | none => if c.pending.contains seq then none else some (c, .error .closed)

/-- A caller stops waiting; an answer that comes later is dropped. -/
def giveUp (c : Client) (seq : Nat) : Client := { c with pending := c.pending.erase seq }

/-- Takes the oldest event that is kept. -/
def takeEvent? (c : Client) : Option (Client × Event) :=
  match c.events with
  | [] => none
  | e :: rest => some ({ c with events := rest }, e)

/-- Nothing is kept, and nothing will come. -/
def eventsOver (c : Client) : Bool := c.events.isEmpty && c.phase == .ended

/-- No further requests are taken; those taken before are still written. -/
def dropSender (c : Client) : Client := { c with isOpen := false }

/-- The loop leaves the connection and closes it; the requests are still open. -/
def leave (c : Client) : Client := { c with phase := .closing, connection := c.connection.close }

/-- Whoever waits for an answer is told that none will come. -/
def forget (c : Client) : Client := { c with pending := [] }

/-- The loop ends, and with it its end of the queue: no request is taken any more. -/
def letGo (c : Client) : Client := { c with phase := .ended, accepted := [] }

/-- The loop is stopped from outside, and with it everything that is not yet on its way. Nobody is
told: who waits for an answer goes on waiting until the time for it is over. -/
def abort (c : Client) : Client :=
  { c with isOpen := false, phase := .ended, connection := c.connection.close, accepted := [] }

/-- Hands an answer to the request that awaits it; an answer to no such request is dropped. -/
def resolve (c : Client) (r : Response) : Client :=
  match r.requestSeq.toNat? with
  | none => c
  | some seq =>
    if c.pending.contains seq then
      { c with pending := c.pending.erase seq, answers := c.answers ++ [⟨seq, r⟩] }
    else c

/-- Keeps an event, unless the queue is full. -/
def queueEvent (c : Client) (e : Event) : Client :=
  if c.events.length < eventCapacity then { c with events := c.events ++ [e] } else c

/-- A client supports no requests of its adapter, and says so. -/
def refusal (seq : Nat) (r : Request) : Response :=
  ⟨seq, r.seq, false, r.command, some ("'" ++ r.command ++ "' is not supported"), none⟩

/-- Replies to a request of the adapter. A reply that cannot be sent is lost. -/
def refuse (c : Client) (r : Request) : Client :=
  let reply := refusal c.nextSeq r
  let c := { c with nextSeq := c.nextSeq + 1 }
  match c.connection.send (Message.response reply).text with
  | .ok connection => { c with connection }
  | .error _ => c

/-- What an inbound text does; one that is no message is dropped. -/
def handle (c : Client) (text : String) : Client :=
  match Message.parse text with
  | .error _ => c
  | .ok (.response r) => c.resolve r
  | .ok (.event e) => c.queueEvent e
  | .ok (.request r) => c.refuse r

/-- Writes a request in its frame; the loop leaves a connection that does not take it. -/
def write (c : Client) (r : Request) : Client :=
  match c.connection.send (Message.request r).text with
  | .ok connection => { c with connection }
  | .error _ => c.leave

/-- Takes what the connection has to give; none while it waits for more. -/
def receiveStep? (c : Client) : Option Client :=
  match c.connection.receive with
  | (.message m, connection) => some ({ c with connection }.handle m)
  | (.text, connection) => some { c with connection }
  | (.waiting, _) => none
  | (.failed, connection) => some { c with connection }.leave

/-- One step of the loop; none when it has nothing to do. Requests of callers come first, and once
the last caller has gone and all is written the loop ends without looking at what has arrived. -/
def loopStep? (c : Client) : Option Client :=
  match c.phase with
  | .ended => none
  | .closing => some c.forget.letGo
  | .running =>
    match c.accepted with
    | r :: rest => some ({ c with accepted := rest }.write r)
    | [] => if c.isOpen then c.receiveStep? else some c.leave

end Client
end EditorBridge.Adapter
