import EditorBridge.Frame.Connection
import EditorBridge.Rpc.Message
/-!
A client of JSON-RPC over one connection. Callers put messages into a queue; a loop writes them in
order, matches answers to calls by their number, hands notifications on and answers the requests of
the server. Each function here is one step that nothing interrupts; a run is any sequence of them.
-/
namespace EditorBridge.Rpc

/-- Why a message is not taken. -/
inductive Refusal where
  | clientClosed
  | loopEnded
deriving DecidableEq, Repr

inductive CallError where
  | server (error : ErrorObject)
  | transport (refusal : Refusal)
  | deserialization (misfit : Misfit)
  | timeout (method : String)
  | cancelled
deriving Repr

def Refusal.reason : Refusal → String
  | .clientClosed => "Client closed"
  | .loopEnded => "Outbound channel closed"

def CallError.message : CallError → String
  | .server e => "JSON-RPC server error (" ++ toString e.code ++ "): " ++ e.message
  | .transport refusal => "Transport error: " ++ refusal.reason
  | .deserialization misfit => "Deserialization error: " ++ misfit.message
  | .timeout method => "Request timeout: " ++ method
  | .cancelled => "Request was cancelled"

/-- How a call comes to its end as the loop sees it, before its result is read. -/
inductive Outcome where
  | answered (response : Response)
  | timedOut
  | cancelled
deriving Repr

/-- Reads the result of a call as its caller wants it. -/
def readResult {α : Type} (read : Document → Decoded α) (value : Json) : Except CallError α :=
  match read (Document.ofJson value) with
  | .ok a => .ok a
  | .error (.misfit misfit) => .error (.deserialization misfit)
  | .error (.text _) => .error (.deserialization (.invalidText ""))

/-- What a caller gets. An error in the answer outweighs a result, and a missing result is null. -/
def Outcome.result {α : Type} (method : String) (read : Document → Decoded α) :
    Outcome → Except CallError α
  | .timedOut => .error (.timeout method)
  | .cancelled => .error .cancelled
  | .answered response =>
    match response.error with
    | some e => .error (.server e)
    | none => readResult read (response.result.getD .null)

/-- A client: its calls, its queue, and how far its loop has come. -/
structure Client where
  nextId : Nat
  /-- The numbers of the calls that were sent and have not ended. -/
  pending : List Nat
  /-- The messages that were taken and are not yet written. -/
  accepted : List String
  isOpen : Bool
  phase : Frame.LoopPhase
  connection : Frame.Connection

/-- What a step shows to those outside. -/
inductive Effect where
  | finished (id : Nat) (outcome : Outcome)
  | notified (notification : Notification)
deriving Repr

namespace Client

/-- A client that has sent nothing and whose loop runs. The first call has the number 1. -/
def create (transport : Stream.Transport) : Client :=
  ⟨1, [], [], true, .running, .onTransport transport⟩

/-- Messages are taken as long as the client is open and its loop holds the other end of the queue.
-/
def refusal? (c : Client) : Option Refusal :=
  if !c.isOpen then some .clientClosed else if c.phase = .ended then some .loopEnded else none

/-- Puts a message at the end of the queue. -/
def enqueue (c : Client) (text : String) : Except Refusal Client :=
  match c.refusal? with
  | some refusal => .error refusal
  | none => .ok { c with accepted := c.accepted ++ [text] }

/-- Parameters that are null are left out. -/
def parameters (params : Option Json) : Option Json := params.bind Json.nonNull?

/-- Sends a call. Its number is used up even when it is refused. -/
def call (c : Client) (method : String) (params : Option Json) : Client × Except CallError Nat :=
  let id := c.nextId
  let request : Request := ⟨version, .nat id, method, parameters params⟩
  let c := { c with nextId := id + 1 }
  match c.enqueue (Json.recordText request.toMembers) with
  | .error refusal => (c, .error (.transport refusal))
  | .ok c => ({ c with pending := c.pending ++ [id] }, .ok id)

/-- Sends a notification, which no answer follows. -/
def notify (c : Client) (method : String) (params : Option Json) : Client × Except CallError Unit :=
  let notification : Notification := ⟨version, method, parameters params⟩
  match c.enqueue (Json.recordText notification.toMembers) with
  | .error refusal => (c, .error (.transport refusal))
  | .ok c => (c, .ok ())

/-- The time of a call is over. If it is still open, it ends, and a later answer finds it no more.
-/
def expire (c : Client) (id : Nat) : Client × List Effect :=
  if c.pending.contains id then
    ({ c with pending := c.pending.erase id }, [.finished id .timedOut])
  else (c, [])

/-- No further messages of callers are taken; those taken before are still written. -/
def dropSender (c : Client) : Client := { c with isOpen := false }

/-- Every open call is told that no answer will come. -/
def cancelAll (c : Client) : List Effect := c.pending.map fun id => .finished id .cancelled

/-- The loop leaves the connection and closes it; the calls are still open. -/
def leave (c : Client) : Client := { c with phase := .closing, connection := c.connection.close }

/-- The loop gives up the calls that are still open. -/
def giveUp (c : Client) : Client × List Effect := ({ c with pending := [] }, c.cancelAll)

/-- The loop lets go of its end of the queue: from now on no message is taken, and those that were
taken and not written are lost. -/
def letGo (c : Client) : Client := { c with phase := .ended, accepted := [] }

/-- The loop is stopped from outside, and with it everything that is not yet on its way. -/
def abort (c : Client) : Client × List Effect :=
  ({ c with
      isOpen := false, phase := .ended, connection := c.connection.close, accepted := [],
      pending := [] }, c.cancelAll)

/-- Would a message be taken now? -/
def isConnected (c : Client) : Bool := c.refusal?.isNone

/-- What an inbound text does: the effects, and the reply to write. -/
def dispatch (answer : Request → Response) (c : Client) (text : String) :
    Client × List Effect × Option String :=
  match Inbound.parse text with
  | .error _ => (c, [], none)
  | .ok (.notification n) => (c, [.notified n], none)
  | .ok (.request r) => (c, [], some (answer r).text)
  | .ok (.response r) =>
    match r.id.nat? with
    | none => (c, [], none)
    | some id =>
      if c.pending.contains id then
        ({ c with pending := c.pending.erase id }, [.finished id (.answered r)], none)
      else (c, [], none)

/-- Writes a message in its frame; the loop leaves a connection that does not take it. -/
def write (c : Client) (text : String) : Client :=
  match c.connection.send text with
  | .ok connection => { c with connection }
  | .error _ => c.leave

/-- Takes an inbound text, and writes the reply if there is one. -/
def handle (answer : Request → Response) (c : Client) (text : String) : Client × List Effect :=
  match c.dispatch answer text with
  | (c, effects, none) => (c, effects)
  | (c, effects, some reply) => (c.write reply, effects)

/-- Takes what the connection has to give; none while it waits for more. -/
def receiveStep? (answer : Request → Response) (c : Client) : Option (Client × List Effect) :=
  match c.connection.receive with
  | (.message m, connection) => some ({ c with connection }.handle answer m)
  | (.text, connection) => some ({ c with connection }, [])
  | (.waiting, _) => none
  | (.failed, connection) => some ({ c with connection }.leave, [])

/-- One step of the loop; none when it has nothing to do. Messages of callers come first, and once
the last caller has gone and all is written the loop ends without looking at what has arrived. At
its end it gives up the calls and lets go of the queue, here with nothing in between. -/
def loopStep? (answer : Request → Response) (c : Client) : Option (Client × List Effect) :=
  match c.phase with
  | .ended => none
  | .closing => some (c.giveUp.1.letGo, c.giveUp.2)
  | .running =>
    match c.accepted with
    | m :: rest => some (({ c with accepted := rest }.write m), [])
    | [] => if c.isOpen then c.receiveStep? answer else some (c.leave, [])

end Client
end EditorBridge.Rpc
