import EditorBridge.Lsp.Client
import EditorBridge.Rehearsal.Server
import EditorBridge.Rpc.Timed
/-!
A language client and a server that follows a script, under a clock. The operations of the client
run here to their end, one after the other, while the connection and the server go on with theirs.
-/
namespace EditorBridge.Rehearsal

/-- A client, its server, and the deadlines of the calls that are open. Times are in nanoseconds. -/
structure Language where
  client : Lsp.Client
  server : Server
  script : Script
  now : Nat
  deadlines : List Rpc.Deadline

namespace Language

/-- A client and a server that have not spoken to each other. -/
def create (script : Script) : Language := ⟨.create .fresh, .fresh, script, 0, []⟩

def transport (w : Language) : Stream.Transport := w.client.rpc.connection.transport

def withTransport (w : Language) (t : Stream.Transport) : Language :=
  { w with client := w.client.onConnection (·.onto fun _ => t) }

/-- The client handles no requests of the server. -/
def answer (r : Rpc.Request) : Rpc.Response := .methodNotFound r.id r.method

/-- Ends the earliest call if its time is over. -/
def expire? (w : Language) : Option Language :=
  match Rpc.Deadline.earliest? w.deadlines with
  | none => none
  | some d =>
    if w.now < d.time then none
    else some { w with
      client := w.client.expire d.id, deadlines := w.deadlines.filter fun e => e.id != d.id }

/-- What happens at once: a step of the client's loop, writing what was sent, something that the
server does, or the end of a call whose time is over. -/
def react (w : Language) : Option Language :=
  match w.client.loopStep? answer with
  | some (client, _) => some { w with client }
  | none =>
    match w.transport.writeStep? with
    | some t => some (w.withTransport t)
    | none =>
      match w.server.react w.script w.now w.transport with
      | some (server, script, t) => some { w.withTransport t with server, script }
      | none => w.expire?

def timeline : Timeline Language Unit where
  now w := w.now
  moveTo time w := { w with now := time }
  react w := w.react.map (·, [])
  wake w := Timeline.sooner ((Rpc.Deadline.earliest? w.deadlines).map (·.time)) w.server.wake

def pass (w : Language) (span fuel : Nat) : Language := (timeline.pass span fuel w).1

/-- Waits for the end of a call that is given up after the given time; without any time it is given
up before the connection does anything. -/
def finish (w : Language) (id : Nat) (limit : Duration) (fuel : Nat) : Language × Rpc.Outcome :=
  let isOver (w : Language) : Bool := w.client.ended.any (·.id == id)
  let w :=
    if limit.nanos = 0 then { w with client := w.client.expire id }
    else
      let time := w.now + limit.nanos
      (timeline.await isOver time fuel { w with deadlines := w.deadlines ++ [⟨id, time⟩] }).1
  let w := { w with deadlines := w.deadlines.filter (·.id != id) }
  match w.client.takeEnd? id with
  | some (client, outcome) => ({ w with client }, outcome)
  | none => (w, .timedOut)

/-- Makes the client initialized, or fails to. -/
def handshake (w : Language) (params : Json) (limit : Duration) (fuel : Nat) :
    Language × Except Lsp.Error Lsp.Handshake :=
  match w.client.askHandshake params with
  | (client, .error e) => ({ w with client }, .error e)
  | (client, .ok id) =>
    let (w, outcome) := { w with client }.finish id limit fuel
    let (client, result) := w.client.finishHandshake outcome
    ({ w with client }, result)

/-- Shuts the server down, if there is need for it. -/
def shutdown (w : Language) (limit : Duration) (fuel : Nat) : Language × Except Lsp.Error Unit :=
  match w.client.askShutdown with
  | (client, .error e) => ({ w with client }, .error e)
  | (client, .ok none) => ({ w with client }, .ok ())
  | (client, .ok (some id)) =>
    let (w, outcome) := { w with client }.finish id limit fuel
    let (client, result) := w.client.finishShutdown outcome
    ({ w with client }, result)

/-- Shuts the server down and writes the rest. -/
def close (w : Language) (limit : Duration) (fuel : Nat) : Language × Except Lsp.Error Unit :=
  let (w, result) := w.shutdown limit fuel
  let w := { w with client := w.client.dropSender }
  let isOver (w : Language) : Bool := w.client.rpc.phase == .ended
  let (w, _) := timeline.await isOver (w.now + Lsp.Client.flushLimit.nanos) fuel w
  if isOver w then (w, result) else ({ w with client := w.client.abort }, result)

def tell (w : Language) (f : Lsp.Client → Lsp.Client × Except Lsp.Error Unit) :
    Language × Except Lsp.Error Unit :=
  let (client, result) := f w.client
  ({ w with client }, result)

def push (w : Language) (text : String) : Language × Bool :=
  let (t, ok) := w.server.peer.say w.transport text
  (w.withTransport t, ok)

def closeServer (w : Language) : Language × Bool :=
  let (peer, t) := w.server.peer.close w.transport
  ({ w.withTransport t with server := { w.server with peer } }, !w.server.peer.closed)

end Language
end EditorBridge.Rehearsal
