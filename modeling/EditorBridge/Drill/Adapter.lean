import EditorBridge.Adapter.Timed
import EditorBridge.Drill.Connection
/-!
Drills of a client of a debug adapter: requests in the foreground and the background, and events.
-/
namespace EditorBridge.Drill

/-- A request by its label; a foreground request is waited for by a step of its own. -/
structure OpenRequest where
  seq : Nat
  label : Nat
  command : String
  background : Bool
  bodyOnly : Bool

structure AdapterRun where
  timed : Adapter.Timed
  peer : Rehearsal.Peer
  requests : List OpenRequest
  labels : Nat
  limit : Duration

def adapterErrorKind : Adapter.CallError → String
  | .rejected .. => "Rejected"
  | .transport => "Transport"
  | .timeout .. => "Timeout"
  | .closed => "Closed"

def adapterError (e : Adapter.CallError) : Json := errorAnswer (adapterErrorKind e) e.message

def adapterResult (bodyOnly : Bool) : Except Adapter.CallError Adapter.Response → Json
  | .ok r => if bodyOnly then orNull r.body else obj r.toMembers
  | .error e => adapterError e

def AdapterRun.send (s : AdapterRun) (command : String) (arguments : Option Json)
    (background bodyOnly : Bool) : AdapterRun × Json × List (Nat × Json) :=
  let label := s.labels + 1
  let s := { s with labels := label }
  let (timed, result) :=
    if background then s.timed.request command arguments s.limit
    else
      let (client, result) := s.timed.client.send command arguments
      ({ s.timed with client }, result)
  let s := { s with timed }
  match result with
  | .ok seq =>
    ({ s with requests := s.requests ++ [⟨seq, label, command, background, bodyOnly⟩] },
      .nat label, [])
  | .error e =>
    if background then (s, .nat label, [(label, adapterError e)])
    else ({ s with labels := label - 1 }, adapterError e, [])

def AdapterRun.done (s : AdapterRun) (finished : List Adapter.Finished) : List (Nat × Json) :=
  finished.filterMap fun f =>
    (s.requests.find? fun r => r.background && r.seq == f.seq).map fun r =>
      (r.label, adapterResult r.bodyOnly f.result)

def outputEvent (n : Nat) : List UInt8 :=
  Rehearsal.Peer.framed (Adapter.Message.event ⟨n, "output", none⟩).text

def adapterAct (s : AdapterRun) (step : List Json) : AdapterRun × Json × List (Nat × Json) :=
  let waited (s : AdapterRun) (finished : List Adapter.Finished) (r : Json) :=
    (s, r, s.done finished)
  match peerBytes? step with
  | some bytes =>
    let (t, ok) := s.peer.write s.timed.client.connection.transport bytes
    ({ s with timed := s.timed.onTransport fun _ => t }, .bool ok, [])
  | none =>
    match stepName step with
    | "peer_close" =>
      let (peer, t) := s.peer.close s.timed.client.connection.transport
      ({ s with timed := s.timed.onTransport fun _ => t, peer }, .bool !s.peer.closed, [])
    | "peer_events" =>
      let bytes := ((List.range (natOf (arg step 1))).map outputEvent).flatten
      let (t, _) := s.peer.write s.timed.client.connection.transport bytes
      ({ s with timed := s.timed.onTransport fun _ => t }, .null, [])
    | "send" => s.send (strOf (arg step 1)) (optArg step 2) false false
    | "request" => s.send (strOf (arg step 1)) (optArg step 2) true false
    | "initialize" =>
      let arguments := Adapter.Client.handshakeArguments (strOf (arg step 1)) (strOf (arg step 2))
      s.send Adapter.Client.handshakeCommand (some arguments) true true
    | "wait" =>
      match s.requests.find? fun r => !r.background && r.label == natOf (arg step 1) with
      | none => (s, .null, [])
      | some r =>
        let s := { s with requests := s.requests.filter fun q => q.label != r.label }
        let limit := Duration.ofMillis (natOf (arg step 2))
        let isOver (t : Adapter.Timed) : Bool := !t.waits.any (·.seq == r.seq)
        let timed := s.timed.wait r.seq r.command limit
        let (timed, finished) :=
          Adapter.Timed.timeline.await isOver (timed.now + limit.nanos) fuel timed
        let result := finished.find? (·.seq == r.seq)
        waited { s with timed } finished (orNull (result.map fun f => adapterResult false f.result))
    | "event" =>
      let (timed, finished, e) := s.timed.nextEvent (.ofMillis (natOf (arg step 1))) fuel
      waited { s with timed } finished (orNull (e.map fun e => obj e.toMembers))
    | "count_events" =>
      let events := s.timed.client.events
      let s := { s with timed := { s.timed with client := { s.timed.client with events := [] } } }
      let seqOf (e : Option Adapter.Event) : Json := orNull (e.map fun e => .int e.seq)
      (s, .array [.nat events.length, seqOf events.head?, seqOf events.getLast?], [])
    | "pending" => (s, .nat s.timed.client.pending.length, [])
    | "timeout" => (s, .nat (s.limit.nanos / 1000000), [])
    | "advance" =>
      let (timed, finished) :=
        Adapter.Timed.timeline.pass (millis (natOf (arg step 1))) fuel s.timed
      waited { s with timed } finished .null
    | "close" =>
      if s.timed.waits.isEmpty then
        ({ s with timed := { s.timed with client := s.timed.client.dropSender } }, .null, [])
      else (s, str "busy", [])
    | _ => (s, .null, [])

def adapterStep (s : AdapterRun) (step : List Json) : AdapterRun × Json :=
  let (s, r, early) := adapterAct s step
  let (timed, finished) := Adapter.Timed.timeline.pass settling fuel s.timed
  let (peer, t, out) := s.peer.readAll timed.client.connection.transport
  let done := early ++ s.done finished
  ({ s with timed := timed.onTransport fun _ => t, peer },
    entry r [("out", out), ("done", doneJson done)])

def adapter (i : Json) : Json :=
  let limit := limitOf (i.get "timeout_ms") (.ofSecs 10)
  .array (runSteps adapterStep ⟨.create .fresh, .fresh, [], 0, limit⟩ (stepsOf i)).2

end EditorBridge.Drill
