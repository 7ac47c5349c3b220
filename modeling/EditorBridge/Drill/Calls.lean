import EditorBridge.Drill.Connection
import EditorBridge.Rpc.Timed
/-!
Drills of a client of JSON-RPC: calls that end when they will, and a peer that a step can speak for.
-/
namespace EditorBridge.Drill

inductive ResultType where
  | any
  | unit
  | strings

def ResultType.read : ResultType → Document → Decoded Json
  | .any, d => d.readAny
  | .unit, .null => .ok (str "unit")
  | .unit, d => d.wrongType "unit"
  | .strings, d => (fun xs => Json.array (xs.map str)) <$> d.readList Document.readText

def callErrorKind : Rpc.CallError → String
  | .server _ => "Server"
  | .transport _ => "Transport"
  | .deserialization _ => "Deserialization"
  | .timeout _ => "Timeout"
  | .cancelled => "RequestCancelled"

def callError (e : Rpc.CallError) : Json :=
  let base := [("error", str (callErrorKind e)), ("message", str e.message)]
  match e with
  | .server { data := some data, .. } => obj (("data", data) :: base)
  | _ => obj base

structure OpenCall where
  id : Nat
  label : Nat
  method : String
  type : ResultType

structure RpcRun where
  timed : Rpc.Timed
  peer : Rehearsal.Peer
  tag : Option String
  rule : List Json
  calls : List OpenCall
  labels : Nat

def answerRule (rule : List Json) (r : Rpc.Request) : Rpc.Response :=
  match stepName rule with
  | "success" => .success r.id (arg rule 1)
  | "echo" => .success r.id (r.params.getD .null)
  | "error" => .failure r.id ((Rpc.ErrorCode.ofName? (strOf (arg rule 1))).getD .internalError)
      (strOf (arg rule 2))
  | _ => .methodNotFound r.id r.method

def rpcDone (s : RpcRun) (effects : List Rpc.Effect) : List (Nat × Json) :=
  effects.filterMap fun
    | .finished id outcome =>
      (s.calls.find? (·.id == id)).map fun c =>
        (c.label, match outcome.result c.method c.type.read with
          | .ok j => j
          | .error e => callError e)
    | .notified _ => none

def rpcNotes (tag : Option String) (effects : List Rpc.Effect) : List Json :=
  match tag with
  | none => []
  | some tag => effects.filterMap fun
    | .notified n => some (.array [str tag, str n.jsonrpc, str n.method, opt n.params])
    | .finished .. => none

/-- How long a call may take when a step does not say so, or asks for a result of a given type. -/
def usualTimeout : Duration := .ofSecs 30

/-- What a step does to a client: the state, the answer, the span of time that passes besides the
settling, and the calls that ended at once. -/
def rpcAct (s : RpcRun) (step : List Json) : RpcRun × Json × Nat × List (Nat × Json) :=
  match peerBytes? step with
  | some bytes =>
    let (t, ok) := s.peer.write s.timed.client.connection.transport bytes
    ({ s with timed := s.timed.onTransport fun _ => t }, .bool ok, 0, [])
  | none =>
    match stepName step with
    | "peer_close" =>
      let (peer, t) := s.peer.close s.timed.client.connection.transport
      ({ s with timed := s.timed.onTransport fun _ => t, peer }, .bool !s.peer.closed, 0, [])
    | "on_notification" => ({ s with tag := some (strOf (arg step 1)) }, .null, 0, [])
    | "on_request" => ({ s with rule := listOf (arg step 1) }, .null, 0, [])
    | "notify" =>
      let (client, result) := s.timed.client.notify (strOf (arg step 1)) (some (arg step 2))
      let r := match result with
        | .ok () => .null
        | .error e => callError e
      ({ s with timed := { s.timed with client } }, r, 0, [])
    | "request" =>
      let method := strOf (arg step 1)
      let type : ResultType := match strOf (arg step 4) with
        | "unit" => .unit
        | "strings" => .strings
        | _ => .any
      let timeout := match type with
        | .any => limitOf (arg step 3) usualTimeout
        | .unit | .strings => usualTimeout
      let label := s.labels + 1
      let s := { s with labels := label }
      match s.timed.call method (some (arg step 2)) timeout with
      | (timed, .ok id) =>
        ({ s with timed, calls := s.calls ++ [⟨id, label, method, type⟩] }, .nat label, 0, [])
      | (timed, .error e) => ({ s with timed }, .nat label, 0, [(label, callError e)])
    | "connected" => (s, .bool s.timed.client.isConnected, 0, [])
    | "advance" => (s, .null, millis (natOf (arg step 1)), [])
    | "close" =>
      if s.timed.client.pending.isEmpty then
        ({ s with timed := { s.timed with client := s.timed.client.dropSender } }, .null, 0, [])
      else (s, str "busy", 0, [])
    | _ => (s, .null, 0, [])

def rpcStep (s : RpcRun) (step : List Json) : RpcRun × Json :=
  let (s, r, span, early) := rpcAct s step
  let timeline := Rpc.Timed.timeline (answerRule s.rule)
  let (timed, effects) := timeline.pass (span + settling) fuel s.timed
  let (peer, t, out) := s.peer.readAll timed.client.connection.transport
  let done := early ++ rpcDone s effects
  ({ s with timed := timed.onTransport fun _ => t, peer },
    entry r [("out", out), ("notes", rpcNotes s.tag effects), ("done", doneJson done)])

def jsonrpc (i : Json) : Json :=
  .array (runSteps rpcStep ⟨.create .fresh, .fresh, none, [str "not_found"], [], 0⟩
    (stepsOf i)).2

end EditorBridge.Drill
