import EditorBridge.Adapter.Client
import EditorBridge.Debug.Registry
import EditorBridge.Process.Manager
/-!
The start of a debug session. First a plan is made from the registry and the configuration, and
nothing is connected to or run before there is one. Then the session is opened on a connection to
the adapter: the opening request is answered, the request that the plan is for is sent, the adapter
tells that it is initialized, the end of the configuration is sent to an adapter that wants it, and
last the answer to the request is awaited. Each step begins a new wait, which may last as long as
the limit; a wait for the adapter to be initialized that lasts longer is only cut short.
-/
namespace EditorBridge.Debug

/-- The name under which the bridge presents itself to an adapter. -/
def clientName : String := "nbjava-bridge"

/-- The two ways to come to a program. -/
inductive StartRequest where
  | launch
  | attach
deriving DecidableEq, Repr

/-- The request of the protocol. -/
def StartRequest.command : StartRequest → String
  | .launch => "launch"
  | .attach => "attach"

/-- Reads the name of a request; there are no others. -/
def StartRequest.ofCommand? : String → Option StartRequest
  | "launch" => some .launch
  | "attach" => some .attach
  | _ => none

/-- Why a session is not started. -/
inductive StartError where
  | registry (e : RegistryError)
  | unsupportedRequest (request : String)
  | connect (endpoint : Endpoint) (reason : String)
  | process (e : Process.Error)
  | protocol (e : Adapter.CallError)
deriving Repr

def StartError.message : StartError → String
  | .registry e => e.message
  | .unsupportedRequest request => "Unsupported debug request '" ++ request ++ "'"
  | .connect endpoint reason =>
    "Cannot connect to debug adapter at " ++ endpoint.display ++ ": " ++ reason
  | .process e => "Debug adapter process error: " ++ e.message
  | .protocol e => "Debug adapter protocol error: " ++ e.message

/-- What is to be started, and how its adapter is reached. -/
structure StartPlan where
  session : SessionInfo
  request : StartRequest
  descriptor : AdapterDescriptor
deriving Repr

/-- What a resolved configuration asks for: a launch unless it says something else. -/
def LaunchConfiguration.startRequest (c : LaunchConfiguration) : Except StartError StartRequest :=
  match c.request? with
  | none => .ok .launch
  | some request =>
    match StartRequest.ofCommand? request with
    | some r => .ok r
    | none => .error (.unsupportedRequest request)

/-- The plan for a configuration that the providers are done with. -/
def Registry.planResolved (r : Registry) (config : LaunchConfiguration) :
    Except StartError StartPlan :=
  match config.startRequest with
  | .error e => .error e
  | .ok request =>
    let session := SessionInfo.ofConfiguration config
    match r.descriptorFor session none with
    | .error e => .error (.registry e)
    | .ok descriptor => .ok ⟨session, request, descriptor⟩

/-- Resolves a configuration and makes the plan. Nothing is connected to or run. -/
def Registry.plan (r : Registry) (folder : Option WorkspaceFolder) (config : LaunchConfiguration)
    (token : Option CancellationToken) : Except StartError StartPlan :=
  match (r.resolve folder config token).1 with
  | .error e => .error (.registry e)
  | .ok config => r.planResolved config

/-- The stages of a start. Requests are known by their numbers. -/
inductive Stage where
  | opening (seq : Nat)
  /-- The request for the session is sent, and the adapter has not told that it is initialized. -/
  | initializing (start : Nat)
  | configuring (start seq : Nat)
  | starting (start : Nat)
  | ended (result : Except Adapter.CallError Unit)

/-- A session that is being started, or was, on a connection to its adapter. -/
structure Startup where
  session : SessionInfo
  request : StartRequest
  capabilities : Json
  client : Adapter.Client
  stage : Stage

/-- The event with which an adapter asks for its configuration. -/
def initializedEvent : String := "initialized"

/-- The request that ends the configuration. -/
def configurationDoneCommand : String := "configurationDone"

/-- Only an adapter that says so wants to be told of the end of the configuration. -/
def wantsConfigurationDone (capabilities : Json) : Bool :=
  match capabilities.get "supportsConfigurationDoneRequest" with
  | .bool b => b
  | _ => false

namespace Startup

/-- How the start has ended; none while it is under way. -/
def result? (s : Startup) : Option (Except Adapter.CallError Unit) :=
  match s.stage with
  | .ended result => some result
  | _ => none

def finish (s : Startup) (result : Except Adapter.CallError Unit) : Startup :=
  { s with stage := .ended result }

/-- Sends the request of the next stage. A request that is refused ends the start. -/
def send (s : Startup) (command : String) (arguments : Option Json) (next : Nat → Stage) :
    Startup :=
  match s.client.send command arguments with
  | (client, .ok seq) => { s with client, stage := next seq }
  | (client, .error e) => { s with client }.finish (.error e)

/-- Begins with the opening request on a new connection. -/
def create (plan : StartPlan) (transport : Stream.Transport) : Startup :=
  let s : Startup :=
    ⟨plan.session, plan.request, .null, .create transport, .ended (.error .transport)⟩
  s.send Adapter.Client.handshakeCommand
    (some (Adapter.Client.handshakeArguments clientName plan.session.debugType)) .opening

/-- The opening request was answered, and now the request is sent that the plan is for. -/
def opened (s : Startup) (capabilities : Json) : Startup :=
  { s with capabilities }.send s.request.command (some s.session.configuration.toJson) .initializing

/-- The adapter takes its configuration, or is taken to do so. -/
def configure (s : Startup) (start : Nat) : Startup :=
  if wantsConfigurationDone s.capabilities then
    s.send configurationDoneCommand none (.configuring start)
  else { s with stage := .starting start }

/-- Goes on when a request is answered. An error ends the start. -/
def answered? (s : Startup) (seq : Nat) (next : Startup → Adapter.Response → Startup) :
    Option Startup :=
  (s.client.poll? seq).map fun (client, result) =>
    match result with
    | .error e => { s with client }.finish (.error e)
    | .ok response => next { s with client } response

/-- Takes an event of the adapter; goes on when it is initialized or no event will come. -/
def takeEvent? (s : Startup) (start : Nat) : Option Startup :=
  match s.client.takeEvent? with
  | some (client, e) =>
    let s := { s with client }
    if e.event = initializedEvent then some (s.configure start) else some s
  | none => if s.client.eventsOver then some (s.configure start) else none

/-- One step of the start; none while it has to wait. -/
def step? (s : Startup) : Option Startup :=
  match s.stage with
  | .opening seq => s.answered? seq fun s r => s.opened (r.body.getD .null)
  | .initializing start => s.takeEvent? start
  | .configuring start seq => s.answered? seq fun s _ => { s with stage := .starting start }
  | .starting start => s.answered? start fun s _ => s.finish (.ok ())
  | .ended _ => none

/-- The time for a request is over, and with it the start. -/
def giveUp (s : Startup) (seq : Nat) (command : String) (limit : Duration) : Startup :=
  { s with client := s.client.giveUp seq }.finish (.error (.timeout command limit))

/-- The time for the present stage is over. Only the wait for the adapter to be initialized is cut
short by that; every other ends the start. -/
def expire (s : Startup) (limit : Duration) : Startup :=
  match s.stage with
  | .opening seq => s.giveUp seq Adapter.Client.handshakeCommand limit
  | .initializing start => s.configure start
  | .configuring _ seq => s.giveUp seq configurationDoneCommand limit
  | .starting start => s.giveUp start s.request.command limit
  | .ended _ => s

/-- The request that ends a session: the program goes with it unless it was only attached to. -/
def disconnectArguments (s : SessionInfo) : Json :=
  .ofMembers [("terminateDebuggee", .bool (s.configuration.request? != some "attach"))]

/-- The request that ends a session. -/
def disconnectCommand : String := "disconnect"

end Startup

/-- Opens a session: makes the plan, reaches the adapter, which may change the world around it and
gives something to keep beside the connection, and sends the opening request. -/
def Registry.openSession {ω α : Type}
    (reach : StartPlan → ω → ω × Except StartError (Stream.Transport × α)) (r : Registry)
    (folder : Option WorkspaceFolder) (config : LaunchConfiguration)
    (token : Option CancellationToken) (world : ω) : ω × Except StartError (Startup × α) :=
  match r.plan folder config token with
  | .error e => (world, .error e)
  | .ok plan =>
    match reach plan world with
    | (world, .error e) => (world, .error e)
    | (world, .ok (transport, kept)) => (world, .ok (.create plan transport, kept))

end EditorBridge.Debug
