import EditorBridge.Duration
import EditorBridge.Lsp.Capabilities
import EditorBridge.Lsp.Params
import EditorBridge.Rpc.Client
/-!
A client of a language server. The first request makes it initialized, the shutdown request ends
that, and only in between does it send notifications of its own. A request is sent by one function
and its end is taken by another, because anything may happen in between.
-/
namespace EditorBridge.Lsp

/-- How an operation of a client can fail. -/
inductive Error where
  | call (error : Rpc.CallError)
  | notInitialized
  | alreadyInitialized
  | timeout (method : String)
  | noUri (fault : NoUri)
deriving Repr

def Error.message : Error → String
  | .call e => "JSON-RPC error: " ++ e.message
  | .notInitialized => "LSP client not initialized"
  | .alreadyInitialized => "LSP protocol error: Client already initialized"
  | .timeout method =>
    "LSP request timeout: " ++ method ++
      " - consider using a longer timeout or checking server responsiveness"
  | .noUri fault => "Path cannot be expressed as a file URI: " ++ fault.path.display

/-- That a call took too long is told in words of its own. -/
def Error.ofCall : Rpc.CallError → Error
  | .timeout method => .timeout method
  | e => .call e

/-- The methods that a client uses. -/
structure Methods where
  handshake : String
  handshakeDone : String
  shutdown : String
  exit : String
  configuration : String
  watchedFiles : String
  opened : String

/-- Their names in the protocol. -/
def methods : Methods where
  handshake := "initialize"
  handshakeDone := "initialized"
  shutdown := "shutdown"
  exit := "exit"
  configuration := "workspace/didChangeConfiguration"
  watchedFiles := "workspace/didChangeWatchedFiles"
  opened := "textDocument/didOpen"

/-- A call that has ended and whose caller has not been told. -/
structure Ended where
  id : Nat
  outcome : Rpc.Outcome
deriving Repr

/-- A client, what it knows of its server, and the calls that have ended without being asked for. -/
structure Client where
  rpc : Rpc.Client
  initialized : Bool
  capabilities : Option Json
  ended : List Ended

namespace Client

/-- A client that has not spoken to its server. -/
def create (transport : Stream.Transport) : Client := ⟨.create transport, false, none, []⟩

/-- Takes over what has become of the connection: the calls that ended are kept for their callers,
and the notifications are answered. -/
def follow (c : Client) (rpc : Rpc.Client) (effects : List Rpc.Effect) :
    Client × List Rpc.Notification :=
  ({ c with
      rpc
      ended := c.ended ++ effects.filterMap fun
        | .finished id outcome => some ⟨id, outcome⟩
        | .notified _ => none },
    effects.filterMap fun
      | .finished .. => none
      | .notified n => some n)

/-- A step of the loop, and the notifications that it brings. -/
def loopStep? (answer : Rpc.Request → Rpc.Response) (c : Client) :
    Option (Client × List Rpc.Notification) :=
  (c.rpc.loopStep? answer).map fun (rpc, effects) => c.follow rpc effects

/-- The time of a call is over. -/
def expire (c : Client) (id : Nat) : Client :=
  let (rpc, effects) := c.rpc.expire id
  (c.follow rpc effects).1

/-- Tells a caller how its call has ended; none while it has not. -/
def takeEnd? (c : Client) (id : Nat) : Option (Client × Rpc.Outcome) :=
  (c.ended.find? (·.id == id)).map fun e =>
    ({ c with ended := c.ended.filter (·.id != id) }, e.outcome)

/-- What happens to the connection. -/
def onConnection (c : Client) (f : Frame.Connection → Frame.Connection) : Client :=
  { c with rpc := { c.rpc with connection := f c.rpc.connection } }

/-- The loop is stopped; open calls end with that. -/
def abort (c : Client) : Client :=
  let (rpc, effects) := c.rpc.abort
  (c.follow rpc effects).1

def ask (c : Client) (method : String) (params : Option Json) : Client × Except Error Nat :=
  match c.rpc.call method params with
  | (rpc, .ok id) => ({ c with rpc }, .ok id)
  | (rpc, .error e) => ({ c with rpc }, .error (.ofCall e))

def tell (c : Client) (method : String) (params : Option Json) : Client × Except Error Unit :=
  match c.rpc.notify method params with
  | (rpc, .ok ()) => ({ c with rpc }, .ok ())
  | (rpc, .error e) => ({ c with rpc }, .error (.call e))

/-- Sends the first request; an initialized client has done that. -/
def askHandshake (c : Client) (params : Json) : Client × Except Error Nat :=
  if c.initialized then (c, .error .alreadyInitialized)
  else c.ask methods.handshake (some params)

/-- Takes the end of the first request. Only a client that could tell the server so is
initialized. -/
def finishHandshake (c : Client) (outcome : Rpc.Outcome) : Client × Except Error Handshake :=
  match outcome.result methods.handshake Handshake.read with
  | .error e => (c, .error (.ofCall e))
  | .ok handshake =>
    let c := { c with capabilities := some handshake.capabilities }
    match c.tell methods.handshakeDone (some (.object [])) with
    | (c, .error e) => (c, .error e)
    | (c, .ok ()) => ({ c with initialized := true }, .ok handshake)

/-- Sends the shutdown request, if there is need for it. -/
def askShutdown (c : Client) : Client × Except Error (Option Nat) :=
  if c.initialized then
    match { c with initialized := false }.ask methods.shutdown none with
    | (c, .ok id) => (c, .ok (some id))
    | (c, .error e) => (c, .error e)
  else (c, .ok none)

/-- Takes the end of the shutdown request. The server is told to exit only after a proper answer. -/
def finishShutdown (c : Client) (outcome : Rpc.Outcome) : Client × Except Error Unit :=
  match outcome.result methods.shutdown (Schema.null.check) with
  | .error e => (c, .error (.ofCall e))
  | .ok () => c.tell methods.exit none

/-- Only an initialized client sends notifications of its own. -/
def tellInitialized (c : Client) (method : String) (params : Json) : Client × Except Error Unit :=
  if c.initialized then c.tell method (some params) else (c, .error .notInitialized)

def tellConfiguration (c : Client) (settings : Json) : Client × Except Error Unit :=
  c.tellInitialized methods.configuration (configurationParams settings)

/-- Tells of changed files, all in one notification. -/
def tellWatchedFiles (c : Client) (changes : List (String × Int)) : Client × Except Error Unit :=
  c.tellInitialized methods.watchedFiles (watchedFilesParams changes)

/-- Tells that a document was opened, and what is in it. -/
def tellOpened (c : Client) (uri languageId : String) (version : Int) (text : String) :
    Client × Except Error Unit :=
  c.tellInitialized methods.opened (openParams uri languageId version text)

def isConnected (c : Client) : Bool := c.rpc.isConnected

/-- How far closing a client has come. -/
inductive Closing where
  | awaiting (id : Nat)
  /-- No more messages are taken, and those taken before are being written. -/
  | flushing (shutdown : Except Error Unit)
  | closed (shutdown : Except Error Unit)
deriving Repr

/-- How long a loop may take to write the rest. -/
def flushLimit : Duration := .ofSecs 2

/-- No more messages are taken; those taken before are still written. -/
def dropSender (c : Client) : Client := { c with rpc := c.rpc.dropSender }

/-- Begins to close a client: the shutdown request goes first, if there is need for it. -/
def beginClose (c : Client) : Client × Closing :=
  match c.askShutdown with
  | (c, .ok (some id)) => (c, .awaiting id)
  | (c, .ok none) => (c.dropSender, .flushing (.ok ()))
  | (c, .error e) => (c.dropSender, .flushing (.error e))

/-- The next step of closing; none while it has to wait. -/
def closeStep? (c : Client) : Closing → Option (Client × Closing)
  | .awaiting id =>
    (c.takeEnd? id).map fun (c, outcome) =>
      let (c, shutdown) := c.finishShutdown outcome
      (c.dropSender, .flushing shutdown)
  | .flushing shutdown => if c.rpc.phase = .ended then some (c, .closed shutdown) else none
  | .closed _ => none

/-- The time for writing the rest is over; what is left is lost. -/
def flushOver (c : Client) : Closing → Client × Closing
  | .flushing shutdown => (c.abort, .closed shutdown)
  | closing => (c, closing)

end Client
end EditorBridge.Lsp
