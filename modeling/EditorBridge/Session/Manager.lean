import EditorBridge.Session.Attempt
import EditorBridge.Session.Traffic
/-!
The manager of the language session. Every accepted start makes an attempt, whose task launches the
server and talks to it until the session is up and takes its place, the slot. The manager stops the
session in the slot, and forwards notifications to it. Attempts that were given up are not forgotten:
their tasks go on, and so do their servers and connections, until they end.

Each function here is one step that nothing interrupts, and the tasks take their steps in any order.
A step that needs the lock of the slot is possible only while nobody holds it.
-/
namespace EditorBridge.Session

/-- What does not change while a manager is used. -/
structure Profile where
  clientId : String
  clientName : String
  processId : Json
  options : Lsp.ClientOptions
  handshakeLimit : Duration
  requestLimit : Duration

/-- What is forwarded to the server. -/
inductive Message where
  /-- The settings as they are when it is sent. -/
  | configuration
  | watchedFiles (changes : List (String × Int))
  | opened (path : Path) (languageId : String) (version : Int) (text : String)
deriving Repr

/-- How far a forwarding has come. -/
inductive Delivery where
  | waiting
  /-- It holds the lock, and the session of the attempt is running. -/
  | holding (attempt : Nat)
  /-- It was sent, or there was no running session, or it failed. -/
  | done (result : Except Error Bool)
deriving Repr

/-- A notification on its way to the server. -/
structure Forward where
  id : Nat
  message : Message
  delivery : Delivery
deriving Repr

/-- How far stopping has come. `last` tells whether the session was running, so that the status is
`stopped` in the end. -/
inductive Stop where
  | joining (attempt : Nat)
  | taking
  | releasing (attempt : Nat) (last : Bool)
  | closing (attempt : Nat) (progress : Lsp.Client.Closing) (last : Bool)
  | terminating (attempt : Nat) (last : Bool)
deriving Repr

/-- The manager and all that it has started. -/
structure State where
  status : Status
  output : Lsp.OutputChannel
  settings : Json
  server : Option Lsp.ServerOptions
  attempts : List Attempt
  /-- The attempt whose task the manager holds. -/
  startTask : Option Nat
  /-- The attempt whose session is in the slot. -/
  slot : Option Nat
  forwards : List Forward
  nextForward : Nat
  stop : Option Stop

namespace State

/-- Where the task of an attempt stands. -/
def phase? (s : State) (k : Nat) : Option Phase := (s.attempts[k]?).map Attempt.phase

/-- A manager that has started nothing. -/
def create (p : Profile) : State where
  status := .idle
  output := .create p.options.outputChannelName p.options.reveal
  settings := .object []
  server := none
  attempts := []
  startTask := none
  slot := none
  forwards := []
  nextForward := 0
  stop := none

def onAttempt (s : State) (k : Nat) (f : Attempt → Attempt) : State :=
  { s with attempts := s.attempts.modify k f }

/-- The client of an attempt, from the launch on. -/
def client? (s : State) (k : Nat) : Option Lsp.Client := (s.attempts[k]?).bind (·.client)

/-- Sets the client of an attempt. -/
def withClient (s : State) (k : Nat) (c : Lsp.Client) : State :=
  s.onAttempt k fun a => { a with client := some c }

/-- Is the lock of the slot free? A forwarding that holds it keeps others out. -/
def slotFree (s : State) : Bool :=
  s.forwards.all fun f =>
    match f.delivery with
    | .holding _ => false
    | _ => true

/-- May the manager be started or stopped? Its owner has it for himself then. -/
def atRest (s : State) : Bool :=
  s.stop.isNone && s.forwards.all fun f =>
    match f.delivery with
    | .done _ => true
    | _ => false

/-- Accepts a start unless something is under way. -/
def start (s : State) (path : Path) (root : Option Path) : Except Error State :=
  if s.status.isSettled then
    let server : Lsp.ServerOptions := ⟨path, [], root⟩
    .ok { s with
      status := .starting
      server := some server
      attempts := s.attempts ++ [.launch server]
      startTask := some s.attempts.length }
  else .error (.alreadyStarted s.status)

/-- The start of an attempt has failed: its session is given up, and the status tells why. -/
def failStart (s : State) (k : Nat) (e : Error) : State :=
  let s := s.onAttempt k (·.giveUp)
  { s with status := .failed e.message, output := s.output.append .error e.message }

/-- The system has launched the server of an attempt, or says why it has not. -/
def launched (s : State) (k : Nat)
    (result : Except Error (Stream.Transport × Option Process.Manager)) : Option State :=
  match s.phase? k with
  | some .launching =>
    match result with
    | .ok (transport, process) => some (s.onAttempt k (·.connect transport process))
    | .error e => some (s.failStart k e)
  | _ => none

/-- The task of an attempt goes on to a phase. -/
def enter (s : State) (k : Nat) (phase : Phase) : State :=
  s.onAttempt k fun a => { a with phase }

/-- Sends the first request. A root that no URI names ends the attempt before that. -/
def askHandshake (p : Profile) (s : State) (k : Nat) (a : Attempt) (c : Lsp.Client) : State :=
  match Lsp.handshakeParams p.processId p.clientName a.server.cwd with
  | .error fault => s.failStart k (.lsp (.noUri fault))
  | .ok params =>
    match c.askHandshake params with
    | (c, .error e) => (s.withClient k c).failStart k (.lsp e)
    | (c, .ok id) => (s.withClient k c).enter k (.handshaking id)

/-- The error of a handshake; that it took too long is told in words of its own. -/
def handshakeError (p : Profile) : Lsp.Error → Error
  | .timeout _ => .handshakeTimeout p.handshakeLimit
  | e => .lsp e

/-- Takes the answer to the first request. -/
def finishHandshake (p : Profile) (s : State) (k : Nat) (c : Lsp.Client) (outcome : Rpc.Outcome) :
    State :=
  match c.finishHandshake outcome with
  | (c, .error e) => (s.withClient k c).failStart k (handshakeError p e)
  | (c, .ok _) => (s.withClient k c).enter k .configuring

/-- Tells the settings as they are now; the session is up then. -/
def configure (p : Profile) (s : State) (k : Nat) (c : Lsp.Client) : State :=
  match c.tellConfiguration (Settings.payload s.settings p.options.settingsSection) with
  | (c, .error e) => (s.withClient k c).failStart k (.lsp e)
  | (c, .ok ()) => (s.withClient k c).enter k .promoting

/-- Gives up what is in the slot. -/
def releaseSlot (s : State) : State :=
  match s.slot with
  | some j => { s.onAttempt j (·.release) with slot := none }
  | none => s

/-- Puts the session of an attempt into the slot. Unless the status still is `starting`, the session
is given up instead. -/
def promote (s : State) (k : Nat) : State :=
  if s.status = .starting then
    { (s.releaseSlot).enter k .finished with status := .running, slot := some k }
  else s.onAttempt k (·.giveUp)

/-- The next step of the task of an attempt; none while it has to wait. -/
def startStep? (p : Profile) (s : State) (k : Nat) : Option State :=
  match s.attempts[k]? with
  | none => none
  | some a =>
    match a.phase, a.client with
    | .connected, some c => some (s.askHandshake p k a c)
    | .handshaking id, some c =>
      (c.takeEnd? id).map fun (c, outcome) => s.finishHandshake p k c outcome
    | .configuring, some c => some (s.configure p k c)
    | .promoting, _ => if s.slotFree then some (s.promote k) else none
    | _, _ => none

/-- Begins to stop. A start that is under way is waited for first. -/
def requestStop (s : State) : State :=
  { s with
    startTask := none
    stop := some (match s.startTask with
      | some k => .joining k
      | none => .taking) }

/-- Stopping is over. Only a session that was running leaves the status `stopped`. -/
def finishStop (s : State) (last : Bool) : State :=
  { s with stop := none, status := if last then .stopped else s.status }

/-- Empties the slot. What was running is now being stopped; a session that was left in the slot by a
server that ended on its own is closed all the same. Nothing is awaited between the taking, the look
at the status and the new status, which are one step here. -/
def takeSlot (s : State) : State :=
  let last := s.status = .running
  let s' := { s with slot := none, status := if last then .stopping else s.status }
  match s.slot with
  | some k => { s' with stop := some (.releasing k last) }
  | none => s'.finishStop last

/-- The client is closed; now the process is asked to terminate, when it is still running. -/
def terminate (s : State) (k : Nat) (last : Bool) : State :=
  match (s.attempts[k]?).bind (·.process) with
  | none => s.finishStop last
  | some m =>
    match m.requestStop .graceful with
    | .error _ => s.finishStop last
    | .ok (m, effects) =>
      { s.onAttempt k fun a => { a with process := some m, errands := a.errands ++ effects } with
        stop := some (.terminating k last) }

/-- Goes on with the closing of a client, and with the process when it is closed. -/
def continueClosing (s : State) (k : Nat) (last : Bool) (c : Lsp.Client)
    (progress : Lsp.Client.Closing) : State :=
  let s := s.withClient k c
  match progress with
  | .closed _ => s.terminate k last
  | progress => { s with stop := some (.closing k progress last) }

/-- The next step of stopping; none while it has to wait. -/
def stopStep? (s : State) : Option State :=
  match s.stop with
  | none => none
  | some (.joining k) =>
    if s.phase? k = some .finished then some { s with stop := some .taking } else none
  | some .taking => if s.slotFree then some s.takeSlot else none
  | some (.releasing k last) =>
    match s.client? k with
    | none => some (s.terminate k last)
    | some c =>
      let (c, progress) := c.beginClose
      some (s.continueClosing k last c progress)
  | some (.closing k progress last) =>
    match s.client? k with
    | none => some (s.terminate k last)
    | some c => (c.closeStep? progress).map fun (c, progress) => s.continueClosing k last c progress
  | some (.terminating k last) =>
    match (s.attempts[k]?).bind (·.process) with
    | none => some (s.finishStop last)
    | some m =>
      m.stopStep?.map fun (m, effects) =>
        (s.onAttempt k fun a =>
          { a with process := some m, errands := a.errands ++ effects }).finishStop last

/-- Takes a notification, which from now on waits for the lock of the slot. -/
def forward (s : State) (message : Message) : State × Nat :=
  ({ s with
      forwards := s.forwards ++ [⟨s.nextForward, message, .waiting⟩]
      nextForward := s.nextForward + 1 }, s.nextForward)

/-- The new settings hold at once, whether or not the server is told. -/
def changeConfiguration (s : State) (settings : Json) : State × Nat :=
  { s with settings }.forward .configuration

/-- The changes that are forwarded, with the URIs of their files. Paths are looked at from the root
of the latest start. -/
def acceptedChanges (p : Profile) (s : State) (changes : List (Path × Int)) :
    Except Lsp.NoUri (List (String × Int)) :=
  let root := s.server.bind (·.cwd)
  (changes.filter fun c => p.options.fileEvents.accepts c.1 root).mapM fun c =>
    (·, c.2) <$> Lsp.fileUri c.1

/-- Does the server care for documents of this language? -/
def acceptsDocument (p : Profile) (languageId : String) : Bool :=
  Lsp.DocumentSelector.accepts p.options.selector languageId "file"

/-- Notes how far a forwarding has come. -/
def setDelivery (s : State) (id : Nat) (delivery : Delivery) : State :=
  { s with forwards := s.forwards.map fun f => if f.id = id then { f with delivery } else f }

/-- Takes the lock of the slot for a forwarding, and lets it go at once when no session is
running. -/
def acquire? (s : State) (id : Nat) : Option State :=
  match s.forwards.find? (·.id == id) with
  | some ⟨_, _, .waiting⟩ =>
    if s.slotFree then
      match s.slot with
      | some k =>
        if s.status = .running then some (s.setDelivery id (.holding k))
        else some (s.setDelivery id (.done (.ok false)))
      | none => some (s.setDelivery id (.done (.ok false)))
    else none
  | _ => none

/-- Sends a notification to the server. Only a document whose path no URI names cannot be told. -/
def tell (p : Profile) (s : State) (c : Lsp.Client) : Message → Lsp.Client × Except Lsp.Error Unit
  | .configuration => c.tellConfiguration (Settings.payload s.settings p.options.settingsSection)
  | .watchedFiles changes => c.tellWatchedFiles changes
  | .opened path languageId version text =>
    match Lsp.fileUri path with
    | .error fault => (c, .error (.noUri fault))
    | .ok uri => c.tellOpened uri languageId version text

/-- Sends a notification whose forwarding holds the lock, and lets the lock go. -/
def deliver? (p : Profile) (s : State) (id : Nat) : Option State :=
  match s.forwards.find? (·.id == id) with
  | some ⟨_, message, .holding k⟩ =>
    (s.client? k).map fun c =>
      match s.tell p c message with
      | (c, .ok ()) => (s.withClient k c).setDelivery id (.done (.ok true))
      | (c, .error e) => (s.withClient k c).setDelivery id (.done (.error (.lsp e)))
  | _ => none

/-- Hands over what has become of a forwarding, and forgets it. -/
def takeResult? (s : State) (id : Nat) : Option (State × Except Error Bool) :=
  match s.forwards.find? (·.id == id) with
  | some ⟨_, _, .done result⟩ =>
    some ({ s with forwards := s.forwards.filter (·.id != id) }, result)
  | _ => none

/-- A step of the loop of a client. Requests for settings are answered from the settings of the
moment. -/
def loopStep? (s : State) (k : Nat) : Option State :=
  (s.client? k).bind fun c =>
    (c.loopStep? (answer s.settings)).map fun (c, notifications) =>
      { s.withClient k c with output := notifications.foldl route s.output }

/-- What happens to the connection of an attempt. -/
def onConnection (s : State) (k : Nat) (f : Frame.Connection → Frame.Connection) : State :=
  s.onAttempt k fun a => { a with client := a.client.map (·.onConnection f) }

/-- Why a session has failed whose server ended on its own. -/
def exitReason : Option Int → String
  | some code => "language server exited unexpectedly with code " ++ toString code
  | none => "language server was terminated unexpectedly"

/-- A server has exited. That fails a session that is starting or running. -/
def exited (s : State) (code : Option Int) : State :=
  match s.status with
  | .starting | .running =>
    { s with
      status := .failed (exitReason code), output := s.output.append .error (exitReason code) }
  | _ => s

/-- Takes what a process manager brings about: lines are shown, exits are noted, and the rest is
asked of the system. -/
def takeEffect (s : State) (k : Nat) : Process.Effect → State
  | .line text => { s with output := s.output.append .info text }
  | .exited exit => s.exited exit.code
  | effect => s.onAttempt k fun a => { a with errands := a.errands ++ [effect] }

/-- What the process manager of an attempt does. -/
def onProcess (s : State) (k : Nat) (f : Process.Manager → Process.Manager × List Process.Effect) :
    State :=
  match (s.attempts[k]?).bind (·.process) with
  | none => s
  | some m =>
    let (m, effects) := f m
    effects.foldl (fun s e => s.takeEffect k e)
      (s.onAttempt k fun a => { a with process := some m })

/-- Tells the session the oldest exit that the process manager of an attempt has seen. -/
def tellExit? (s : State) (k : Nat) : Option State :=
  ((s.attempts[k]?).bind (·.process)).bind fun m =>
    m.tellExit?.map fun (m, exit) =>
      (s.onAttempt k fun a => { a with process := some m }).exited exit.code

/-- A span of time whose end something waits for. -/
inductive Timer where
  | handshake (attempt id : Nat)
  | shutdown (attempt id : Nat)
  | flush (attempt : Nat)
  | grace (attempt : Nat)
deriving DecidableEq, Repr

def Timer.span (p : Profile) (s : State) : Timer → Duration
  | .handshake .. => p.handshakeLimit
  | .shutdown .. => p.requestLimit
  | .flush _ => Lsp.Client.flushLimit
  | .grace k =>
    (((s.attempts[k]?).bind (·.process)).map (·.grace)).getD Process.standardGrace

/-- What the task of an attempt waits for. -/
def Timer.ofPhase? (k : Nat) : Phase → Option Timer
  | .handshaking id => some (.handshake k id)
  | _ => none

def Timer.ofStop? : Stop → Option Timer
  | .closing k (.awaiting id) _ => some (.shutdown k id)
  | .closing k (.flushing _) _ => some (.flush k)
  | .terminating k _ => some (.grace k)
  | _ => none

/-- Everything that somebody waits for, each with a limit. -/
def timers (s : State) : List Timer :=
  (s.attempts.zipIdx.filterMap fun (a, k) => Timer.ofPhase? k a.phase) ++
    (s.stop.bind Timer.ofStop?).toList

/-- The time of a call is over. -/
def expireCall (s : State) (k id : Nat) : State :=
  s.onAttempt k fun a => { a with client := a.client.map (·.expire id) }

/-- A span is over. Whoever waited goes on without what did not happen. -/
def fire (s : State) : Timer → State
  | .handshake k id => s.expireCall k id
  | .shutdown k id => s.expireCall k id
  | .flush k =>
    match s.stop, s.client? k with
    | some (.closing _ progress last), some c =>
      let (c, progress) := c.flushOver progress
      s.continueClosing k last c progress
    | _, _ => s
  | .grace k =>
    match s.stop with
    | some (.terminating _ last) => (s.onProcess k (·.graceOver)).finishStop last
    | _ => s

/-- The manager is given up: the start task that it holds is stopped, and the session in the slot is
given up. -/
def abandon (s : State) : State :=
  let s := match s.startTask with
    | some k => if s.phase? k = some Phase.finished then s else s.onAttempt k Attempt.giveUp
    | none => s
  { s.releaseSlot with startTask := none, stop := none }

end State
end EditorBridge.Session
