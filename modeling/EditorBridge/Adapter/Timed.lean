import EditorBridge.Adapter.Client
import EditorBridge.Timeline
/-!
A client of a debug adapter under a clock. Callers that wait for an answer are served as soon as it
is there, and give up when their time is over, the earliest first. This is one run of the steps of
a client among many; it is the one that a host with time to spare lets happen.
-/
namespace EditorBridge.Adapter

/-- A caller that waits for the answer to its request. -/
structure Wait where
  seq : Nat
  command : String
  limit : Duration
  deadline : Nat
deriving Repr

structure Finished where
  seq : Nat
  result : Except CallError Response

/-- A client, the time, and the callers that wait. Times are in nanoseconds. -/
structure Timed where
  client : Client
  now : Nat
  waits : List Wait

namespace Timed

def create (transport : Stream.Transport) : Timed := ⟨.create transport, 0, []⟩

/-- Begins to wait for the answer to a request that was sent. -/
def wait (t : Timed) (seq : Nat) (command : String) (limit : Duration) : Timed :=
  { t with waits := t.waits ++ [⟨seq, command, limit, t.now + limit.nanos⟩] }

/-- Sends a request and, if it is taken, waits for its answer. -/
def request (t : Timed) (command : String) (arguments : Option Json) (limit : Duration) :
    Timed × Except CallError Nat :=
  match t.client.send command arguments with
  | (client, .error e) => ({ t with client }, .error e)
  | (client, .ok seq) => ({ t with client }.wait seq command limit, .ok seq)

def unwait (t : Timed) (seq : Nat) : Timed :=
  { t with waits := t.waits.filter fun w => w.seq != seq }

/-- Serves the first caller whose answer is there. -/
def serve? (t : Timed) : List Wait → Option (Timed × Finished)
  | [] => none
  | w :: rest =>
    match t.client.poll? w.seq with
    | some (client, result) => some ({ t with client }.unwait w.seq, ⟨w.seq, result⟩)
    | none => serve? t rest

/-- Of equal deadlines the one set first comes first. -/
def earliest? : List Wait → Option Wait
  | [] => none
  | w :: rest =>
    match earliest? rest with
    | none => some w
    | some v => if v.deadline < w.deadline then some v else some w

/-- Ends the earliest wait if its time is over. -/
def expire? (t : Timed) : Option (Timed × Finished) :=
  match earliest? t.waits with
  | none => none
  | some w =>
    if t.now < w.deadline then none
    else some ({ t with client := t.client.giveUp w.seq }.unwait w.seq,
      ⟨w.seq, .error (.timeout w.command w.limit)⟩)

/-- What happens at once: a step of the loop, writing what was sent, or the end of a wait. -/
def react (t : Timed) : Option (Timed × List Finished) :=
  match t.client.loopStep? with
  | some client => some ({ t with client }, [])
  | none =>
    match t.client.connection.writeStep? with
    | some connection => some ({ t with client := { t.client with connection } }, [])
    | none => ((t.serve? t.waits).or t.expire?).map fun (t, finished) => (t, [finished])

/-- The clock goes on to the earliest deadline when there is nothing to do before. -/
def timeline : Timeline Timed Finished where
  now t := t.now
  moveTo time t := { t with now := time }
  react := react
  wake t := (earliest? t.waits).map (·.deadline)

/-- Waits for an event until one is there, none can come, or the time is over. -/
def nextEvent (t : Timed) (limit : Duration) (fuel : Nat) : Timed × List Finished × Option Event :=
  let decided (t : Timed) : Bool := !t.client.events.isEmpty || t.client.eventsOver
  let (t, finished) := timeline.await decided (t.now + limit.nanos) fuel t
  match t.client.takeEvent? with
  | some (client, e) => ({ t with client }, finished, some e)
  | none => (t, finished, none)

def onTransport (t : Timed) (f : Stream.Transport → Stream.Transport) : Timed :=
  { t with client := { t.client with connection := t.client.connection.onto f } }

end Timed
end EditorBridge.Adapter
