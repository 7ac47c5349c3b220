import EditorBridge.Duration
import EditorBridge.Rpc.Client
import EditorBridge.Timeline
/-!
A client under a clock. Whenever something happens the loop runs until it has nothing to do, and
calls are given up when their time is over, the earliest first. This is one run of the steps of a
client among many; it is the one that a host with time to spare lets happen.
-/
namespace EditorBridge.Rpc

structure Deadline where
  id : Nat
  time : Nat
deriving DecidableEq, Repr

/-- Of equal deadlines the one set first comes first. -/
def Deadline.earliest? : List Deadline → Option Deadline
  | [] => none
  | d :: rest =>
    match earliest? rest with
    | none => some d
    | some e => if e.time < d.time then some e else some d

/-- A client, the time, and the deadlines of the open calls. Times are in nanoseconds. -/
structure Timed where
  client : Client
  now : Nat
  deadlines : List Deadline

namespace Timed

/-- A client that has just been made, at time zero. -/
def create (transport : Stream.Transport) : Timed := ⟨.create transport, 0, []⟩

/-- The calls that have ended. -/
def finishedIds (effects : List Effect) : List Nat :=
  effects.filterMap fun
    | .finished id _ => some id
    | .notified _ => none

/-- Takes over what has become of the client, and drops the deadlines of calls that have ended. -/
def follow (t : Timed) (client : Client) (effects : List Effect) : Timed :=
  { t with
    client, deadlines := t.deadlines.filter fun d => !(finishedIds effects).contains d.id }

/-- Sends a call and, if it is taken, sets its deadline. -/
def call (t : Timed) (method : String) (params : Option Json) (timeout : Duration) :
    Timed × Except CallError Nat :=
  match t.client.call method params with
  | (client, .error e) => ({ t with client }, .error e)
  | (client, .ok id) =>
    ({ t with client, deadlines := t.deadlines ++ [⟨id, t.now + timeout.nanos⟩] }, .ok id)

/-- What happens at once: a step of the loop, or writing what was sent, or the end of a call whose
time is over. -/
def react (answer : Request → Response) (t : Timed) : Option (Timed × List Effect) :=
  match t.client.loopStep? answer with
  | some (client, effects) => some (t.follow client effects, effects)
  | none =>
    match t.client.connection.writeStep? with
    | some connection => some ({ t with client := { t.client with connection } }, [])
    | none =>
      match Deadline.earliest? t.deadlines with
      | none => none
      | some d =>
        if t.now < d.time then none
        else
          let (client, effects) := t.client.expire d.id
          some ({ t with client, deadlines := t.deadlines.filter fun e => e.id != d.id }, effects)

/-- The clock goes on to the earliest deadline when there is nothing to do before. -/
def timeline (answer : Request → Response) : Timeline Timed Effect where
  now t := t.now
  moveTo time t := { t with now := time }
  react := react answer
  wake t := (Deadline.earliest? t.deadlines).map (·.time)

/-- What the peer does to the byte streams. -/
def onTransport (t : Timed) (f : Stream.Transport → Stream.Transport) : Timed :=
  { t with client := { t.client with connection := t.client.connection.onto f } }

end Timed
end EditorBridge.Rpc
