import EditorBridge.Json.Printer
import EditorBridge.Keyed
import EditorBridge.Rehearsal.Peer
/-!
A language server that follows a script. It reads one message after the other; what it does on a
message is the rule of its method. Rules may be listed, one for each call, across all servers that
follow the script.
-/
namespace EditorBridge.Rehearsal

inductive Reply where
  | usual
  | result (value : Json)
  | error (value : Json)
  | ignored

structure Rule where
  /-- How long the server takes, in nanoseconds. -/
  delay : Nat
  before : List Json
  reply : Reply
  after : List Json
  close : Bool

def Rule.usual : Rule := ⟨0, [], .usual, [], false⟩

/-- The rules that are left, by method. -/
abbrev Script := Keyed (List Rule)

/-- The rule of a method, and the script after it was used; the last rule is used again and
again. -/
def Script.use (script : Script) (method : String) : Rule × Script :=
  match Keyed.find? script method with
  | some (rule :: next :: rest) => (rule, Keyed.insert script method (next :: rest))
  | some [rule] => (rule, script)
  | _ => (.usual, script)

/-- A message that is being worked on until some time. -/
structure Work where
  time : Nat
  rule : Rule
  message : Json

/-- A server: its end of the connection, what it is doing, and what it has read since its log was
last taken. -/
structure Server where
  peer : Peer
  work : Option Work
  log : List Json

namespace Server

def fresh : Server := ⟨.fresh, none, []⟩

/-- What a server answers that has nothing to say. -/
def usualResult (method : String) : Json :=
  if method = "initialize" then Json.ofMembers [("capabilities", .object [])] else .null

/-- The reply to a message, if there is one: only what has an identity is answered. -/
def reply? (rule : Rule) (message : Json) : Option Json :=
  match message.get? "id" with
  | none => none
  | some id =>
    let answer (key : String) (value : Json) : Option Json :=
      some (Json.ofMembers [("jsonrpc", .string "2.0"), ("id", id), (key, value)])
    match rule.reply with
    | .usual => answer "result" (usualResult ((message.get "method").string?.getD ""))
    | .result value => answer "result" value
    | .error value => answer "error" value
    | .ignored => none

def sayAll (peer : Peer) (t : Stream.Transport) (messages : List Json) : Stream.Transport :=
  messages.foldl (fun t m => (peer.say t m.text).1) t

/-- Does what a rule says, when its time has come. -/
def perform (s : Server) (t : Stream.Transport) (rule : Rule) (message : Json) :
    Server × Stream.Transport :=
  let t := sayAll s.peer t (rule.before ++ (reply? rule message).toList ++ rule.after)
  if rule.close then
    let (peer, t) := s.peer.close t
    ({ s with peer, work := none }, t)
  else ({ s with work := none }, t)

/-- Reads a message. What has no method is only logged. -/
def read (s : Server) (script : Script) (now : Nat) (message : Json) : Server × Script :=
  let s := { s with log := s.log ++ [message] }
  match (message.get "method").string? with
  | none => (s, script)
  | some method =>
    let (rule, script) := script.use method
    ({ s with work := some ⟨now + rule.delay, rule, message⟩ }, script)

/-- What the server does at once, if it does anything: it finishes what it is doing when the time
has come, and otherwise reads on. At the end of the stream it goes. -/
def react (s : Server) (script : Script) (now : Nat) (t : Stream.Transport) :
    Option (Server × Script × Stream.Transport) :=
  match s.work with
  | some work =>
    if now < work.time then none
    else
      let (s, t) := s.perform t work.rule work.message
      some (s, script, t)
  | none =>
    let (peer, t) := s.peer.collect t
    match peer.next? t with
    | none => none
    | some (peer, message) =>
      let (s, script) := { s with peer }.read script now message
      if peer.sawEnd then
        let (peer, t) := peer.close t
        some ({ s with peer }, script, t)
      else some (s, script, t)

def wake (s : Server) : Option Nat := s.work.map (·.time)

/-- Hands over what was read since the last time. -/
def takeLog (s : Server) : Server × List Json := ({ s with log := [] }, s.log)

end Server
end EditorBridge.Rehearsal
