import EditorBridge.Json.Decode
import EditorBridge.Json.Printer
/-!
The messages of the debug adapter protocol. Every message carries a sequence number, and its kind in
a member of its own, which may stand anywhere in the object.
-/
namespace EditorBridge.Adapter

/-- A request, of the client or of the adapter. -/
structure Request where
  seq : Int
  command : String
  arguments : Option Json
deriving BEq, Repr

/-- The answer to the request with the number `requestSeq`. -/
structure Response where
  seq : Int
  requestSeq : Int
  success : Bool
  command : String
  message : Option String
  body : Option Json
deriving BEq, Repr

/-- What an adapter tells without being asked. -/
structure Event where
  seq : Int
  event : String
  body : Option Json
deriving BEq, Repr

namespace Request

/-- The members in the order in which they are written; absent ones are left out. -/
def toMembers (r : Request) : List (String × Json) :=
  Json.present [("seq", some (.int r.seq)), ("command", some (.string r.command)),
    ("arguments", r.arguments)]

/-- The members that are read, in their order. An object may hold others, which are passed over. -/
def shape : RecordShape Request where
  name := "DapRequest"
  fields := [
    ⟨"seq", .required, fun r d => do return { r with seq := ← d.readInt64 }⟩,
    ⟨"command", .required, fun r d => do return { r with command := ← d.readText }⟩,
    ⟨"arguments", .free, fun r d => do
      return { r with arguments := ← d.readOptional Document.readAny }⟩]

def read (origin : Origin) : Document → Decoded Request := shape.read origin ⟨0, "", none⟩

end Request

namespace Response

/-- The members in the order in which they are written; absent ones are left out. -/
def toMembers (r : Response) : List (String × Json) :=
  Json.present [("seq", some (.int r.seq)), ("request_seq", some (.int r.requestSeq)),
    ("success", some (.bool r.success)), ("command", some (.string r.command)),
    ("message", r.message.map .string), ("body", r.body)]

def shape : RecordShape Response where
  name := "DapResponse"
  fields := [
    ⟨"seq", .required, fun r d => do return { r with seq := ← d.readInt64 }⟩,
    ⟨"request_seq", .required, fun r d => do return { r with requestSeq := ← d.readInt64 }⟩,
    ⟨"success", .required, fun r d => do return { r with success := ← d.readBool }⟩,
    ⟨"command", .required, fun r d => do return { r with command := ← d.readText }⟩,
    ⟨"message", .free, fun r d => do
      return { r with message := ← d.readOptional Document.readText }⟩,
    ⟨"body", .free, fun r d => do return { r with body := ← d.readOptional Document.readAny }⟩]

def read (origin : Origin) : Document → Decoded Response :=
  shape.read origin ⟨0, 0, false, "", none, none⟩

end Response

namespace Event

/-- The members in the order in which they are written; absent ones are left out. -/
def toMembers (e : Event) : List (String × Json) :=
  Json.present [("seq", some (.int e.seq)), ("event", some (.string e.event)), ("body", e.body)]

def shape : RecordShape Event where
  name := "DapEvent"
  fields := [
    ⟨"seq", .required, fun e d => do return { e with seq := ← d.readInt64 }⟩,
    ⟨"event", .required, fun e d => do return { e with event := ← d.readText }⟩,
    ⟨"body", .free, fun e d => do return { e with body := ← d.readOptional Document.readAny }⟩]

def read (origin : Origin) : Document → Decoded Event := shape.read origin ⟨0, "", none⟩

end Event

/-- The kinds of messages, as the member `type` names them. -/
inductive Kind where
  | request
  | response
  | event
deriving DecidableEq, Repr

def Kind.name : Kind → String
  | .request => "request"
  | .response => "response"
  | .event => "event"

def Kind.all : List Kind := [.request, .response, .event]

/-- Reads the name of a kind; a misfit lists the names that there are. -/
def Kind.read : Document → Decoded Kind
  | .string s =>
    match all.find? (·.name == s) with
    | some kind => .ok kind
    | none => .error (.misfit (.unknownVariant s (all.map Kind.name)))
  | d => d.wrongType "variant identifier"

/-- A message of the protocol, whoever sends it. -/
inductive Message where
  | request (request : Request)
  | response (response : Response)
  | event (event : Event)
deriving BEq, Repr

namespace Message

/-- The kind comes first, and then the members of the message itself. -/
def toMembers : Message → List (String × Json)
  | .request r => ("type", .string Kind.request.name) :: r.toMembers
  | .response r => ("type", .string Kind.response.name) :: r.toMembers
  | .event e => ("type", .string Kind.event.name) :: e.toMembers

def toJson (m : Message) : Json := Json.ofMembers m.toMembers

/-- The text of a message as it is sent. -/
def text (m : Message) : String := Json.recordText m.toMembers

/-- Parts the kind from the other members of an object, each of which must be a value. -/
def splitKind (kind : Option Kind) : List (Document × Document) →
    Decoded (Option Kind × List (Document × Document))
  | [] => .ok (kind, [])
  | (.string key, d) :: rest => do
    if key = "type" then
      if kind.isSome then .error (.misfit (.duplicateField key))
      else do
        let k ← Kind.read d
        splitKind (some k) rest
    else do
      discard d.readAny
      let (kind, others) ← splitKind kind rest
      return (kind, (.string key, d) :: others)
  | (key, _) :: _ => .error (.text key.keyFault)

/-- Reads the members besides the kind. -/
def readContent (kind : Kind) (content : Document) : Decoded Message :=
  match kind with
  | .request => .request <$> Request.read .tagged content
  | .response => .response <$> Response.read .tagged content
  | .event => .event <$> Event.read .tagged content

/-- Reads a message: an object with its kind among its members, or an array with its kind first. -/
def read : Document → Decoded Message
  | .object members fault => do
    let (kind, others) ← splitKind none members
    match fault with
    | some f => .error (.text f)
    | none =>
      match kind with
      | none => .error (.misfit (.missingField "type"))
      | some kind => readContent kind (.object others none)
  | .array (first :: rest) fault => do
    let kind ← Kind.read first
    discard <| Document.readEach Document.readAny rest
    match fault with
    | some f => .error (.text f)
    | none => readContent kind (.array rest none)
  | .array [] (some fault) => .error (.text fault)
  | .array [] none => .error (.misfit (.missingField "type"))
  | .unreadable (some _) => .error (.text .malformed)
  | d => d.wrongType "internally tagged enum DapMessage"

/-- Reads a text as one message. -/
def parse (text : String) : Decoded Message := Document.decodeText read text

end Message
end EditorBridge.Adapter
