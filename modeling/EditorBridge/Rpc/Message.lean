import EditorBridge.Json.Decode
import EditorBridge.Json.Printer
/-!
The messages of JSON-RPC. A message is written as an object in which absent members are left out;
what an inbound object is depends only on whether it has a method and an identity that is not null.
-/
namespace EditorBridge.Rpc

/-- The only version of the protocol that is spoken; it is written in every message. -/
def version : String := "2.0"

/-- A call that asks for an answer. The identity is any value that the caller has chosen. -/
structure Request where
  jsonrpc : String
  id : Json
  method : String
  params : Option Json
deriving BEq, Repr

/-- A message that no answer follows. -/
structure Notification where
  jsonrpc : String
  method : String
  params : Option Json
deriving BEq, Repr

/-- What went wrong with a call, in the words of the peer. -/
structure ErrorObject where
  code : Int
  message : String
  data : Option Json
deriving BEq, Repr

/-- An answer to a call. Result and error are both read as they come, though only one should. -/
structure Response where
  jsonrpc : String
  id : Json
  result : Option Json
  error : Option ErrorObject
deriving BEq, Repr

/-- The errors that the protocol itself defines. -/
inductive ErrorCode where
  | parseError
  | invalidRequest
  | methodNotFound
  | invalidParams
  | internalError
deriving DecidableEq, Repr

def ErrorCode.value : ErrorCode → Int
  | .parseError => -32700
  | .invalidRequest => -32600
  | .methodNotFound => -32601
  | .invalidParams => -32602
  | .internalError => -32603

def ErrorCode.name : ErrorCode → String
  | .parseError => "ParseError"
  | .invalidRequest => "InvalidRequest"
  | .methodNotFound => "MethodNotFound"
  | .invalidParams => "InvalidParams"
  | .internalError => "InternalError"

/-- Reads a name back; other spellings name no error. -/
def ErrorCode.ofName? (name : String) : Option ErrorCode :=
  [parseError, invalidRequest, methodNotFound, invalidParams, internalError].find?
    (·.name == name)

namespace Request

/-- The members in the order in which they are written; parameters that are absent are left out. -/
def toMembers (r : Request) : List (String × Json) :=
  Json.present [("jsonrpc", some (.string r.jsonrpc)), ("id", some r.id),
    ("method", some (.string r.method)), ("params", r.params)]

def toJson (r : Request) : Json := Json.ofMembers r.toMembers

/-- The members that are read, in their order. An object may hold others, which are passed over. -/
def shape : RecordShape Request where
  name := "JsonRpcRequest"
  fields := [
    ⟨"jsonrpc", .required, fun r d => do return { r with jsonrpc := ← d.readText }⟩,
    ⟨"id", .required, fun r d => do return { r with id := ← d.readAny }⟩,
    ⟨"method", .required, fun r d => do return { r with method := ← d.readText }⟩,
    ⟨"params", .free, fun r d => do return { r with params := ← d.readOptional Document.readAny }⟩]

def read (origin : Origin) : Document → Decoded Request := shape.read origin ⟨"", .null, "", none⟩

end Request

namespace Notification

/-- The members in the order in which they are written. -/
def toMembers (n : Notification) : List (String × Json) :=
  Json.present [("jsonrpc", some (.string n.jsonrpc)), ("method", some (.string n.method)),
    ("params", n.params)]

def toJson (n : Notification) : Json := Json.ofMembers n.toMembers

def shape : RecordShape Notification where
  name := "JsonRpcNotification"
  fields := [
    ⟨"jsonrpc", .required, fun n d => do return { n with jsonrpc := ← d.readText }⟩,
    ⟨"method", .required, fun n d => do return { n with method := ← d.readText }⟩,
    ⟨"params", .free, fun n d => do return { n with params := ← d.readOptional Document.readAny }⟩]

def read (origin : Origin) : Document → Decoded Notification := shape.read origin ⟨"", "", none⟩

end Notification

namespace ErrorObject

/-- The members in the order in which they are written. -/
def toMembers (e : ErrorObject) : List (String × Json) :=
  Json.present [("code", some (.int e.code)), ("message", some (.string e.message)),
    ("data", e.data)]

def toJson (e : ErrorObject) : Json := Json.ofMembers e.toMembers

/-- The code must fit into 32 bits. -/
def shape : RecordShape ErrorObject where
  name := "JsonRpcErrorObject"
  fields := [
    ⟨"code", .required, fun e d => do return { e with code := ← d.readInt32 }⟩,
    ⟨"message", .required, fun e d => do return { e with message := ← d.readText }⟩,
    ⟨"data", .free, fun e d => do return { e with data := ← d.readOptional Document.readAny }⟩]

def read (origin : Origin) : Document → Decoded ErrorObject := shape.read origin ⟨0, "", none⟩

end ErrorObject

namespace Response

/-- An answer that carries a result. -/
def success (id result : Json) : Response := ⟨version, id, some result, none⟩

/-- An answer with an error and no further data. -/
def failure (id : Json) (code : ErrorCode) (message : String) : Response :=
  ⟨version, id, none, some ⟨code.value, message, none⟩⟩

/-- The answer to a request that nobody handles. -/
def methodNotFound (id : Json) (method : String) : Response :=
  failure id .methodNotFound ("Method not found: " ++ method)

/-- The members around the error in the order in which an answer is written. -/
def membersWith (r : Response) (error : Option Json) : List (String × Json) :=
  Json.present [("jsonrpc", some (.string r.jsonrpc)), ("id", some r.id), ("result", r.result),
    ("error", error)]

def toMembers (r : Response) : List (String × Json) :=
  r.membersWith (r.error.map ErrorObject.toJson)

def toJson (r : Response) : Json := Json.ofMembers r.toMembers

/-- The text of an answer: its members, and those of the error in it, in their order. -/
def text (r : Response) : String :=
  Json.recordText (r.membersWith (r.error.map fun e => .object e.toMembers))

/-- The members that are read. The answer must hold an identity, but neither a result nor an error.
-/
def shape (origin : Origin) : RecordShape Response where
  name := "JsonRpcResponse"
  fields := [
    ⟨"jsonrpc", .required, fun r d => do return { r with jsonrpc := ← d.readText }⟩,
    ⟨"id", .required, fun r d => do return { r with id := ← d.readAny }⟩,
    ⟨"result", .free, fun r d => do return { r with result := ← d.readOptional Document.readAny }⟩,
    ⟨"error", .free, fun r d => do
      return { r with error := ← d.readOptional (ErrorObject.read origin) }⟩]

def read (origin : Origin) : Document → Decoded Response :=
  (shape origin).read origin ⟨"", .null, none, none⟩

end Response

inductive Inbound where
  | request (request : Request)
  | notification (notification : Notification)
  | response (response : Response)
deriving BEq, Repr

namespace Inbound

/-- Reads a value as the kind of message that its members make it. -/
def ofJson (value : Json) : Decoded Inbound :=
  let d := Document.ofJson value
  match value.get? "method", (value.get? "id").bind Json.nonNull? with
  | some _, some _ => .request <$> Request.read .tree d
  | some _, none => .notification <$> Notification.read .tree d
  | none, _ => .response <$> Response.read .tree d

/-- Reads a text as one value and the value as a message. -/
def parse (text : String) : Decoded Inbound :=
  match Json.parse text with
  | .error fault => .error (.text fault)
  | .ok value => ofJson value

end Inbound
end EditorBridge.Rpc
