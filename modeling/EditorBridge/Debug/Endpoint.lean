import EditorBridge.Net.Address
import EditorBridge.Json.Decode
/-!
Where a debug adapter listens: an internet address and a port.
-/
namespace EditorBridge.Debug

structure Endpoint where
  host : Net.Address
  port : UInt16
deriving DecidableEq, Repr, Inhabited

namespace Endpoint

/-- The port that holds when none is set. -/
def standardPort : UInt16 := 10001

/-- A port of the machine itself. -/
def loopback (port : UInt16) : Endpoint := ⟨.v4 127 0 0 1, port⟩

/-- Where an adapter is looked for when nothing is set. -/
def standard : Endpoint := loopback standardPort

/-- The address and the port in one text. -/
def display (e : Endpoint) : String := e.host.withPort e.port

/-- The members in the order in which they are written. -/
def toMembers (e : Endpoint) : List (String × Json) :=
  [("host", .string e.host.text), ("port", .nat e.port.toNat)]

/-- Reads an address from its text; nothing else is one. -/
def readAddress : Document → Decoded Net.Address
  | .string s =>
    match Net.Address.parse? s with
    | some address => .ok address
    | none => .error (.misfit (.invalidText "invalid IP address syntax"))
  | d => d.wrongType "IP address"

/-- The members that are read. The port must fit into 16 bits, and it may be zero. -/
def shape : RecordShape Endpoint where
  name := "DebugEndpoint"
  fields := [
    ⟨"host", .required, fun e d => do return { e with host := ← readAddress d }⟩,
    ⟨"port", .required, fun e d => do return { e with port := ← d.readUInt16 }⟩]

def read (origin : Origin) : Document → Decoded Endpoint := shape.read origin standard

end Endpoint
end EditorBridge.Debug
