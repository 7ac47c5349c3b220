import EditorBridge.Lsp.Options
import EditorBridge.Session.Status
/-!
One attempt to run a language session: the server that was launched for it, the client that talks to
the server, and how far the task has come that brings the session up.
-/
namespace EditorBridge.Session

/-- Where the task of an attempt stands. -/
inductive Phase where
  | launching
  | connected
  | handshaking (id : Nat)
  | configuring
  /-- The session is up and waits for its place. -/
  | promoting
  | finished
deriving DecidableEq, Repr

/-- A server and what the session has of it. -/
structure Attempt where
  server : Lsp.ServerOptions
  phase : Phase
  client : Option Lsp.Client
  /-- The process of the server, when the session owns it. -/
  process : Option Process.Manager
  /-- What was asked of the system on behalf of the process and is not yet done. -/
  errands : List Process.Effect

namespace Attempt

/-- An attempt whose server is not yet launched. -/
def launch (server : Lsp.ServerOptions) : Attempt := ⟨server, .launching, none, none, []⟩

/-- The server was launched, and its client is made at once. -/
def connect (a : Attempt) (transport : Stream.Transport) (process : Option Process.Manager) :
    Attempt :=
  { a with phase := .connected, client := some (.create transport), process }

/-- Kills the process, if the session owns it. -/
def killProcess (a : Attempt) : Attempt :=
  match a.process with
  | none => a
  | some m =>
    let (m, effects) := m.kill
    { a with process := some m, errands := a.errands ++ effects }

/-- Gives up the session: its client, and with it the process. -/
def release (a : Attempt) : Attempt :=
  { a with client := a.client.map Lsp.Client.abort }.killProcess

/-- The task ends, and with it the session that it has not handed on. -/
def giveUp (a : Attempt) : Attempt := { a.release with phase := .finished }

end Attempt
end EditorBridge.Session
