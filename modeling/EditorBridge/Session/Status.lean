import EditorBridge.Lsp.Client
import EditorBridge.Process.Manager
/-!
The status of the language session, and how its operations fail.
-/
namespace EditorBridge.Session

/-- The status of a session, as it is shown. -/
inductive Status where
  | idle
  | starting
  | running
  | stopping
  | stopped
  /-- The launch or the handshake failed, or the server ended on its own. -/
  | failed (reason : String)
deriving DecidableEq, Repr

namespace Status

/-- Is nothing under way, so that a session may be started? -/
def isSettled : Status → Bool
  | .idle | .stopped | .failed _ => true
  | _ => false

/-- The name of a status; a failed one gives its reason. -/
def text : Status → String
  | .idle => "idle"
  | .starting => "starting"
  | .running => "running"
  | .stopping => "stopping"
  | .stopped => "stopped"
  | .failed reason => "failed: " ++ reason

end Status

/-- How an operation on a session can fail. -/
inductive Error where
  | alreadyStarted (status : Status)
  | launch (error : Process.Error)
  | lsp (error : Lsp.Error)
  | handshakeTimeout (limit : Duration)
  /-- What a caller that waits for readiness is told of a failed start. -/
  | startFailed (reason : String)
  | notRunning (status : Status)
deriving Repr

def Error.message : Error → String
  | .alreadyStarted status => "A language session is already " ++ status.text
  | .launch error => "Failed to launch language server: " ++ error.message
  | .lsp error => "LSP error: " ++ error.message
  | .handshakeTimeout limit =>
    "Language server did not finish initializing within " ++ limit.text
  | .startFailed reason => "Language session failed: " ++ reason
  | .notRunning status => "Language session is " ++ status.text

/-- What a caller that waits for readiness is told; none while the session starts. -/
def Status.readiness? : Status → Option (Except Error Unit)
  | .starting => none
  | .running => some (.ok ())
  | .failed reason => some (.error (.startFailed reason))
  | status => some (.error (.notRunning status))

end EditorBridge.Session
