import EditorBridge.Session.Manager
/-!
The calls by which the owner of a manager tells the server something: other settings, changes of
watched files, a document that was opened. What a call finds out by itself it answers at once; else
it is forwarded, and its reply comes from what has become of that.
-/
namespace EditorBridge.Session

/-- What the owner of a manager tells the server. -/
inductive Call where
  | changeConfiguration (settings : Json)
  | watchedFiles (changes : List (Path × Int))
  | opened (path : Path) (languageId : String) (version : Int) (text : String)

/-- What the owner gets to know. -/
inductive Reply where
  | done
  /-- So many changes were sent. -/
  | count (n : Nat)
  | told (sent : Bool)
deriving DecidableEq, Repr

namespace Reply

/-- The reply to the same call when nothing was sent. -/
def unsent : Reply → Reply
  | .done => .done
  | .count _ => .count 0
  | .told _ => .told false

/-- The reply that the outcome of the forwarding makes of it. -/
def ifSent (r : Reply) (sent : Bool) : Reply := if sent then r else r.unsent

end Reply

/-- How far a call comes at once. -/
inductive Opening where
  | answered (result : Except Error Reply)
  /-- It waits for the forwarding with this number, and replies this if that was sent. -/
  | forwarded (s : State) (id : Nat) (whenSent : Reply)

namespace State

/-- Begins a call. Changed files are filtered and named here, before anybody asks whether a session
is running. -/
def call (p : Profile) (s : State) : Call → Opening
  | .changeConfiguration settings =>
    let (s, id) := s.changeConfiguration settings
    .forwarded s id .done
  | .watchedFiles changes =>
    match s.acceptedChanges p changes with
    | .error fault => .answered (.error (.lsp (.noUri fault)))
    | .ok [] => .answered (.ok (.count 0))
    | .ok accepted =>
      let (s, id) := s.forward (.watchedFiles accepted)
      .forwarded s id (.count accepted.length)
  | .opened path languageId version text =>
    if acceptsDocument p languageId then
      let (s, id) := s.forward (.opened path languageId version text)
      .forwarded s id (.told true)
    else .answered (.ok (.told false))

end State
end EditorBridge.Session
