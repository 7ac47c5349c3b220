import EditorBridge.Lsp.Options
/-!
The output channel of a language client: the latest lines up to a bound, and whether one of all the
lines ever written brought the channel to the front.
-/
namespace EditorBridge.Lsp

inductive OutputLevel where
  | error
  | warn
  | info
  | log
deriving DecidableEq, Repr

namespace OutputLevel

/-- The level of a message by the number of its type; all but three of them are plain log lines. -/
def ofMessageType (type : Int) : OutputLevel :=
  if type = 1 then .error else if type = 2 then .warn else if type = 3 then .info else .log

/-- Plain log lines have no severity. -/
def severity? : OutputLevel → Option RevealPolicy
  | .error => some .error
  | .warn => some .warn
  | .info => some .info
  | .log => none

def name : OutputLevel → String
  | .error => "Error"
  | .warn => "Warn"
  | .info => "Info"
  | .log => "Log"

def ofName? (name : String) : Option OutputLevel :=
  [error, warn, info, log].find? (·.name == name)

end OutputLevel

structure OutputLine where
  level : OutputLevel
  text : String
deriving DecidableEq, Repr

/-- A channel: its policy, the lines that it keeps, at least one of them, and whether it was brought
to the front. -/
structure OutputChannel where
  name : String
  policy : RevealPolicy
  capacity : Nat
  hasRoom : 0 < capacity
  lines : List OutputLine
  revealed : Bool
deriving DecidableEq, Repr

namespace OutputChannel

/-- How many lines a channel keeps. -/
def standardCapacity : Nat := 1000

/-- A channel that keeps so many lines, but at least one. -/
def withCapacity (name : String) (policy : RevealPolicy) (capacity : Nat) : OutputChannel :=
  ⟨name, policy, max capacity 1, Nat.le_max_right capacity 1, [], false⟩

def create (name : String) (policy : RevealPolicy) : OutputChannel :=
  withCapacity name policy standardCapacity

/-- Does a line of this level bring the channel to the front? -/
def shouldReveal (channel : OutputChannel) (level : OutputLevel) : Bool :=
  level.severity?.any channel.policy.reveals

/-- Writes a line; when the channel is full the oldest one goes. -/
def append (channel : OutputChannel) (level : OutputLevel) (text : String) : OutputChannel :=
  let kept :=
    if channel.lines.length = channel.capacity then channel.lines.drop 1 else channel.lines
  { channel with
    lines := kept ++ [⟨level, text⟩]
    revealed := channel.revealed || channel.shouldReveal level }

/-- Writes a message of the server by the number of its type. -/
def appendMessage (channel : OutputChannel) (type : Int) (text : String) : OutputChannel :=
  channel.append (.ofMessageType type) text

end OutputChannel
end EditorBridge.Lsp
