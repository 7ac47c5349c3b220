import EditorBridge.Host.Filter
import EditorBridge.Host.Wildcard
import EditorBridge.Host.Tree
import EditorBridge.Text.Utf8
/-!
The state of a shell that runs a script step by step. It stops where it has to wait: for input, for
time to pass, or for a command that runs in a process of its own. A signal ends it unless the script
traps it. The commands of a pipeline run one after the other, with a buffer between them.
-/
namespace EditorBridge.Host

/-- A text as bytes, each written as a character. -/
def bytesText (s : String) : List Char := (Utf8.encode s.toList).map fun b => Char.ofNat b.toNat

def textBytes (s : List Char) : List UInt8 := s.map fun c => UInt8.ofNat c.toNat

inductive Source where
  | own
  | nothing
  | buffer (n : Nat)
deriving DecidableEq, Repr

inductive Sink where
  | output
  | errors
  | nowhere
  | buffer (n : Nat)
deriving DecidableEq, Repr

structure Streams where
  input : Source
  output : Sink
  errors : Sink
deriving DecidableEq, Repr

def Streams.own : Streams := ⟨.own, .output, .errors⟩

def Streams.sink (s : Streams) (descriptor : Nat) : Sink :=
  if descriptor = 1 then s.output else if descriptor = 2 then s.errors else .nowhere

def Streams.direct (s : Streams) (descriptor : Nat) (sink : Sink) : Streams :=
  if descriptor = 1 then { s with output := sink }
  else if descriptor = 2 then { s with errors := sink }
  else s

inductive Waiting where
  | time (moment : Nat)
  | copying (source : Source) (sink : Sink)
  /-- A line of input for some variables. The script may let a backslash stand for itself, and keep
  a line as it is. -/
  | line (source : Source) (names : List (List Char)) (isRaw isWhole : Bool)
  | filter (f : Filter) (source : Source) (sink : Sink)
  /-- The end of all that the shell has left running. -/
  | others
deriving Repr

/-- What a shell waits for, and whether the command has taken the place of the shell. -/
structure Job where
  waiting : Waiting
  inPlace : Bool
deriving Repr

/-- What is left to do. `isLast` tells that nothing follows, so that a command may take the place of
the shell. -/
inductive Frame where
  | run (command : Command) (streams : Streams) (isLast : Bool)
  | both (second : Command) (streams : Streams) (isLast : Bool)
  | either (second : Command) (streams : Streams) (isLast : Bool)
  | negate
  | test (stopsOn : Bool) (condition body : Command) (streams : Streams)
  | again (stopsOn : Bool) (condition body : Command) (streams : Streams)
  | choose (yes no : Command) (streams : Streams) (isLast : Bool)
  | each (name : List Char) (values : List (List Char)) (body : Command) (streams : Streams)
  | restore (arguments : List (List Char))
  /-- The end of what is done on a signal or on exit: the status is what it was before. -/
  | recall (status : Nat)
  /-- The end of a command that had variables of its own: what they were before. -/
  | reassign (values : List (List Char × Option (List Char)))
  /-- The end of a subshell: what it has changed is as it was before. Its status may count as that of
  a command of the script. -/
  | rejoin (counts : Bool) (arguments : List (List Char)) (directory : List Char)
      (environment : List (List Char × List Char))
deriving Repr

def Frame.isLoop : Frame → Bool
  | .test .. | .again .. | .each .. => true
  | _ => false

/-- Does something of the shell change back there? -/
def Frame.isRestore : Frame → Bool
  | .restore _ | .rejoin .. => true
  | _ => false

def Frame.isRejoin : Frame → Bool
  | .rejoin .. => true
  | _ => false

def Frame.recalled? : Frame → Option Nat
  | .recall status => some status
  | _ => none

/-- Is it there to ask for the status of what comes before it? -/
def Frame.asksStatus : Frame → Bool
  | .both .. | .either .. | .negate | .test .. | .choose .. => true
  | _ => false

def Frame.mapStreams (f : Streams → Streams) : Frame → Frame
  | .run c s isLast => .run c (f s) isLast
  | .both c s isLast => .both c (f s) isLast
  | .either c s isLast => .either c (f s) isLast
  | .negate => .negate
  | .test on c b s => .test on c b (f s)
  | .again on c b s => .again on c b (f s)
  | .choose yes no s isLast => .choose yes no (f s) isLast
  | .each name values b s => .each name values b (f s)
  | .restore arguments => .restore arguments
  | .recall status => .recall status
  | .reassign values => .reassign values
  | .rejoin counts arguments directory environment =>
    .rejoin counts arguments directory environment

inductive Disposition where
  | standard
  | ignored
  | run (command : Command)
deriving Repr

inductive Ending where
  | code (n : Nat)
  | signal
deriving DecidableEq, Repr

structure Reading where
  /-- What was read and is not yet run. -/
  unread : List Char
  line : Nat
  fromInput : Bool
  mayReplace : Bool
deriving Repr

structure Shell where
  pid : Nat
  name : List Char
  arguments : List (List Char)
  environment : List (List Char × List Char)
  functions : List (List Char × Command)
  directory : List Char
  status : Nat
  exitsOnError : Bool
  onTerminate : Disposition
  onExit : Option Command
  /-- Was it asked to terminate, so that the script's own command for that is to be run? -/
  asked : Bool
  reading : Option Reading
  line : Nat
  frames : List Frame
  job : Option Job
  input : List Char
  inputEnded : Bool
  /-- What was written into pipelines, by number. -/
  buffers : List (List Char)
  ending : Option Ending
  /-- Commands with their streams that are to run in processes of their own. -/
  forks : List (Command × Streams)
deriving Repr

abbrev Output := List (Sink × List Char)

namespace Shell

/-- The value of a parameter; none if it was not set. -/
def value? (s : Shell) (name : List Char) : Option (List Char) :=
  match name with
  | ['?'] => some (toString s.status).toList
  | ['$'] => some (toString s.pid).toList
  | ['#'] => some (toString s.arguments.length).toList
  | ['0'] => some s.name
  | ['@'] | ['*'] => if s.arguments.isEmpty then none else some ([' '].intercalate s.arguments)
  | _ =>
    if name.all Char.isDigit then s.arguments[digitsValue name - 1]?
    else
      ((s.environment.find? (·.1 == name)).map (·.2)).or <|
        if name = "PWD".toList then some s.directory else none

def value (s : Shell) (name : List Char) : List Char := (s.value? name).getD []

/-- The text that a parameter is replaced by: its value, its length, or a text in place of a value
that is missing. -/
def parameter (s : Shell) (text : List Char) : List Char :=
  match text with
  | '#' :: c :: rest => (toString (s.value (c :: rest)).length).toList
  | _ =>
    let name := match text.takeWhile isNameChar with
      | [] => text.take 1
      | name => name
    let given := s.value? name
    let filled := given.filter fun v => !v.isEmpty
    match text.drop name.length with
    | ':' :: '-' :: word => filled.getD word
    | '-' :: word => given.getD word
    | '%' :: '%' :: pattern => cutEnd true (unquotedPattern pattern) (given.getD [])
    | '%' :: pattern => cutEnd false (unquotedPattern pattern) (given.getD [])
    | '#' :: '#' :: pattern => cutStart true (unquotedPattern pattern) (given.getD [])
    | '#' :: pattern => cutStart false (unquotedPattern pattern) (given.getD [])
    | ':' :: '=' :: word => filled.getD word
    | '=' :: word => given.getD word
    | ':' :: '+' :: word => if filled.isSome then word else []
    | '+' :: word => if given.isSome then word else []
    | _ => given.getD []

/-- Sets a variable; the one set last stands first. -/
def assign (s : Shell) (name text : List Char) : Shell :=
  { s with environment := (name, text) :: s.environment.filter (·.1 != name) }

def reassign (s : Shell) (values : List (List Char × Option (List Char))) : Shell :=
  values.foldl (fun s (name, value) =>
    match value with
    | some text => s.assign name text
    | none => { s with environment := s.environment.filter (·.1 != name) }) s

/-- Sets variables that are given as arguments. -/
def assignArguments (s : Shell) (args : List (List Char)) : Shell :=
  args.foldl (fun s a =>
    let name := a.takeWhile (· != '=')
    match a.drop name.length with
    | _ :: text => s.assign name text
    | [] => s) s

/-- A new buffer for what one command writes and another reads. -/
def newBuffer (s : Shell) : Shell × Nat :=
  ({ s with buffers := s.buffers ++ [[]] }, s.buffers.length)

def available (s : Shell) : Source → List Char
  | .own => s.input
  | .nothing => []
  | .buffer n => (s.buffers[n]?).getD []

def isEnded (s : Shell) : Source → Bool
  | .own => s.inputEnded
  | _ => true

/-- Leaves the rest of the input to those that follow. -/
def leaveInput (s : Shell) (source : Source) (rest : List Char) : Shell :=
  match source with
  | .own => { s with input := rest }
  | .nothing => s
  | .buffer n => { s with buffers := s.buffers.set n rest }

def place (s : Shell) : Place :=
  match Tree.enter Tree.usualPlace (String.ofList s.directory) with
  | .ok place => place
  | .error _ => []

/-- Writes what is wrong, with the name of the shell and the line. -/
def complain (s : Shell) (streams : Streams) (status : Nat) (text : List Char) : Shell × Output :=
  let place := s.name ++ ": ".toList ++ (toString s.line).toList ++ ": ".toList
  ({ s with status }, [(streams.errors, place ++ text ++ ['\n'])])

/-- Takes what goes into buffers out of the output of a step. -/
def absorb (r : Shell × Output) : Shell × Output :=
  r.2.foldl (fun (s, output) (sink, text) =>
    match sink with
    | .buffer n => ({ s with buffers := s.buffers.modify n (· ++ text) }, output)
    | _ => (s, output ++ [(sink, text)])) (r.1, [])

end Shell
end EditorBridge.Host
