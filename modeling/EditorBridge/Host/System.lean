import EditorBridge.Host.Shell.Steps
import EditorBridge.Process.Manager
import EditorBridge.Stream.Transport
/-!
A small system with processes. It has a tree of files with a few programs in it, and the scripts that
it is given; there is no network. Processes run when the system is told to go on, and what they do is
told as events.
-/
namespace EditorBridge.Host

structure Child where
  shell : Shell
  /-- What the process has left running. -/
  others : List Shell
  outputOpen : Bool
  errorsOpen : Bool
  exitTold : Bool
  closeTold : Bool

inductive Event where
  | output (pid : Nat) (bytes : List UInt8)
  | errors (pid : Nat) (bytes : List UInt8)
  | exited (exit : Process.Exit)
  | closed (pid : Nat)
deriving Repr

/-- The processes of a system, and the scripts that it knows. -/
structure System where
  children : List Child
  nextPid : Nat
  /-- Scripts by the paths under which they can be executed. -/
  scripts : List (List UInt8 × String)

namespace System

/-- A system without processes. The number 1 is not given out. -/
def create (scripts : List (List UInt8 × String)) : System := ⟨[], 2, scripts⟩

def badFormat : String := "Exec format error (os error 8)"

def nulByte : String := "nul byte found in provided data"

def unreachable : String := "Network is unreachable (os error 101)"

inductive Executable where
  | program (name : String)
  | script (text : String)

def orReason {α : Type} : Except PathFault α → Except String α
  | .ok a => .ok a
  | .error fault => .error fault.message

/-- Does the interpreter that a script names run scripts of a shell? It may be asked to look for
another one. -/
def isShell (place : Place) (interpreter argument : String) : Except PathFault Bool := do
  match ← Tree.execute place interpreter with
  | "env" => return Tree.shells.contains (← Tree.find place Tree.usualSearch argument)
  | name => return Tree.shells.contains name

/-- The first line of a script may name the program that runs it. -/
def ofScript (place : Place) (text : String) : Except String Executable :=
  match text.toList with
  | '#' :: '!' :: rest =>
    let words := ((String.ofList (rest.takeWhile (· != '\n'))).splitOn " ").filter (!·.isEmpty)
    match orReason (isShell place (words.headD "") ((words.drop 1).headD "")) with
    | .ok true => .ok (.script text)
    | .ok false => .error badFormat
    | .error reason => .error reason
  | _ => .error badFormat

/-- Looks a command up; one that is only a name is looked for in some places. -/
def lookup (s : System) (place : Place) (search : String) (command : List UInt8) :
    Except String Executable :=
  match s.scripts.lookup command with
  | some text => ofScript place text
  | none => (orReason (Tree.find place search (Utf8.lossyString command))).map .program

/-- Can everything be handed to a process? It must not hold a byte that is zero. -/
def canPass (p : Process.Program) : Bool :=
  let texts := (p.args ++ p.env.flatMap fun (k, v) => [k, v]).map fun t => Utf8.encode t.toList
  (p.command.bytes :: (p.cwd.map (·.bytes)).toList ++ texts).all fun bytes => !bytes.contains 0

/-- The variables of a program: each is what stands in front of the first equals sign. Of several
values of one variable the last one counts, so it stands first. -/
def variablesOf (env : Keyed String) : List (List Char × List Char) :=
  (env.map fun (k, v) =>
    let entry := bytesText k ++ '=' :: bytesText v
    let name := entry.takeWhile (· != '=')
    (name, entry.drop (name.length + 1))).reverse

def invoke (shell : Shell) (args : List (List Char)) : Shell :=
  let call := Invocation.ofArguments shell.place args
  let shell := { shell with
    exitsOnError := call.exitsOnError, arguments := call.arguments
    name := call.name.getD shell.name }
  match call.source with
  | .text script => { shell with reading := some ⟨script, 1, false, true⟩ }
  | .input => { shell with reading := some ⟨[], 1, true, false⟩ }
  | .missing reason =>
    let words := ["printf".toList, "%s: 0: %s\n".toList, shell.name, reason.toList]
    let complain : Command := .simple [] (words.map Shell.literal) [.duplicate 1 2]
    let leave := Shell.literalCommand ["exit".toList, ['2']]
    { shell with frames := [.run (.sequence complain leave) .own false] }

def execute (shell : Shell) (e : Executable) (args : List (List Char)) : Shell :=
  match e with
  | .script text =>
    { shell with reading := some ⟨bytesText text, 1, false, false⟩, arguments := args }
  | .program name =>
    if Tree.shells.contains name then invoke shell args
    else
      let path := (Place.path (Tree.programPlace ++ [name])).toList
      { shell with frames := [.run (Shell.literalCommand (path :: args)) .own true] }

/-- Makes a process; the reasons against it are looked at in this order. -/
def spawn (s : System) (p : Process.Program) : Except String (System × Nat) := do
  if !canPass p then throw nulByte
  let place ← match p.cwd with
    | some cwd => orReason (Tree.enter Tree.usualPlace (Utf8.lossyString cwd.bytes))
    | none => pure Tree.usualPlace
  let search := (p.env.find? "PATH").getD Tree.usualSearch
  let executable ← s.lookup place search p.command.bytes
  let pid := s.nextPid
  let shell : Shell := {
    pid
    name := p.command.bytes.map fun b => Char.ofNat b.toNat
    arguments := []
    functions := []
    buffers := []
    environment := variablesOf p.env
    directory := place.path.toList
    status := 0
    exitsOnError := false
    onTerminate := .standard
    onExit := none
    asked := false
    reading := none
    line := 1
    frames := []
    job := none
    input := []
    inputEnded := false
    ending := none
    forks := [] }
  let shell := execute shell executable (p.args.map bytesText)
  return ({ s with
    children := s.children ++ [⟨shell, [], true, true, false, false⟩], nextPid := pid + 1 }, pid)

/-- The system stays as it is when no process is made. -/
def run (s : System) (p : Process.Program) : System × Except String Nat :=
  match s.spawn p with
  | .ok (s, pid) => (s, .ok pid)
  | .error reason => (s, .error reason)

def onChild (s : System) (pid : Nat) (f : Child → Child) : System :=
  { s with children := s.children.map fun c => if c.shell.pid = pid then f c else c }

def onShell (s : System) (pid : Nat) (f : Shell → Shell) : System :=
  s.onChild pid fun c => { c with shell := f c.shell }

def feed (s : System) (pid : Nat) (bytes : List UInt8) : System :=
  s.onShell pid fun sh => { sh with input := sh.input ++ bytes.map fun b => Char.ofNat b.toNat }

def endInput (s : System) (pid : Nat) : System :=
  s.onShell pid fun sh => { sh with inputEnded := true }

/-- Sends a signal. A process that has ended does not hear it. -/
def signal (s : System) (pid : Nat) : Process.Signal → System
  | .terminate => s.onShell pid Shell.terminate
  | .kill => s.onShell pid fun sh => if sh.ending.isSome then sh else sh.die

def closeOutput (s : System) (pid : Nat) : System :=
  s.onChild pid fun c => { c with outputOpen := false }

def closeErrors (s : System) (pid : Nat) : System :=
  s.onChild pid fun c => { c with errorsOpen := false }

/-- Tells what a process writes, as long as somebody reads it. -/
def publish (c : Child) (shell : Shell) : Output → Shell × List Event
  | [] => (shell, [])
  | (sink, text) :: rest =>
    let told (isOpen : Bool) (e : Event) : Shell × List Event :=
      if isOpen then
        let (shell, events) := publish c shell rest
        (shell, e :: events)
      else (shell.breakPipe, [])
    match sink with
    | .nowhere => publish c shell rest
    | .buffer _ => publish c shell rest
    | .output => told c.outputOpen (.output c.shell.pid (textBytes text))
    | .errors => told c.errorsOpen (.errors c.shell.pid (textBytes text))

def exitOf (pid : Nat) : Ending → Process.Exit
  | .code n => ⟨pid, some n⟩
  | .signal => ⟨pid, none⟩

def shellStep? (now : Nat) (c : Child) : Option (Child × List Event) :=
  match c.shell.takeFork? with
  | some (other, shell) => some ({ c with shell, others := c.others ++ [other] }, [])
  | none =>
    match c.shell.step? now with
    | some (shell, output) =>
      let (shell, events) := publish c shell output
      some ({ c with shell }, events)
    | none =>
      if c.shell.awaitsOthers && c.others.all (·.isOver) then
        some ({ c with shell := c.shell.finishJob 0 }, [])
      else none

/-- What the first does that was left running by a process. What it leaves running itself is the
process's. -/
def othersStep? (now : Nat) (c : Child) : Option (Child × List Event) :=
  c.others.zipIdx.findSome? fun (other, i) =>
    match other.takeFork? with
    | some (next, other) => some ({ c with others := c.others.set i other ++ [next] }, [])
    | none =>
      (other.step? now).map fun (other, output) =>
        let (other, events) := publish c other output
        ({ c with others := c.others.set i other }, events)

/-- What a process does next, if it does anything. Its end is told as soon as it has ended, and that
nothing more will be written only when nothing that it has left running can write. -/
def childStep? (now : Nat) (c : Child) : Option (Child × List Event) :=
  (shellStep? now c).or <|
    match c.shell.ending with
    | none => othersStep? now c
    | some ending =>
      if !c.exitTold then some ({ c with exitTold := true }, [.exited (exitOf c.shell.pid ending)])
      else (othersStep? now c).or <|
        if c.shell.isOver && c.others.all (·.isOver) && !c.closeTold then
          some ({ c with closeTold := true }, [.closed c.shell.pid])
        else none

/-- What the first process does that can do anything. -/
def step? (now : Nat) (s : System) : Option (System × List Event) :=
  s.children.findSome? fun c =>
    (childStep? now c).map fun (c', events) => (s.onChild c.shell.pid fun _ => c', events)

/-- When processes that wait for time to pass go on. -/
def wakes (s : System) : List Nat :=
  s.children.flatMap fun c => (c.shell :: c.others).filterMap (·.wake)

def obey (s : System) : Process.Effect → System
  | .signal pid signal => s.signal pid signal
  | .dropConnection pid => (s.endInput pid).closeOutput pid
  | .closeErrors pid => s.closeErrors pid
  | .line _ => s
  | .exited _ => s

/-- Moves what was written to a process to it, and tells it the end of its input and that its output
is not read any more; none when there is nothing to move or to tell. -/
def exchange? (s : System) (pid : Nat) (t : Stream.Transport) :
    Option (System × Stream.Transport) :=
  match s.children.find? (·.shell.pid == pid) with
  | none => none
  | some c =>
    match t.takeWire with
    | (texts@(_ :: _), t) =>
      if c.shell.isOver then some (s, t.failWriting)
      else some (s.feed pid (Utf8.encode (String.join texts).toList), t)
    | ([], t) =>
      if !t.writing && !c.shell.inputEnded then some (s.endInput pid, t)
      else if !t.reading && c.outputOpen then some (s.closeOutput pid, t)
      else none

end System
end EditorBridge.Host
