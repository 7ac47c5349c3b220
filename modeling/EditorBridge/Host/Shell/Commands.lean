import EditorBridge.Host.Shell.Words
/-!
The commands that a shell knows by name, and what signals do to it.
-/
namespace EditorBridge.Host.Shell

/-- The comparisons of numbers by their names. -/
def compare? (operator : String) (a b : Int) : Option Bool :=
  match operator with
  | "-eq" => some (a == b)
  | "-ne" => some (a != b)
  | "-lt" => some (a < b)
  | "-le" => some (a ≤ b)
  | "-gt" => some (b < a)
  | "-ge" => some (b ≤ a)
  | _ => none

def fileHolds (place : Place) (operator : String) (path : List Char) : Bool :=
  match Tree.resolve place (String.ofList path), operator with
  | .error _, _ => false
  | .ok (.directory _), "-d" => true
  | .ok (.directory _), "-f" => false
  | .ok _, "-d" => false
  | .ok e, "-x" => e != .file
  | .ok _, _ => ["-e", "-f", "-r", "-w", "-s"].contains operator

/-- Does a test hold that is not put together? -/
def simpleTestHolds (place : Place) : List (List Char) → Bool
  | [] => false
  | [a] => !a.isEmpty
  | ['!'] :: rest => !simpleTestHolds place rest
  | [operator, a] =>
    match String.ofList operator with
    | "-n" => !a.isEmpty
    | "-z" => a.isEmpty
    | name => fileHolds place name a
  | [a, operator, b] =>
    match String.ofList operator with
    | "=" => a == b
    | "!=" => a != b
    | name => (compare? name (numberOf a) (numberOf b)).getD false
  | _ => false

/-- Does a test hold? It may be made of simple tests, of which all have to hold between two signs
that one of some has to. -/
def testHolds (place : Place) (args : List (List Char)) : Bool :=
  if args.length ≤ 3 then simpleTestHolds place args
  else
    (args.splitOn "-o".toList).any fun group =>
      (group.splitOn "-a".toList).all (simpleTestHolds place)

def namesTerminate (s : List Char) : Bool := ["TERM", "SIGTERM", "15"].contains (String.ofList s)

def namesKill (s : List Char) : Bool := ["KILL", "SIGKILL", "9"].contains (String.ofList s)

/-- The process has been ended by a signal. A command that runs in a process of its own goes on. -/
def die (s : Shell) : Shell :=
  { s with
    ending := some .signal, frames := [], reading := none
    job := s.job.filter fun j =>
      match j.waiting with
      | .line .. | .others => false
      | _ => !j.inPlace }

/-- The process is asked to end, which it may ignore or answer with a command. -/
def terminate (s : Shell) : Shell :=
  if s.ending.isSome then s
  else
    match s.onTerminate with
    | .ignored => s
    | .standard => s.die
    | .run _ => if s.job.any (·.inPlace) then s.die else { s with asked := true }

def setTrap (s : Shell) (action : List Char) (signal : List Char) : Shell :=
  let command := Command.ofScript action
  if namesTerminate signal then
    { s with onTerminate :=
        if action = ['-'] then .standard else if action.isEmpty then .ignored else .run command }
  else if ["EXIT", "0"].contains (String.ofList signal) then
    { s with onExit := if action = ['-'] || action.isEmpty then none else some command }
  else s

/-- The name of the signal, and who is to get it. -/
def killArguments : List (List Char) → List Char × List (List Char)
  | ['-', 's'] :: name :: targets => (name, targets)
  | ('-' :: name) :: targets => (name, targets)
  | targets => ("TERM".toList, targets)

/-- Sends a signal; the only process that can be reached is the shell itself. -/
def sendSignal (s : Shell) (streams : Streams) (args : List (List Char)) : Shell × Output :=
  let (name, targets) := killArguments args
  if targets.contains (toString s.pid).toList then
    if namesTerminate name then ({ s with status := 0 }.terminate, [])
    else if namesKill name then (s.die, [])
    else if name = ['0'] then ({ s with status := 0 }, [])
    else (s.die, [])
  else s.complain streams 1 "kill: No such process".toList

def leave (s : Shell) (args : List (List Char)) : Shell :=
  { s with
    frames := s.frames.dropWhile fun f => !f.isRejoin
    reading := if s.frames.any Frame.isRejoin then s.reading else none
    status := match args with
      | a :: _ => (numberOf a % 256).toNat
      | [] => (s.frames.findSome? Frame.recalled?).getD s.status }

/-- Ends the script with a status, which must be a number. -/
def exit (s : Shell) (streams : Streams) (args : List (List Char)) : Shell × Output :=
  match args with
  | a :: _ =>
    if !a.isEmpty && a.all Char.isDigit then (s.leave args, [])
    else (s.leave [['2']]).complain streams 2 ("exit: Illegal number: ".toList ++ a)
  | [] => (s.leave [], [])

/-- What is left to do from the innermost loop on; all of it outside of loops. -/
def loopFrames (s : Shell) : List Frame :=
  match s.frames.dropWhile fun f => !f.isLoop && !f.isRestore with
  | f :: rest => if f.isLoop then f :: rest else s.frames
  | [] => s.frames

def breakLoop (s : Shell) : Shell :=
  let frames := s.loopFrames
  { s with frames := if frames.head?.any Frame.isLoop then frames.drop 1 else frames }

def continueLoop (s : Shell) : Shell := { s with frames := s.loopFrames }

/-- Goes back to where the function was called. -/
def leaveFunction (s : Shell) (args : List (List Char)) : Shell :=
  let status := (args.head?.map fun a => (numberOf a % 256).toNat).getD s.status
  { s with frames := s.frames.dropWhile fun f => !f.isRestore, status }

def endlessTime : Nat := Nat.pow 10 24

/-- The nanoseconds of a number of seconds with decimals, or of other units by their letters. -/
def sleepTime (s : List Char) : Nat :=
  let whole := s.takeWhile Char.isDigit
  let decimals := ((s.drop (whole.length + 1)).takeWhile Char.isDigit).take 9
  let unit := match s.getLast? with
    | some 'm' => 60
    | some 'h' => 3600
    | some 'd' => 86400
    | _ => 1
  if "inf".toList.isPrefixOf s then endlessTime
  else
    let nanos := (numberOf decimals).toNat * Nat.pow 10 (9 - decimals.length)
    unit * ((numberOf whole).toNat * 1000000000 + nanos)

def isSleepTime (s : List Char) : Bool :=
  let digits := s.takeWhile Char.isDigit
  let rest := s.drop digits.length
  let (decimals, rest) := match rest with
    | '.' :: more => (more.takeWhile Char.isDigit, more.dropWhile Char.isDigit)
    | rest => ([], rest)
  "inf".toList.isPrefixOf s ||
    (!(digits ++ decimals).isEmpty && ["", "s", "m", "h", "d"].contains (String.ofList rest))

/-- Waits for something. A command in a process of its own may take the place of the shell when
nothing follows it and the shell has nothing to do at its end. -/
def wait (s : Shell) (waiting : Waiting) (isLast : Bool) : Shell :=
  let mayReplace : Bool := match s.onTerminate with
    | .run _ => false
    | _ => s.onExit.isNone
  { s with job := some ⟨waiting, isLast && mayReplace⟩ }

/-- Tells that a file cannot be read. There are no files with content. -/
def noFile (s : Shell) (streams : Streams) (command file : List Char) : Shell × Output :=
  ({ s with status := 1 },
    [(streams.errors, command ++ ": ".toList ++ file ++ ": No such file or directory\n".toList)])

def sleep (s : Shell) (now : Nat) (streams : Streams) (isLast : Bool) (args : List (List Char)) :
    Shell × Output :=
  let hint := "Try 'sleep --help' for more information.\n"
  match args, args.find? fun a => !isSleepTime a with
  | [], _ =>
    ({ s with status := 1 }, [(streams.errors, ("sleep: missing operand\n" ++ hint).toList)])
  | _, some a =>
    ({ s with status := 1 }, [(streams.errors,
      "sleep: invalid time interval '".toList ++ a ++ ("'\n" ++ hint).toList)])
  | _, none => (s.wait (.time (now + (args.map sleepTime).foldl Nat.add 0)) isLast, [])

def copy (s : Shell) (streams : Streams) (isLast : Bool) (files : List (List Char)) :
    Shell × Output :=
  match files.filter (· != ['-']) with
  | [] => (s.wait (.copying streams.input streams.output) isLast, [])
  | file :: _ =>
    match Tree.resolve s.place (String.ofList file) with
    | .ok (.directory _) =>
      ({ s with status := 1 },
        [(streams.errors, "cat: ".toList ++ file ++ ": Is a directory\n".toList)])
    | .ok _ => ({ s with status := 0 }, [])
    | .error _ => s.noFile streams "cat".toList file

/-- Runs a filter on the input, or on a file that is empty or never ends. -/
def runFilter (s : Shell) (streams : Streams) (isLast : Bool) (name : List Char) (f : Filter) :
    List (List Char) → Shell × Output
  | [] => (s.wait (.filter f streams.input streams.output) isLast, [])
  | file :: _ =>
    match String.ofList file, f with
    | "/dev/zero", .firstBytes n =>
      ({ s with status := 0 }, [(streams.output, List.replicate n (Char.ofNat 0))])
    | "/dev/null", f =>
      ({ s with status := 0 }, [(streams.output, ((f.run? [] true).map (·.1)).getD [])])
    | _, _ => s.noFile streams name file

/-- Counts from a number to another, in steps. -/
def countingText (args : List (List Char)) : List Char :=
  let lines (first last : Int) : List Char :=
    (List.range (last - first + 1).toNat).flatMap fun (i : Nat) =>
      (toString (first + i) ++ "\n").toList
  match args.map numberOf with
  | [last] => lines 1 last
  | [first, last] => lines first last
  | _ => []

/-- An absolute path without dots, by its words alone. -/
def flatten (path : List Char) : List Char :=
  let names := ((String.ofList path).splitOn "/").foldl (fun (names : List String) part =>
    if part.isEmpty || part = "." then names
    else if part = ".." then names.drop 1
    else part :: names) []
  (Place.path names.reverse).toList

def changeDirectory (s : Shell) (streams : Streams) (args : List (List Char)) : Shell × Output :=
  let target := args.head?.getD (s.value "HOME".toList)
  if target.isEmpty then ({ s with status := 0 }, [])
  else
    let joined := flatten (if target.head? = some '/' then target else s.directory ++ '/' :: target)
    match Tree.enter [] (String.ofList joined) with
    | .ok _ => ({ s with directory := joined, status := 0 }, [])
    | .error _ => s.complain streams 2 ("cd: can't cd to ".toList ++ target)

def readLine (s : Shell) (streams : Streams) (isWhole : Bool) (args : List (List Char)) :
    Shell × Output :=
  let (isRaw, names) := takeOption "-r" args
  (s.wait (.line streams.input names isRaw isWhole) false, [])

end EditorBridge.Host.Shell
