import EditorBridge.Host.Shell.Invocation
/-!
Calling commands by name: functions of the script, commands that are part of the shell, and programs,
which are looked for in the places that the environment names.
-/
namespace EditorBridge.Host.Shell

def builtins : List String :=
  [":", "[", "break", "cd", "chdir", "command", "continue", "echo", "eval", "exit", "export",
    "false", "kill", "local", "printf", "pwd", "read", "readonly", "return", "set", "shift", "test",
    "trap", "true", "umask", "unset", "wait"]

/-- The commands whose variables stay. -/
def keepers : List String :=
  [":", "break", "continue", "eval", "exec", "exit", "export", "readonly", "return", "set", "shift",
    "trap", "unset"]

def literal (s : List Char) : Word := [.quoted s]

def literalCommand (words : List (List Char)) : Command := .simple [] (words.map literal) []

/-- Ends a command with a status, and writes a text. -/
def done (s : Shell) (streams : Streams) (code : Nat) (text : List Char) : Shell × Output :=
  ({ s with status := code }, if text.isEmpty then [] else [(streams.output, text)])

/-- What a subshell must not change comes back at its end. -/
def subshellEnd (s : Shell) (counts : Bool) : Frame :=
  .rejoin counts s.arguments s.directory s.environment

def enterSubshell (s : Shell) (streams : Streams) (c : Command) : Shell × Output :=
  ({ s with frames := .run c streams false :: s.subshellEnd true :: s.frames }, [])

def setOptions (s : Shell) (args : List (List Char)) : Shell :=
  match args with
  | ['-', '-'] :: arguments => { s with arguments }
  | ('-' :: letters) :: _ =>
    if letters.contains 'e' then { s with exitsOnError := true } else s
  | ('+' :: letters) :: _ =>
    if letters.contains 'e' then { s with exitsOnError := false } else s
  | [] => s
  | arguments => { s with arguments }

def search (s : Shell) : String := ((s.value? "PATH".toList).map String.ofList).getD Tree.usualSearch

def location? (s : Shell) (name : List Char) : Option (List Char) :=
  if builtins.contains (String.ofList name) || (s.functions.lookup name).isSome then some name
  else
    match Tree.find s.place s.search (String.ofList name) with
    | .ok program =>
      some (if name.contains '/' then name else (Place.path (Tree.programPlace ++ [program])).toList)
    | .error _ => none

/-- Runs a command that is part of the shell. `isWhole` tells that a line is read as it is. -/
def callBuiltin (s : Shell) (streams : Streams) (isWhole : Bool) (name : String)
    (args : List (List Char)) : Shell × Output :=
  let done := s.done streams
  match name with
  | "set" => ({ s.setOptions args with status := 0 }, [])
  | "export" | "local" | "readonly" => ({ s.assignArguments args with status := 0 }, [])
  | "unset" =>
    ({ s with status := 0, environment := s.environment.filter fun v => !args.contains v.1 }, [])
  | "false" => done 1 []
  | "echo" => done 0 (echoText args)
  | "printf" =>
    match args with
    | f :: args => done 0 (format (args.length + 1) f args)
    | [] => done 2 []
  | "exit" => s.exit streams args
  | "break" => ({ s with status := 0 }.breakLoop, [])
  | "continue" => ({ s with status := 0 }.continueLoop, [])
  | "return" => (s.leaveFunction args, [])
  | "shift" =>
    let count := match args with
      | n :: _ => (numberOf n).toNat
      | [] => 1
    if s.arguments.length < count then
      (s.leave [['2']]).complain streams 2 "shift: can't shift that many".toList
    else ({ s with status := 0, arguments := s.arguments.drop count }, [])
  | "test" => done (if testHolds s.place args then 0 else 1) []
  | "[" => done (if testHolds s.place args.dropLast then 0 else 1) []
  | "pwd" =>
    let directory := if args.contains "-P".toList then s.place.path.toList else s.directory
    done 0 (directory ++ ['\n'])
  | "cd" | "chdir" => s.changeDirectory streams args
  | "kill" => s.sendSignal streams args
  | "trap" =>
    match args with
    | action :: signals => ({ signals.foldl (setTrap · action) s with status := 0 }, [])
    | [] => done 0 []
  | "read" => s.readLine streams isWhole args
  | "wait" => (s.wait .others false, [])
  | "eval" =>
    let script := [' '].intercalate args
    ({ s with frames := .run (.ofScript script) streams false :: s.frames, status := 0 }, [])
  | "command" =>
    match args with
    | ['-', 'v'] :: name :: _ =>
      match s.location? name with
      | some path => done 0 (path ++ ['\n'])
      | none => done 127 []
    | args =>
      ({ s with frames := .run (literalCommand args) streams false :: s.frames, status := 0 }, [])
  | _ => done 0 []

/-- The last name of a path, without an ending that it has. -/
def baseName (path ending : List Char) : List Char :=
  let trimmed := (path.reverse.dropWhile (· == '/')).reverse
  let base := (trimmed.reverse.takeWhile (· != '/')).reverse
  if path.isEmpty then []
  else if base.isEmpty then ['/']
  else if ending.isSuffixOf base && ending != base then base.take (base.length - ending.length)
  else base

def directoryName (path : List Char) : List Char :=
  let trimmed := (path.reverse.dropWhile (· == '/'))
  let above := ((trimmed.dropWhile (· != '/')).dropWhile (· == '/')).reverse
  if !above.isEmpty then above
  else if path.head? = some '/' then ['/']
  else ['.']

/-- The value of an expression with at most one operator. -/
def expressionText (args : List (List Char)) : List Char :=
  match args with
  | [a] => a
  | [a, operator, b] =>
    let (m, n) := (numberOf a, numberOf b)
    let number (n : Int) : List Char := (toString n).toList
    match String.ofList operator with
    | "+" => number (m + n)
    | "-" => number (m - n)
    | "*" => number (m * n)
    | "/" => number (m.tdiv n)
    | "%" => number (m.tmod n)
    | "=" => number (truth (a == b))
    | "!=" => number (truth (a != b))
    | "<" => number (truth (m < n))
    | "<=" => number (truth (m ≤ n))
    | ">" => number (truth (n < m))
    | ">=" => number (truth (n ≤ m))
    | _ => []
  | _ => []

/-- Runs a shell in a subshell, or in the place of this one. -/
def callShell (s : Shell) (streams : Streams) (isLast : Bool) (name : List Char)
    (args : List (List Char)) : Shell × Output :=
  let call := Invocation.ofArguments s.place args
  match call.source with
  | .missing reason =>
    ({ s with status := 2 }, [(streams.errors, name ++ (": 0: " ++ reason ++ "\n").toList)])
  | .text script =>
    let (t, output) := s.enterSubshell streams (.ofScript script)
    ({ t with arguments := call.arguments, status := 0 }, output)
  | .input =>
    if isLast && streams.input = .own then
      ({ s with
        frames := [], onExit := none, name, arguments := call.arguments, status := 0
        reading := some ⟨[], 1, true, false⟩ }, [])
    else
      let script := s.available streams.input
      let (t, output) := (s.leaveInput streams.input []).enterSubshell streams (.ofScript script)
      ({ t with arguments := call.arguments, status := 0 }, output)

/-- Runs a command with further variables, or shows the variables. -/
def callWithVariables (s : Shell) (streams : Streams) (args : List (List Char)) : Shell × Output :=
  match args.dropWhile (·.contains '=') with
  | [] =>
    let s' := s.assignArguments args
    s.done streams 0 (Filter.ofLines (s'.environment.reverse.map fun (k, v) => k ++ '=' :: v))
  | words =>
    let (t, output) := s.enterSubshell streams (literalCommand words)
    (t.assignArguments (args.takeWhile (·.contains '=')), output)

def callProgram (s : Shell) (now : Nat) (streams : Streams) (isLast : Bool) (program : String)
    (name : List Char) (args : List (List Char)) : Shell × Output :=
  let done := s.done streams
  match program with
  | "sh" | "dash" | "bash" => s.callShell streams isLast name args
  | "env" => s.callWithVariables streams args
  | "true" => done 0 []
  | "false" => done 1 []
  | "echo" => done 0 (programEchoText args)
  | "printf" =>
    match args with
    | f :: args => done 0 (format (args.length + 1) f args)
    | [] => done 1 []
  | "seq" => done 0 (countingText args)
  | "printenv" =>
    match args.head?.bind s.value? with
    | some v => done 0 (v ++ ['\n'])
    | none => done 1 []
  | "test" => done (if testHolds s.place args then 0 else 1) []
  | "[" => done (if testHolds s.place args.dropLast then 0 else 1) []
  | "pwd" => done 0 (s.place.path.toList ++ ['\n'])
  | "kill" => s.sendSignal streams args
  | "basename" => done 0 (baseName (args.headD []) ((args.drop 1).headD []) ++ ['\n'])
  | "dirname" => done 0 (directoryName (args.headD []) ++ ['\n'])
  | "expr" =>
    let text := expressionText args
    done (if text.isEmpty || text = ['0'] then 1 else 0) (text ++ ['\n'])
  | "sleep" => s.sleep now streams isLast args
  | "cat" => s.copy streams isLast args
  | "tee" => s.copy streams isLast []
  | _ =>
    match Filter.ofCommand? program args with
    | some (f, files) => s.runFilter streams isLast program.toList f files
    | none => done 0 []

def refuse (s : Shell) (streams : Streams) (name : List Char) (fault : PathFault) :
    Shell × Output :=
  match fault with
  | .denied => s.complain streams 126 (name ++ ": Permission denied".toList)
  | .nameTooLong => s.complain streams 127 (name ++ ": File name too long".toList)
  | _ => s.complain streams 127 (name ++ ": not found".toList)

/-- Calls a command: functions come first, and then what is part of the shell. -/
def call (s : Shell) (now : Nat) (streams : Streams) (isLast isWhole : Bool) (name : List Char)
    (args : List (List Char)) : Shell × Output :=
  match s.functions.lookup name with
  | some body =>
    ({ s with
      frames := .run body streams false :: .restore s.arguments :: s.frames
      arguments := args }, [])
  | none =>
    if builtins.contains (String.ofList name) then
      s.callBuiltin streams isWhole (String.ofList name) args
    else
      match Tree.find s.place s.search (String.ofList name) with
      | .ok program => s.callProgram now streams isLast program name args
      | .error fault => s.refuse streams name fault

def replace (s : Shell) (now : Nat) (streams : Streams) (name : List Char)
    (args : List (List Char)) : Shell × Output :=
  let onTerminate : Disposition := match s.onTerminate with
    | .ignored => .ignored
    | _ => .standard
  match Tree.find s.place s.search (String.ofList name) with
  | .ok program =>
    { s with frames := [], reading := none, onExit := none, onTerminate }.callProgram now streams
      true program name args
  | .error fault =>
    { s with frames := [], reading := none }.refuse streams ("exec: ".toList ++ name) fault

/-- Sets variables from left to right; a value may use those before it. -/
def assignAll (s : Shell) (assignments : List (List Char × Word)) : Shell :=
  assignments.foldl (fun s (name, w) => s.assign name (s.textOf w)) s

/-- Runs a simple command whose words hold no output of a script. What is executed in the place of
the shell is the last there is. -/
def runSimple (s : Shell) (now : Nat) (streams : Streams) (isLast : Bool)
    (assignments : List (List Char × Word)) (words : List Word) (redirects : List Redirect) :
    Shell × Output :=
  let isWhole := assignments.any fun a => a.1 == "IFS".toList && a.2.isEmpty
  match s.redirect streams redirects, words.flatMap s.fields with
  | .error reason, _ => s.complain streams 2 reason
  | .ok _, [] =>
    ({ s with status := if outputless words then 0 else s.status }.assignAll assignments, [])
  | .ok own, name :: args =>
    let old := assignments.map fun (name, _) => (name, s.value? name)
    let t := s.assignAll assignments
    let t := if old.isEmpty || keepers.contains (String.ofList name) then t
      else { t with frames := .reassign old :: t.frames }
    if name = "exec".toList then
      match args with
      | [] =>
        let redirected (t : Streams) : Streams := (s.redirect t redirects).toOption.getD t
        ({ t with status := 0, frames := t.frames.map (Frame.mapStreams redirected) }, [])
      | name :: args => t.replace now own name args
    else t.call now own isLast isWhole name args
where
  /-- Do some words hold no captured output, whose status would stay? -/
  outputless (words : List Word) : Bool :=
    (words ++ assignments.map (·.2)).flatten.all fun
      | .captured .. => false
      | _ => true

end EditorBridge.Host.Shell
