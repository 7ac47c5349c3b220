import EditorBridge.Host.Chunk
import EditorBridge.Host.Shell.Calls
/-!
The steps of a shell: going on with what was waited for, and doing what is left to do.
-/
namespace EditorBridge.Host.Shell

def finishJob (s : Shell) (status : Nat) : Shell :=
  match s.job, s.ending with
  | some j, none =>
    if j.inPlace then { s with job := none, frames := [], ending := some (.code status) }
    else { s with job := none, status }
  | _, _ => { s with job := none }

/-- A backslash stands for the character behind it. -/
def withoutBackslashes : List Char → List Char
  | '\\' :: c :: rest => c :: withoutBackslashes rest
  | c :: rest => c :: withoutBackslashes rest
  | [] => []

def trimBlanks (s : List Char) : List Char := (skipBlanks (skipBlanks s).reverse).reverse

/-- Parts a line among some variables; the last one gets what is left. -/
def assignLine (s : Shell) : List (List Char) → List Char → Shell
  | [], _ => s
  | [name], line => s.assign name (trimBlanks line)
  | name :: names, line =>
    let line := skipBlanks line
    let field := line.takeWhile fun c => c != ' ' && c != '\t'
    assignLine (s.assign name field) names (line.drop field.length)

def takeLine (s : Shell) (names : List (List Char)) (isRaw isWhole : Bool) (line : List Char)
    (status : Nat) : Shell :=
  let text := if isRaw then line else withoutBackslashes line
  let s := match isWhole, names with
    | true, [name] => s.assign name text
    | _, _ => s.assignLine names text
  s.finishJob status

/-- Goes on with what was waited for; none when it is still to be waited for. -/
def continueJob? (s : Shell) (now : Nat) (j : Job) : Option (Shell × Output) :=
  match j.waiting with
  | .time moment => if now < moment then none else some (s.finishJob 0, [])
  | .copying source sink =>
    let text := s.available source
    if !text.isEmpty then some (s.leaveInput source [], [(sink, text)])
    else if s.isEnded source then some (s.finishJob 0, [])
    else none
  | .line source names isRaw isWhole =>
    let text := s.available source
    let line := text.takeWhile (· != '\n')
    match text.drop line.length with
    | _ :: rest => some ((s.leaveInput source rest).takeLine names isRaw isWhole line 0, [])
    | [] =>
      if s.isEnded source then
        some ((s.leaveInput source []).takeLine names isRaw isWhole line 1, [])
      else none
  | .filter f source sink =>
    (f.run? (s.available source) (s.isEnded source)).map fun (text, rest) =>
      ((s.leaveInput source rest).finishJob 0, [(sink, text)])
  | .others => if s.asked then some (s.finishJob 143, []) else none

/-- Runs a script whose output takes the place of a piece, and then the command that the piece
belongs to, whose words are filled. -/
def capture (s : Shell) (streams : Streams) (isLast : Bool) (piece : Piece)
    (filled : (Word → Word) → Command) : Shell × Output :=
  match piece with
  | .output script isQuoted =>
    let (s, n) := s.newBuffer
    let rest := filled (replacePiece piece (.captured n isQuoted))
    ({ s with
      frames := .run (.ofScript script) { streams with output := .buffer n } false ::
        s.subshellEnd false :: .run rest streams isLast :: s.frames }, [])
  | _ => (s, [])

def runFrame (s : Shell) (now : Nat) : Frame → Shell × Output
  | .run c streams isLast =>
    let next (frames : List Frame) : Shell × Output := ({ s with frames := frames ++ s.frames }, [])
    match c with
    | .nothing => (s, [])
    | .simple as ws rs =>
      match outputPiece? (ws ++ as.map (·.2)) with
      | some piece =>
        s.capture streams isLast piece fun fill =>
          .simple (as.map fun (name, w) => (name, fill w)) (ws.map fill) rs
      | none => s.runSimple now streams (isLast && s.frames.isEmpty) as ws rs
    | .sequence a b => next [.run a streams false, .run b streams isLast]
    | .both a b => next [.run a streams false, .both b streams isLast]
    | .either a b => next [.run a streams false, .either b streams isLast]
    | .negated a => next [.run a streams false, .negate]
    | .loop stopsOn c b => next [.run c streams false, .test stopsOn c b streams]
    | .branch c yes no => next [.run c streams false, .choose yes no streams isLast]
    | .each name words body =>
      match outputPiece? words with
      | some piece => s.capture streams isLast piece fun fill => .each name (words.map fill) body
      | none => next [.each name (words.flatMap s.fields) body streams]
    | .select subject patterns yes no =>
      match outputPiece? [subject] with
      | some piece =>
        s.capture streams isLast piece fun fill => .select (fill subject) patterns yes no
      | none =>
        let text := s.textOf subject
        next [.run (if patterns.any fun p => isMatch (s.patternOf p) text then yes else no) streams
          isLast]
    | .group body rs =>
      match s.redirect streams rs with
      | .ok own => next [.run body own isLast]
      | .error reason => s.complain streams 2 reason
    | .subshell body rs =>
      match s.redirect streams rs with
      | .ok own => next [.run body own false, s.subshellEnd true]
      | .error reason => s.complain streams 2 reason
    | .pipe a b =>
      let (s, n) := s.newBuffer
      ({ s with
        frames := .run a { streams with output := .buffer n } false :: s.subshellEnd false ::
          .run b { streams with input := .buffer n } false :: s.subshellEnd true :: s.frames }, [])
    | .background body =>
      ({ s with status := 0, forks := s.forks ++ [(body, { streams with input := .nothing })] }, [])
    | .define name body =>
      ({ s with status := 0, functions := (name, body) :: s.functions }, [])
  | .both b streams isLast =>
    if s.status = 0 then ({ s with frames := .run b streams isLast :: s.frames }, []) else (s, [])
  | .either b streams isLast =>
    if s.status = 0 then (s, []) else ({ s with frames := .run b streams isLast :: s.frames }, [])
  | .negate => ({ s with status := if s.status = 0 then 1 else 0 }, [])
  | .test stopsOn c b streams =>
    if (s.status == 0) == stopsOn then ({ s with status := 0 }, [])
    else ({ s with frames := .run b streams false :: .again stopsOn c b streams :: s.frames }, [])
  | .again stopsOn c b streams =>
    ({ s with frames := .run c streams false :: .test stopsOn c b streams :: s.frames }, [])
  | .choose yes no streams isLast =>
    ({ s with frames := .run (if s.status = 0 then yes else no) streams isLast :: s.frames }, [])
  | .each _ [] _ _ => (s, [])
  | .each name (v :: rest) body streams =>
    ({ s.assign name v with
        frames := .run body streams false :: .each name rest body streams :: s.frames }, [])
  | .restore arguments => ({ s with arguments }, [])
  | .recall status => ({ s with status }, [])
  | .reassign values => (s.reassign values, [])
  | .rejoin _ arguments directory environment =>
    ({ s with arguments, directory, environment }, [])

def endsOnError (s : Shell) : Bool :=
  s.exitsOnError && s.status != 0 && s.job.isNone && s.ending.isNone &&
    !s.frames.any Frame.asksStatus

/-- Ends the script if a command that is done has failed and that is what the script wants. -/
def checkStatus (before : Nat) (r : Shell × Output) : Shell × Output :=
  if r.1.frames.length ≤ before && r.1.endsOnError then (r.1.leave [], r.2) else r

/-- Runs what is next in the script that is read; none when it has still to come in. -/
def readOn? (s : Shell) (r : Reading) : Option (Shell × Output) :=
  let run (text : List Char) (isLast : Bool) (reading : Option Reading) : Shell × Output :=
    match syntaxFault? text with
    | none =>
      ({ s with frames := [.run (.ofScript text) .own isLast], line := r.line, reading }, [])
    | some reason =>
      { s with reading := none, line := r.line + (text.dropLast.count '\n') }.complain .own 2
        ("Syntax error: " ++ reason).toList
  match chunk? (r.unread.count '\n') [] r.unread with
  | some (text, unread) =>
    some (run text false (some { r with unread, line := r.line + text.count '\n' }))
  | none =>
    if r.fromInput && !s.input.isEmpty then
      some ({ s with reading := some { r with unread := r.unread ++ s.input }, input := [] }, [])
    else if r.fromInput && !s.inputEnded then none
    else some (run r.unread r.mayReplace none)

/-- One step; none while the shell waits or has ended. -/
def step? (s : Shell) (now : Nat) : Option (Shell × Output) :=
  match s.job with
  | some j => (s.continueJob? now j).map fun r => absorb (checkStatus s.frames.length r)
  | none =>
    if s.ending.isSome then none
    else
      match s.asked, s.onTerminate with
      | true, .run c =>
        let frames := .run c .own false :: .recall s.status :: s.frames
        some ({ s with asked := false, frames }, [])
      | _, _ =>
        match s.frames, s.reading, s.onExit with
        | f :: rest, _, _ =>
          let r := { s with frames := rest }.runFrame now f
          match f with
          | .run (.simple ..) .. => some (absorb (checkStatus rest.length r))
          | .rejoin true .. => some (absorb (checkStatus rest.length r))
          | _ => some (absorb r)
        | [], some reading, _ => s.readOn? reading
        | [], none, some c =>
          some ({ s with frames := [.run c .own false, .recall s.status], onExit := none }, [])
        | [], none, none => some ({ s with ending := some (.code s.status) }, [])

/-- What a shell that is left behind becomes: it runs one command and reads nothing. Only signals that
are ignored stay so. -/
def fork (s : Shell) (body : Command) (streams : Streams) : Shell :=
  { s with
    frames := [.run body streams false], job := none, reading := none, input := []
    inputEnded := true, onExit := none, asked := false, forks := [], ending := none
    onTerminate := match s.onTerminate with
      | .ignored => .ignored
      | _ => .standard }

/-- What was left running goes on in a process of its own. -/
def takeFork? (s : Shell) : Option (Shell × Shell) :=
  match s.forks with
  | [] => none
  | (body, streams) :: rest => some (s.fork body streams, { s with forks := rest })

/-- Does the shell wait for those that it has left running? -/
def awaitsOthers (s : Shell) : Bool :=
  s.job.any fun j =>
    match j.waiting with
    | .others => true
    | _ => false

def wake (s : Shell) : Option Nat :=
  s.job.bind fun j =>
    match j.waiting with
    | .time moment => some moment
    | _ => none

/-- Has everything ended that could still write? -/
def isOver (s : Shell) : Bool := s.ending.isSome && s.job.isNone

/-- Somebody has stopped reading; writing ends the command. -/
def breakPipe (s : Shell) : Shell :=
  if s.ending.isSome || s.job.any (!·.inPlace) then s.finishJob 141 else s.die

end EditorBridge.Host.Shell
