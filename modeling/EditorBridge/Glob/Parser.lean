import EditorBridge.Glob.Pattern
/-!
Reading glob patterns. Two stars are special only as a whole component, also next to the braces and
commas of a group; a backslash takes the special meaning from the next character; groups may nest.
-/
namespace EditorBridge.Glob

/-- What is wrong with a pattern. -/
inductive Fault where
  | unclosedClass
  | invalidRange (low high : Char)
  | unopenedAlternates
  | unclosedAlternates
  | danglingEscape
deriving DecidableEq, Repr

def Fault.reason : Fault → String
  | .unclosedClass => "unclosed character class; missing ']'"
  | .invalidRange low high =>
    "invalid range; '" ++ String.singleton low ++ "' > '" ++ String.singleton high ++ "'"
  | .unopenedAlternates =>
    "unopened alternate group; missing '\x7b' (maybe escape '\x7d' with '[\x7d]'?)"
  | .unclosedAlternates =>
    "unclosed alternate group; missing '\x7d' (maybe escape '\x7b' with '[\x7b]'?)"
  | .danglingEscape => "dangling '\\'"

/-- The pattern and what is wrong with it. -/
def Fault.message (pattern : String) (fault : Fault) : String :=
  "error parsing glob '" ++ pattern ++ "': " ++ fault.reason

/-- The ranges of a class, the last one first, and what follows its closing bracket. `first` says
that no character was read yet, `inRange` that a hyphen was read behind one. -/
def readClass (ranges : List (Char × Char)) (first inRange : Bool) :
    List Char → Except Fault (List (Char × Char) × List Char)
  | [] => .error .unclosedClass
  | c :: rest =>
    if c = ']' ∧ ¬first then .ok (if inRange then ('-', '-') :: ranges else ranges, rest)
    else if c = '-' ∧ ¬first ∧ ¬inRange then readClass ranges false true rest
    else
      match inRange, ranges with
      | true, (low, _) :: more =>
        if c < low then .error (.invalidRange low c)
        else readClass ((low, c) :: more) false false rest
      | _, _ => readClass ((c, c) :: ranges) false false rest

/-- A group that is still open: its finished branches, the last one first, and the parts in front of
it in the branch that holds it, the last one first. -/
structure OpenGroup where
  outer : List Token
  branches : List (List Token)

/-- What was read so far. The parts of the branch being read stand in reverse. -/
structure ParserState where
  groups : List OpenGroup
  current : List Token
  previous : Option Char

namespace ParserState

def start : ParserState := ⟨[], [], none⟩

/-- Appends a part to the branch being read. -/
def push (s : ParserState) (t : Token) : ParserState := { s with current := t :: s.current }

/-- Begins a group and its first branch. -/
def openGroup (s : ParserState) : ParserState :=
  { s with groups := ⟨s.current, []⟩ :: s.groups, current := [] }

/-- Begins the next branch of the innermost group; outside a group a comma stands for itself. -/
def comma (s : ParserState) : ParserState :=
  match s.groups with
  | [] => s.push (.literal ',')
  | g :: rest =>
    { s with groups := ⟨g.outer, s.current.reverse :: g.branches⟩ :: rest, current := [] }

/-- Ends the innermost group, which is a part of the branch around it. -/
def closeGroup (s : ParserState) : Except Fault ParserState :=
  match s.groups with
  | [] => .error .unopenedAlternates
  | g :: rest =>
    let branches := (s.current.reverse :: g.branches).reverse
    .ok { s with groups := rest, current := .alternates branches :: g.outer }

/-- Two stars, with what follows them; answers what follows after that. -/
def doubleStar (s : ParserState) (rest : List Char) : ParserState × List Char :=
  let plain := ((s.push .zeroOrMore).push .zeroOrMore, rest)
  let grouped := !s.groups.isEmpty
  let put (last : Bool) : ParserState :=
    match s.current with
    | .recursiveStart :: _ => s
    | .recursiveEnd :: _ => s
    | _ :: before =>
      { s with current := (if last then .recursiveEnd else .recursiveMiddle) :: before }
    | [] => s
  if s.current.isEmpty then
    match rest with
    | [] => (s.push .recursiveStart, [])
    | '/' :: after => ({ s.push .recursiveStart with previous := some '/' }, after)
    | _ => plain
  else if s.previous ≠ some '/' ∧
      ¬(grouped ∧ (s.previous = some ',' ∨ s.previous = some '\x7b')) then
    plain
  else
    match rest with
    | [] => (put true, [])
    | '/' :: after => ({ put false with previous := some '/' }, after)
    | c :: _ => if grouped ∧ (c = ',' ∨ c = '\x7d') then (put true, rest) else plain

/-- Takes one character, and what belongs to it behind it. -/
def next (s : ParserState) (c : Char) (rest : List Char) : Except Fault (ParserState × List Char) :=
  if c = '?' then .ok ({ s.push .any with previous := some c }, rest)
  else if c = '*' then
    match rest with
    | '*' :: after =>
      let (t, left) := s.doubleStar after
      .ok (if left.length < after.length then t else { t with previous := some '*' }, left)
    | _ => .ok ({ s.push .zeroOrMore with previous := some c }, rest)
  else if c = '[' then
    let (negated, body) := match rest with
      | '!' :: after => (true, after)
      | '^' :: after => (true, after)
      | _ => (false, rest)
    match readClass [] true false body with
    | .error fault => .error fault
    | .ok (ranges, left) =>
      .ok ({ s.push (.charClass negated ranges.reverse) with previous := some ']' }, left)
  else if c = '\x7b' then .ok ({ s.openGroup with previous := some c }, rest)
  else if c = '\x7d' then
    match s.closeGroup with
    | .error fault => .error fault
    | .ok t => .ok ({ t with previous := some c }, rest)
  else if c = ',' then .ok ({ s.comma with previous := some c }, rest)
  else if c = '\\' then
    match rest with
    | [] => .error .danglingEscape
    | d :: after => .ok ({ s.push (.literal d) with previous := some d }, after)
  else .ok ({ s.push (.literal c) with previous := some c }, rest)

/-- Reads the characters of a pattern. Each step takes at least one, so as much fuel is enough. -/
def run : Nat → ParserState → List Char → Except Fault ParserState
  | _, s, [] => .ok s
  | 0, s, _ :: _ => .ok s
  | fuel + 1, s, c :: rest =>
    match s.next c rest with
    | .error fault => .error fault
    | .ok (t, left) => run fuel t left

end ParserState

def parse (text : String) : Except Fault Pattern :=
  let cs := text.toList
  match ParserState.start.run cs.length cs with
  | .error fault => .error fault
  | .ok s => if s.groups.isEmpty then .ok ⟨text, s.current.reverse⟩ else .error .unclosedAlternates

end EditorBridge.Glob
