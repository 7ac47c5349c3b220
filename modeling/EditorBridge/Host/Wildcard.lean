/-!
Patterns of the shell. A star stands for any text, a question mark for one character, and a set in
square brackets for one of its characters; what was quoted stands for itself.
-/
namespace EditorBridge.Host

/-- A character of a pattern, and whether it may stand for others. -/
abbrev PatternChar := Char × Bool

def unquotedPattern (text : List Char) : List PatternChar := text.map (·, true)

/-- Is a character in the set that some characters describe? Ranges are written with a hyphen. -/
def inSet (c : Char) : List Char → Bool
  | a :: '-' :: b :: rest => (a ≤ c && c ≤ b) || inSet c rest
  | a :: rest => a == c || inSet c rest
  | [] => false

/-- Reads a set behind its opening bracket; a closing bracket that comes first belongs to it. -/
def readSet? (p : List PatternChar) : Option (Bool × List Char × List PatternChar) :=
  let (negated, p) := match p with
    | ('!', true) :: p => (true, p)
    | p => (false, p)
  let members := p.take 1 ++ (p.drop 1).takeWhile (· != (']', true))
  match p.drop members.length with
  | _ :: rest => some (negated, members.map (·.1), rest)
  | [] => none

/-- Does a text match a pattern? The fuel is more than the lengths of both. -/
def wildcardMatches : Nat → List PatternChar → List Char → Bool
  | 0, _, _ => false
  | _, [], s => s.isEmpty
  | fuel + 1, ('*', true) :: p, s =>
    wildcardMatches fuel p s ||
      match s with
      | [] => false
      | _ :: s => wildcardMatches fuel (('*', true) :: p) s
  | fuel + 1, ('?', true) :: p, _ :: s => wildcardMatches fuel p s
  | fuel + 1, (a, special) :: p, c :: s =>
    match if special && a = '[' then readSet? p else none with
    | some (negated, members, p) => inSet c members != negated && wildcardMatches fuel p s
    | none => a == c && wildcardMatches fuel p s
  | _, _ :: _, [] => false

def isMatch (p : List PatternChar) (s : List Char) : Bool :=
  wildcardMatches (p.length + s.length + 1) p s

/-- Cuts the longest or shortest end off a text that matches. -/
def cutEnd (longest : Bool) (p : List PatternChar) (s : List Char) : List Char :=
  let lengths := List.range (s.length + 1)
  let kept := (if longest then lengths else lengths.reverse).find? fun n => isMatch p (s.drop n)
  (kept.map s.take).getD s

/-- Cuts the longest or shortest beginning off a text that matches. -/
def cutStart (longest : Bool) (p : List PatternChar) (s : List Char) : List Char :=
  let lengths := List.range (s.length + 1)
  let cut := (if longest then lengths.reverse else lengths).find? fun n => isMatch p (s.take n)
  (cut.map s.drop).getD s

end EditorBridge.Host
