import EditorBridge.Host.Syntax
/-!
The arithmetic of the shell: whole numbers, with the usual operators and brackets, and variables by
their names. What is no number counts as zero.
-/
namespace EditorBridge.Host

def skipBlanks (s : List Char) : List Char := s.dropWhile fun c => c = ' ' || c = '\t' || c = '\n'

/-- The whole number that a text denotes; zero when it denotes none. -/
def numberOf (s : List Char) : Int := (String.ofList (skipBlanks s)).toInt?.getD 0

def truth (b : Bool) : Int := if b then 1 else 0

/-- The operators of arithmetic by how tightly they bind, longer ones first. -/
def operators : List (List (String × (Int → Int → Int))) := [
  [("||", fun a b => truth (a != 0 || b != 0))],
  [("&&", fun a b => truth (a != 0 && b != 0))],
  [("==", fun a b => truth (a == b)), ("!=", fun a b => truth (a != b))],
  [("<=", fun a b => truth (a ≤ b)), (">=", fun a b => truth (b ≤ a)),
    ("<", fun a b => truth (a < b)), (">", fun a b => truth (b < a))],
  [("+", fun a b => a + b), ("-", fun a b => a - b)],
  [("*", fun a b => a * b), ("/", Int.tdiv), ("%", Int.tmod)]]

mutual

/-- The value of an expression whose operators bind at least as tightly as the first level, and what
follows it. -/
def evaluate (value : List Char → List Char) :
    Nat → List (List (String × (Int → Int → Int))) → List Char → Int × List Char
  | 0, _, s => (0, s)
  | fuel + 1, [], s => evaluateLeaf value fuel (skipBlanks s)
  | fuel + 1, level :: tighter, s =>
    let (first, s) := evaluate value fuel tighter s
    evaluateMore value fuel level tighter first s

/-- Goes on from left to right with operators of one level. -/
def evaluateMore (value : List Char → List Char) :
    Nat → List (String × (Int → Int → Int)) → List (List (String × (Int → Int → Int))) → Int →
      List Char → Int × List Char
  | 0, _, _, first, s => (first, s)
  | fuel + 1, level, tighter, first, s =>
    let s := skipBlanks s
    match level.find? fun op => op.1.toList.isPrefixOf s with
    | none => (first, s)
    | some (name, op) =>
      let (second, s) := evaluate value fuel tighter (s.drop name.length)
      evaluateMore value fuel level tighter (op first second) s

/-- A number, a variable, a sign, or an expression in brackets. -/
def evaluateLeaf (value : List Char → List Char) : Nat → List Char → Int × List Char
  | 0, s => (0, s)
  | fuel + 1, '(' :: s =>
    let (v, s) := evaluate value fuel operators s
    (v, (skipBlanks s).drop 1)
  | fuel + 1, '-' :: s =>
    let (v, s) := evaluateLeaf value fuel (skipBlanks s)
    (-v, s)
  | fuel + 1, '+' :: s => evaluateLeaf value fuel (skipBlanks s)
  | fuel + 1, '!' :: s =>
    let (v, s) := evaluateLeaf value fuel (skipBlanks s)
    (truth (v == 0), s)
  | fuel + 1, '$' :: s => evaluateLeaf value fuel s
  | _ + 1, s =>
    let digits := s.takeWhile Char.isDigit
    if digits.isEmpty then
      let name := s.takeWhile isNameChar
      (numberOf (value name), s.drop (max name.length 1))
    else (numberOf digits, s.drop digits.length)

end

end EditorBridge.Host
