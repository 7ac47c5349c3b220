import EditorBridge.Path.Relative
/-!
Glob patterns and what they match. A star and a question mark match separators too; two stars that
stand alone between separators match any number of whole directories. Matching works on bytes: the
places of a path that the pattern can have reached are carried along, one flag per place.
-/
namespace EditorBridge.Glob

inductive Token where
  | literal (c : Char)
  /-- Any one byte. -/
  | any
  | zeroOrMore
  /-- Two stars at the start: nothing, a separator, or anything that ends in one. -/
  | recursiveStart
  /-- Two stars at the end: a separator and anything. -/
  | recursiveEnd
  /-- Two stars between separators: a separator, or anything between two of them. -/
  | recursiveMiddle
  /-- One byte that is in one of the ranges, or in none of them. -/
  | charClass (negated : Bool) (ranges : List (Char × Char))
  | alternates (branches : List (List Token))
deriving Repr

/-- One flag per place of a path, from the place before its first byte to the one behind its last:
can the pattern so far have matched everything in front of that place? -/
abbrev Reach := List Bool

namespace Reach

/-- Only the place before the first byte is reached. -/
def start (n : Nat) : Reach := true :: List.replicate n false

/-- Moves over one byte that satisfies a condition. -/
def step (p : UInt8 → Bool) (bytes : List UInt8) (r : Reach) : Reach :=
  false :: List.zipWith (fun b here => here && p b) bytes r

/-- Moves over any number of bytes; `before` says whether an earlier place was reached. -/
def spread (before : Bool) : Reach → Reach
  | [] => []
  | here :: rest => (before || here) :: spread (before || here) rest

/-- The places reached in one way or the other. -/
def or (r s : Reach) : Reach := List.zipWith (· || ·) r s

def slash (bytes : List UInt8) (r : Reach) : Reach := step (· == Path.separator) bytes r

/-- Moves over the bytes of a character. -/
def char (c : Char) (bytes : List UInt8) (r : Reach) : Reach :=
  (Utf8.encodeChar c).foldl (fun r b => step (· == b) bytes r) r

/-- Is the whole path matched? -/
def full (r : Reach) : Bool := r.getLast?.getD false

end Reach

/-- Does a byte belong to a range of a class? The characters at the ends of a range stand for their
bytes: the range runs from the last byte of the one to the first byte of the other, and their
remaining bytes stand for themselves. -/
def inRange (b : UInt8) (range : Char × Char) : Bool :=
  let low := Utf8.encodeChar range.1
  let high := Utf8.encodeChar range.2
  if range.1 = range.2 then low.contains b
  else low.contains b || high.contains b ||
    (low.getLast?.getD 0 ≤ b && b ≤ high.head?.getD 0)

mutual

/-- Does the part match nothing but the empty text because it has no part of its own? -/
def Token.isVoid : Token → Bool
  | .alternates branches => areVoid branches
  | _ => false

def allVoid : List Token → Bool
  | [] => true
  | t :: rest => t.isVoid && allVoid rest

def areVoid : List (List Token) → Bool
  | [] => true
  | b :: rest => allVoid b && areVoid rest

end

mutual

/-- Moves over what a part matches. -/
def Token.move (bytes : List UInt8) (r : Reach) : Token → Reach
  | .literal c => r.char c bytes
  | .any => r.step (fun _ => true) bytes
  | .zeroOrMore => r.spread false
  | .recursiveStart => (r.or (r.slash bytes)).or ((r.spread false).slash bytes)
  | .recursiveEnd => (r.slash bytes).spread false
  | .recursiveMiddle => (r.slash bytes).or (((r.slash bytes).spread false).slash bytes)
  | .charClass negated ranges => r.step (fun b => (ranges.any (inRange b)) != negated) bytes
  | .alternates branches => if areVoid branches then r else moveBranches bytes r branches

/-- Moves over the parts one after the other. -/
def moveAll (bytes : List UInt8) (r : Reach) : List Token → Reach
  | [] => r
  | t :: rest => moveAll bytes (t.move bytes r) rest

/-- Moves over one of several patterns. One without any part does not count. -/
def moveBranches (bytes : List UInt8) (r : Reach) : List (List Token) → Reach
  | [] => r.map fun _ => false
  | b :: rest =>
    if allVoid b then moveBranches bytes r rest
    else (moveAll bytes r b).or (moveBranches bytes r rest)

end

def Token.isLiteral : Token → Bool
  | .literal _ => true
  | _ => false

def Token.isChar (c : Char) : Token → Bool
  | .literal d => c == d
  | _ => false

/-- Two stars at the start, and what follows them. -/
def behindStart : List Token → Bool × List Token
  | .recursiveStart :: rest => (true, rest)
  | tokens => (false, tokens)

/-- A star at the start, and what follows it. -/
def behindStar : List Token → Bool × List Token
  | .zeroOrMore :: rest => (true, rest)
  | tokens => (false, tokens)

/-- Is a pattern compared with the text at the end of a path, whatever the name there is? Such a
pattern is plain text, behind two stars and a separator that is not the last one, or behind a star.
A star with nothing but a dot behind it asks for a name that ends in one. -/
def matchesText (tokens : List Token) : Bool :=
  let (hasStart, rest) := behindStart tokens
  let (hasStar, text) := behindStar rest
  text.all Token.isLiteral &&
    if hasStar then text.length != 1 else !hasStart || text.any (Token.isChar '/')

/-- Does a pattern want a name with a dot at its end? -/
def asksForDottedName (tokens : List Token) : Bool :=
  tokens.getLast?.any (Token.isChar '.') && !matchesText tokens

/-- Is the last name of a path two dots? -/
def endsInParent (bytes : List UInt8) : Bool :=
  bytes.reverse.takeWhile (· ≠ Path.separator) = [46, 46]

/-- A pattern, and the text that it was read from. -/
structure Pattern where
  text : String
  tokens : List Token
deriving Repr

/-- Does the pattern match the whole of a path? Two stars alone match every path, and two dots at the
end of a path are no name. -/
def Pattern.matchesPath (p : Pattern) (path : Path) : Bool :=
  match p.tokens with
  | [.recursiveStart] => true
  | tokens =>
    !(asksForDottedName tokens && endsInParent path.bytes) &&
      (moveAll path.bytes (Reach.start path.bytes.length) tokens).full

end EditorBridge.Glob
