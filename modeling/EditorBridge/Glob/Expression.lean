import EditorBridge.Glob.Pattern
/-!
Patterns as regular expressions. Patterns that plain text cannot stand for are matched as expressions,
whose text shows when one of them is refused. An expression may nest only so deep: groups, choices,
sequences, repetitions and classes count one level each, and the parts of a class one more.
-/
namespace EditorBridge.Glob

/-- Has the character a meaning of its own in expressions? -/
def hasMeaning (c : Char) : Bool := "\\.+*?()|[]\x7b\x7d^$#&-~".toList.contains c

/-- A byte that is no ASCII character is written by its number. -/
def byteExpression (b : UInt8) : List Char :=
  if b < 0x80 then
    let c := Char.ofNat b.toNat
    if hasMeaning c then ['\\', c] else [c]
  else '\\' :: 'x' :: Nat.toDigits 16 b.toNat

/-- A character stands for its bytes. -/
def charExpression (c : Char) : List Char := (Utf8.encodeChar c).flatMap byteExpression

/-- A range of one character is written as that character. -/
def rangeExpression (range : Char × Char) : List Char :=
  if range.1 = range.2 then charExpression range.1
  else charExpression range.1 ++ '-' :: charExpression range.2

mutual

/-- A part of a pattern as an expression. -/
def Token.expression : Token → List Char
  | .literal c => charExpression c
  | .any => ".".toList
  | .zeroOrMore => ".*".toList
  | .recursiveStart => "(?:/?|.*/)".toList
  | .recursiveEnd => "/.*".toList
  | .recursiveMiddle => "(?:/|/.*/)".toList
  | .charClass negated ranges =>
    '[' :: (if negated then ['^'] else []) ++ ranges.flatMap rangeExpression ++ [']']
  | .alternates branches =>
    if areVoid branches then []
    else "(?:".toList ++ ['|'].intercalate (branchExpressions branches) ++ [')']

/-- The parts one after the other. -/
def sequenceExpression : List Token → List Char
  | [] => []
  | t :: rest => t.expression ++ sequenceExpression rest

/-- The branches of a group that have a part. -/
def branchExpressions : List (List Token) → List (List Char)
  | [] => []
  | b :: rest =>
    if allVoid b then branchExpressions rest else sequenceExpression b :: branchExpressions rest

end

/-- The expression of a whole pattern; it matches bytes, from the first to the last. -/
def expression (tokens : List Token) : String :=
  let body := match tokens with
    | [.recursiveStart] => ".*".toList
    | tokens => sequenceExpression tokens
  "(?-u)^" ++ String.ofList body ++ "$"

/-- How many parts of a sequence a part of a pattern becomes. -/
def Token.width : Token → Nat
  | .literal c => (Utf8.encodeChar c).length
  | .recursiveEnd => 2
  | .alternates branches => if areVoid branches then 0 else 1
  | _ => 1

/-- A sequence of one part is that part. -/
def sequenceLevel (tokens : List Token) : Nat :=
  if 2 ≤ (tokens.map Token.width).foldl Nat.add 0 then 1 else 0

/-- How many parts a range of a class becomes: the bytes of a character, or of two of which the
inner ones make one range. -/
def rangeWidth (range : Char × Char) : Nat :=
  if range.1 = range.2 then (Utf8.encodeChar range.1).length
  else (Utf8.encodeChar range.1).length + (Utf8.encodeChar range.2).length - 1

mutual

/-- How deep the expression of a part nests. -/
def Token.levels : Token → Nat
  | .literal _ | .any => 0
  | .zeroOrMore | .recursiveEnd => 1
  | .charClass _ ranges => if 2 ≤ (ranges.map rangeWidth).foldl Nat.add 0 then 2 else 1
  | .recursiveStart | .recursiveMiddle => 4
  | .alternates branches =>
    let choice := if 2 ≤ (branches.filter fun b => !allVoid b).length then 1 else 0
    if areVoid branches then 0 else 1 + choice + levelsOfBranches branches

/-- The deepest of some parts. -/
def levelsOfParts : List Token → Nat
  | [] => 0
  | t :: rest => max t.levels (levelsOfParts rest)

/-- The deepest of some branches, with the level that a sequence adds. -/
def levelsOfBranches : List (List Token) → Nat
  | [] => 0
  | b :: rest => max (sequenceLevel b + levelsOfParts b) (levelsOfBranches rest)

end

/-- How deep an expression may nest. -/
def nestingLimit : Nat := 250

/-- Does the expression of a pattern nest too deep? The expression is a sequence, because it has a
beginning and an end. -/
def nestsTooDeep (tokens : List Token) : Bool := nestingLimit < 1 + levelsOfParts tokens

end EditorBridge.Glob
