import EditorBridge.Glob.Expression
/-!
Which patterns are matched as expressions, and which of them is refused first because it nests too
deep. A pattern that plain text stands for needs no expression. One that asks for an extension has an
expression of its own; all others are put together into one.
-/
namespace EditorBridge.Glob

/-- Does a pattern end in an extension that every path it matches has? -/
def endsInExtension (tokens : List Token) : Bool :=
  let name := (tokens.reverse.takeWhile fun t => t.isLiteral && !t.isChar '/')
  name.any (Token.isChar '.')

/-- Is a pattern text at the end of a path, behind at most two stars and a star? A star in front of
a separator alone does not count. -/
def isTextAtEnd (tokens : List Token) : Bool :=
  let (_, rest) := behindStart tokens
  let (hasStar, text) := behindStar rest
  text.all Token.isLiteral && !text.isEmpty &&
    !(hasStar && text.length == 1 && text.any (Token.isChar '/'))

/-- Is a pattern text at the start of a path, with a star or two behind it? -/
def isTextAtStart (tokens : List Token) : Bool :=
  match tokens.reverse with
  | .zeroOrMore :: before => before.all Token.isLiteral && !before.isEmpty
  | .recursiveEnd :: before => before.all Token.isLiteral
  | _ => false

/-- Does the part match one character of a name? -/
def Token.isOfName : Token → Bool
  | .literal c => c != '/'
  | .charClass negated _ => !negated
  | _ => false

/-- Is a pattern a name anywhere, each character of which is one of a few? -/
def isName (tokens : List Token) : Bool :=
  let (hasStart, name) := behindStart tokens
  hasStart && !name.isEmpty && name.all Token.isOfName

/-- Does plain text stand for the pattern? -/
def isPlain (tokens : List Token) : Bool :=
  isTextAtEnd tokens || isTextAtStart tokens || isName tokens

/-- Which pattern is refused: one alone, or one of those that are put together, by its place. -/
inductive TooDeep where
  | alone (expression : String)
  | together (place : Nat)
deriving DecidableEq, Repr

def TooDeep.reason : TooDeep → String
  | .alone expression => "error parsing glob '" ++ expression ++ "': error parsing pattern 0"
  | .together place => "error parsing pattern " ++ toString place

/-- The first place where some patterns nest too deep. Those with expressions of their own are
looked at first. -/
def tooDeep? (patterns : List Pattern) : Option TooDeep :=
  let expressions := (patterns.map Pattern.tokens).filter fun tokens => !isPlain tokens
  let (single, joint) := expressions.partition endsInExtension
  match single.find? nestsTooDeep with
  | some tokens => some (.alone (expression tokens))
  | none => (joint.findIdx? nestsTooDeep).map .together

end EditorBridge.Glob
