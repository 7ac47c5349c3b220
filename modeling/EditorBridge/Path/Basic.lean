import EditorBridge.Text.Utf8
/-!
File paths as strings of bytes with `/` between components. Repeated separators, components that
are a single dot and a separator at the end carry no component, except that a dot at the very start
of a relative path is one; two dots stay as they are, since nothing here asks the file system.
-/
namespace EditorBridge

/-- A path, of which nothing is required; it need not be text. -/
structure Path where
  bytes : List UInt8
deriving DecidableEq, Repr, Inhabited

namespace Path

def separator : UInt8 := 0x2f

def dot : UInt8 := 0x2e

/-- The path that a text writes. -/
def ofString (s : String) : Path := ⟨Utf8.encode s.toList⟩

/-- The text of a path, with bytes that are no character replaced. -/
def display (p : Path) : String := Utf8.lossyString p.bytes

inductive Component where
  | root
  | current
  | parent
  | normal (name : List UInt8)
deriving DecidableEq, Repr

/-- Does the path begin at the root? -/
def isAbsolute (p : Path) : Bool := p.bytes.head? == some separator

/-- The component that the bytes between two separators make, if they make one. -/
def component? (name : List UInt8) : Option Component :=
  if name = [] ∨ name = [dot] then none
  else if name = [dot, dot] then some .parent
  else some (.normal name)

/-- The pieces between separators; `n` separators part `n + 1` pieces. -/
def pieces : List UInt8 → List (List UInt8)
  | [] => [[]]
  | b :: rest =>
    if b = separator then [] :: pieces rest
    else
      match pieces rest with
      | [] => [[b]]
      | piece :: more => (b :: piece) :: more

/-- Does a relative path begin with a dot that stands alone? -/
def startsWithDot (bytes : List UInt8) : Bool :=
  match bytes with
  | [b] => b == dot
  | b :: c :: _ => b == dot && c == separator
  | [] => false

/-- The component at the very start of a path, which no other place can have, and what follows. -/
def startComponent? (bytes : List UInt8) : Option Component × List UInt8 :=
  if bytes.head? = some separator then (some .root, bytes.drop 1)
  else if startsWithDot bytes then (some .current, bytes.drop 1)
  else (none, bytes)

/-- The components from left to right. -/
def components (p : Path) : List Component :=
  let (first, body) := startComponent? p.bytes
  first.toList ++ (pieces body).filterMap component?

/-- The path of `p` with `q` behind it. An absolute `q` stands alone; an empty one leaves only a
separator at the end. -/
def join (p q : Path) : Path :=
  if q.isAbsolute then q
  else if p.bytes = [] ∨ p.bytes.getLast? = some separator then ⟨p.bytes ++ q.bytes⟩
  else ⟨p.bytes ++ separator :: q.bytes⟩

/-- Joins a path that is given as a text. -/
def joinText (p : Path) (name : String) : Path := p.join (ofString name)

/-- Does one path begin with the components of the other? -/
def HasPrefix (p base : Path) : Prop := base.components <+: p.components

end Path
end EditorBridge
