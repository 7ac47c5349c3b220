import EditorBridge.Path.Basic
/-!
File URIs. The name of each component is written between slashes, with every byte escaped that a
path segment does not show as it is. Four characters are left as they are although the strict
grammar of URIs does not allow them in a path, so a path that holds one of them has no file URI.
-/
namespace EditorBridge.Uri

/-- Is the byte written as it is? The rest of the visible characters, the space, the controls and
everything beyond ASCII are escaped. -/
def isPlain (b : UInt8) : Bool :=
  0x21 ≤ b && b ≤ 0x7e &&
    !"\"<>`#?\x7b\x7d/%\\".toList.any fun c => c.toNat == b.toNat

/-- Does the strict grammar allow the byte in a path segment? -/
def isSegmentByte (b : UInt8) : Bool :=
  (0x30 ≤ b && b ≤ 0x39) || (0x41 ≤ b && b ≤ 0x5a) || (0x61 ≤ b && b ≤ 0x7a) ||
    "-._~!$&'()*+,;=:@".toList.any fun c => c.toNat == b.toNat

/-- A hexadecimal digit in upper case. -/
def upperHex (n : UInt8) : UInt8 := if n < 10 then 0x30 + n else 0x37 + n

/-- A byte as it stands in a URI. -/
def escapeByte (b : UInt8) : List UInt8 :=
  if isPlain b then [b] else [0x25, upperHex (b / 16), upperHex (b % 16)]

/-- A name as it stands in a URI. -/
def escapeName (name : List UInt8) : List UInt8 := name.flatMap escapeByte

/-- The name of a component; dots are written as they are. -/
def componentName : Path.Component → List UInt8
  | .root => []
  | .current => [Path.dot]
  | .parent => [Path.dot, Path.dot]
  | .normal name => name

/-- The names behind the root. -/
def names (p : Path) : List (List UInt8) := (p.components.drop 1).map componentName

/-- The path of a URI: a slash in front of every name, or one slash when there is no name. -/
def pathBytes (ns : List (List UInt8)) : List UInt8 :=
  match ns with
  | [] => [Path.separator]
  | _ => ns.flatMap fun name => Path.separator :: escapeName name

def asciiText (bytes : List UInt8) : String :=
  String.ofList (bytes.map fun b => Char.ofNat b.toNat)

/-- The file URI of an absolute path; none for a relative path and for one with a byte that is left
plain but not allowed. -/
def ofPath? (p : Path) : Option String :=
  if p.isAbsolute ∧ (names p).all (fun name => name.all fun b => !isPlain b || isSegmentByte b) then
    some ("file://" ++ asciiText (pathBytes (names p)))
  else none

end EditorBridge.Uri
