import EditorBridge.Net.Address
/-!
The grammar of URI references: scheme, authority, path, query and fragment, each of which may be
missing. A text that is no reference has a fault with the place at which reading stopped.
-/
namespace EditorBridge.Uri

/-- What is wrong with a text as a URI reference, and at which byte. -/
inductive ReferenceFault where
  | octet (index : Nat)
  | character (index : Nat)
  | literal (index : Nat)
deriving DecidableEq, Repr

def ReferenceFault.message : ReferenceFault → String
  | .octet i => "invalid percent-encoded octet at index " ++ toString i
  | .character i => "unexpected character at index " ++ toString i
  | .literal i => "invalid IP literal at index " ++ toString i

/-- What is left of a text, and how many bytes stand before it. -/
structure Rest where
  index : Nat
  text : List Char

/-- Characters that mean themselves everywhere. -/
def isUnreserved (c : Char) : Bool := c.isAlphanum || "-._~".toList.contains c

/-- Characters that may part the pieces of a component. -/
def isSubDelimiter (c : Char) : Bool := "!$&'()*+,;=".toList.contains c

/-- Characters of a scheme behind its first one, which is a letter. -/
def isSchemeChar (c : Char) : Bool := c.isAlphanum || "+-.".toList.contains c

/-- Characters of a host that is given by name. -/
def isNameChar (c : Char) : Bool := isUnreserved c || isSubDelimiter c

/-- Characters of a first segment that must not be taken for a scheme. -/
def isPlainSegmentChar (c : Char) : Bool := isNameChar c || c == '@'

def isPathChar (c : Char) : Bool := isPlainSegmentChar c || c == ':' || c == '/'

/-- Characters of a query or a fragment. -/
def isQueryChar (c : Char) : Bool := isPathChar c || c == '?'

def isHexDigit (c : Char) : Bool :=
  c.isDigit || ('a' ≤ c && c ≤ 'f') || ('A' ≤ c && c ≤ 'F')

/-- Passes over allowed characters and escaped bytes. -/
def passEscaped (allowed : Char → Bool) (index : Nat) : List Char → Except ReferenceFault Rest
  | '%' :: a :: b :: rest =>
    if isHexDigit a && isHexDigit b then passEscaped allowed (index + 3) rest
    else .error (.octet index)
  | '%' :: _ => .error (.octet index)
  | c :: rest => if allowed c then passEscaped allowed (index + 1) rest else .ok ⟨index, c :: rest⟩
  | [] => .ok ⟨index, []⟩

/-- Passes over a query or a fragment, if there is one. -/
def passMarked (mark : Char) (r : Rest) : Except ReferenceFault Rest :=
  match r.text with
  | c :: rest => if c = mark then passEscaped isQueryChar (r.index + 1) rest else .ok r
  | [] => .ok r

/-- A query and a fragment may follow, and nothing else. -/
def checkTail (r : Rest) : Except ReferenceFault Unit := do
  let r ← passMarked '?' r
  let r ← passMarked '#' r
  if r.text.isEmpty then .ok () else .error (.character r.index)

/-- A path behind an authority is empty or begins with a slash. -/
def checkRooted (r : Rest) : Except ReferenceFault Unit := do
  let after ← passEscaped isPathChar r.index r.text
  if after.index ≠ r.index ∧ r.text.head? ≠ some '/' then .error (.character r.index)
  else checkTail after

/-- Passes over a colon and digits, of which there may be none. -/
def passPort (r : Rest) : Rest :=
  match r.text with
  | ':' :: rest =>
    let digits := rest.takeWhile Char.isDigit
    ⟨r.index + 1 + digits.length, rest.drop digits.length⟩
  | _ => r

/-- Passes over an address in brackets or a name. -/
def passHost (r : Rest) : Except ReferenceFault Rest :=
  match r.text with
  | '[' :: rest =>
    match Net.readV6? rest with
    | some (_, ']' :: after) => .ok ⟨r.index + (r.text.length - after.length), after⟩
    | _ => .error (.literal r.index)
  | text => passEscaped isNameChar r.index text

/-- A host by name and its port, which stand alone in an authority. A colon that is not the only one
is a fault in its first place, and a port is looked at from its end. -/
def checkNamed (index : Nat) (authority : List Char) : Except ReferenceFault Unit :=
  match authority.count ':' with
  | 0 => .ok ()
  | 1 =>
    let host := authority.reverse.dropWhile Char.isDigit
    if host.head? = some ':' then .ok () else .error (.character (index + host.length - 1))
  | _ => .error (.character (index + (authority.takeWhile (· != ':')).length))

/-- An authority may begin with user information in front of an at sign. -/
def checkAuthority (r : Rest) : Except ReferenceFault Unit := do
  let after ← passEscaped (fun c => isNameChar c || c == ':') r.index r.text
  match after.text with
  | '@' :: rest =>
    let host ← passHost ⟨after.index + 1, rest⟩
    checkRooted (passPort host)
  | _ =>
    if after.index = r.index then
      let host ← passHost r
      checkRooted (passPort host)
    else
      checkNamed r.index (r.text.take (after.index - r.index))
      checkRooted after

/-- A path without a scheme has no colon in its first segment. -/
def checkSchemeless (r : Rest) : Except ReferenceFault Unit := do
  let r ← passEscaped isPlainSegmentChar r.index r.text
  if r.text.head? = some ':' then .error (.character r.index)
  else
    let r ← passEscaped isPathChar r.index r.text
    checkTail r

/-- What follows a scheme: an authority behind two slashes, or a path. -/
def checkHierarchy (r : Rest) : Except ReferenceFault Unit :=
  match r.text with
  | '/' :: '/' :: rest => checkAuthority ⟨r.index + 2, rest⟩
  | text => do
    let r ← passEscaped isPathChar r.index text
    checkTail r

/-- Is a text a reference, and if not, where does reading stop? -/
def checkReference (text : String) : Except ReferenceFault Unit :=
  let scheme := text.toList.takeWhile isSchemeChar
  let rest := text.toList.drop scheme.length
  match scheme, rest with
  | [], ':' :: _ => .error (.character 0)
  | first :: _, ':' :: after =>
    if first.isAlpha then checkHierarchy ⟨scheme.length + 1, after⟩ else .error (.character 0)
  | [], '/' :: '/' :: after => checkAuthority ⟨2, after⟩
  | _, _ => checkSchemeless ⟨scheme.length, rest⟩

end EditorBridge.Uri
