import EditorBridge.Text.Blank
import EditorBridge.Text.Digits
/-!
The header block in front of a message. The first line with a colon whose name is Content-Length, in
any letter case and with space around it, decides; all other lines are irrelevant.
-/
namespace EditorBridge.Frame

/-- What is wrong with the front of a text. -/
inductive Fault where
  | missingLength
  /-- The length ends inside a character of the text. -/
  | splitCharacter
  /-- The value given is no whole number of 64 bits. -/
  | invalidLength (value : String)
  | tooLarge (size : Nat)
deriving DecidableEq, Repr, Inhabited

/-- The most bytes that a message may have. -/
def maxSize : Nat := 16 * 1024 * 1024

/-- The greatest length that can be written at all. -/
def maxLength : Nat := Nat.pow 2 64 - 1

def Fault.message : Fault → String
  | .missingLength => "Invalid message format: Missing Content-Length header"
  | .splitCharacter =>
    "Invalid message format: Content-Length does not end on a character boundary"
  | .invalidLength value => "Invalid content length: " ++ value
  | .tooLarge size =>
    "Message too large: " ++ toString size ++ " bytes (max: " ++ toString maxSize ++ ")"

/-- The lines of a block, which are separated by carriage return and line feed. -/
def lines : List Char → List (List Char)
  | [] => [[]]
  | '\r' :: '\n' :: rest => [] :: lines rest
  | c :: rest =>
    match lines rest with
    | [] => [[c]]
    | line :: more => (c :: line) :: more

/-- The text on both sides of the first colon; none when there is no colon. -/
def splitColon : List Char → Option (List Char × List Char)
  | [] => none
  | ':' :: rest => some ([], rest)
  | c :: rest => (splitColon rest).map fun parts => (c :: parts.1, parts.2)

/-- The name of the header that counts, in lower case. -/
def lengthName : List Char := "content-length".toList

/-- What a line gives as the length, if it gives one. -/
def lengthValue? (line : List Char) : Option (List Char) :=
  match splitColon line with
  | none => none
  | some (name, value) =>
    if (Text.trimChars name).map Char.toLower = lengthName then some (Text.trimChars value)
    else none

/-- A number that is too large for a message is a fault of its own. -/
def parseLength (value : List Char) : Except Fault Nat :=
  match Text.boundedNat? maxLength value with
  | none => .error (.invalidLength (String.ofList value))
  | some n => if maxSize < n then .error (.tooLarge n) else .ok n

/-- The length that a block announces. -/
def contentLength (header : List Char) : Except Fault Nat :=
  match (lines header).findSome? lengthValue? with
  | none => .error .missingLength
  | some value => parseLength value

end EditorBridge.Frame
