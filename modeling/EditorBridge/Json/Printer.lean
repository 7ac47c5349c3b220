import EditorBridge.Json.Value
/-!
The compact text of a JSON value: no space between tokens, and in strings only the quote, the
backslash and the control characters below U+0020 are escaped.
-/
namespace EditorBridge.Json

/-- A hexadecimal digit in lower case. -/
def hexDigit (n : Nat) : Char := Nat.digitChar (n % 16)

/-- A character as it stands between quotes. -/
def escapeChar (c : Char) : List Char :=
  if c = '"' then ['\\', '"']
  else if c = '\\' then ['\\', '\\']
  else if c = '\x08' then ['\\', 'b']
  else if c = '\t' then ['\\', 't']
  else if c = '\n' then ['\\', 'n']
  else if c = '\x0c' then ['\\', 'f']
  else if c = '\r' then ['\\', 'r']
  else if c.toNat < 0x20 then ['\\', 'u', '0', '0', hexDigit (c.toNat / 16), hexDigit c.toNat]
  else [c]

/-- Writes a string between quotes. -/
def writeString (out : String) (s : String) : String :=
  (s.toList.foldl (fun acc c => (escapeChar c).foldl String.push acc) (out.push '"')).push '"'

mutual

/-- Writes a value after what is already there. -/
def write (out : String) : Json → String
  | .null => out ++ "null"
  | .bool true => out ++ "true"
  | .bool false => out ++ "false"
  | .number n => out ++ n.text
  | .string s => writeString out s
  | .array items => (writeItems (out.push '[') true items).push ']'
  | .object members => (writeMembers (out.push '\x7b') true members).push '\x7d'

/-- Writes items with commas between them; `first` tells that no comma is needed yet. -/
def writeItems (out : String) (first : Bool) : List Json → String
  | [] => out
  | x :: rest => writeItems (write (if first then out else out.push ',') x) false rest

/-- Writes members as `writeItems` writes items. -/
def writeMembers (out : String) (first : Bool) : List (String × Json) → String
  | [] => out
  | (k, v) :: rest =>
    let out := writeString (if first then out else out.push ',') k
    writeMembers (write (out.push ':') v) false rest

end

def text (value : Json) : String := write "" value

/-- The compact text of a record: an object whose members stand in the given order. -/
def recordText (members : List (String × Json)) : String :=
  (writeMembers (String.singleton '\x7b') true members).push '\x7d'

end EditorBridge.Json
