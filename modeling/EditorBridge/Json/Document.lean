import EditorBridge.Json.Value
/-!
A text read as JSON as far as it goes. A document keeps the members of an object in the order of the
text, repeated keys included, and marks the place where the text stops being JSON. So a reader of a
typed value that walks a document from left to right meets a misfit of the value and a fault of the
text in the order in which the text shows them.
-/
namespace EditorBridge

/-- How a text fails to be JSON: by a wrong character, or because it ends. -/
inductive TextFault where
  | malformed
  | endOfText
deriving DecidableEq, Repr, Inhabited

/-- What stands in the place of a value where the text is not JSON. -/
inductive Fragment where
  | absent
  | stray
  | word (fault : TextFault)
  | number (fault : TextFault)
  /-- A string without its closing quote. Half of a surrogate pair is a fault to who reads the
  string, but not to who passes it over; so both faults are kept. -/
  | string (read passed : TextFault)
deriving DecidableEq, Repr, Inhabited

namespace Fragment

/-- The fault met when the value is read. -/
def readFault : Fragment → TextFault
  | .absent => .endOfText
  | .stray => .malformed
  | .word fault => fault
  | .number fault => fault
  | .string read _ => read

/-- The fault met when the value is passed over: then a number may not break off at the end of the
text either. -/
def passFault : Fragment → TextFault
  | .absent => .endOfText
  | .stray => .malformed
  | .word fault => fault
  | .number _ => .malformed
  | .string _ passed => passed

end Fragment

/-- A JSON text as far as it could be read. -/
inductive Document where
  | null
  | bool (value : Bool)
  | number (value : Number)
  | string (value : String)
  /-- The items read, and the fault that ends them when the closing bracket was not reached. -/
  | array (items : List Document) (fault : Option TextFault)
  /-- The members read, and the fault that ends them when the closing brace was not reached. A key
  is a string; what stands in the place of a key and is none is kept as well, in the last member. -/
  | object (members : List (Document × Document)) (fault : Option TextFault)
  /-- A value that can be passed over but not read: a number too large, a string with half of a
  surrogate pair, an array or object nested too deeply, whose content is kept. -/
  | unreadable (content : Option Document)
  /-- Here the text stops being JSON. -/
  | broken (fragment : Fragment)
deriving Repr, Inhabited

namespace Document

/-- The fault met when a key is read. -/
def keyFault : Document → TextFault
  | .broken .absent => .endOfText
  | .broken (.string read _) => read
  | _ => .malformed

/-- The fault met when a key is passed over. -/
def skipKeyFault : Document → Option TextFault
  | .string _ => none
  | .unreadable none => none
  | .broken .absent => some .endOfText
  | .broken (.string _ passed) => some passed
  | _ => some .malformed

mutual

/-- The fault met when the value is passed over without being read. -/
def skipFault : Document → Option TextFault
  | .array items fault => (skipFaultItems items).or fault
  | .object members fault => (skipFaultMembers members).or fault
  | .unreadable none => none
  | .unreadable (some content) => skipFault content
  | .broken fragment => some fragment.passFault
  | _ => none

def skipFaultItems : List Document → Option TextFault
  | [] => none
  | x :: rest => (skipFault x).or (skipFaultItems rest)

def skipFaultMembers : List (Document × Document) → Option TextFault
  | [] => none
  | (key, v) :: rest => (skipKeyFault key).or ((skipFault v).or (skipFaultMembers rest))

end

mutual

/-- The value of a document; the last of equal keys counts. -/
def toJson : Document → Except TextFault Json
  | .null => .ok .null
  | .bool b => .ok (.bool b)
  | .number n => .ok (.number n)
  | .string s => .ok (.string s)
  | .array items fault => do
    let values ← toJsonItems items
    match fault with
    | none => .ok (.array values)
    | some f => .error f
  | .object members fault => do
    let values ← toJsonMembers members
    match fault with
    | none => .ok (Json.ofMembers values)
    | some f => .error f
  | .unreadable _ => .error .malformed
  | .broken fragment => .error fragment.readFault

/-- The values of items, up to the first fault. -/
def toJsonItems : List Document → Except TextFault (List Json)
  | [] => .ok []
  | x :: rest => do
    let v ← toJson x
    let vs ← toJsonItems rest
    .ok (v :: vs)

/-- The values of members in their order, up to the first fault. -/
def toJsonMembers : List (Document × Document) → Except TextFault (List (String × Json))
  | [] => .ok []
  | (.string k, x) :: rest => do
    let v ← toJson x
    let vs ← toJsonMembers rest
    .ok ((k, v) :: vs)
  | (key, _) :: _ => .error key.keyFault

end

mutual

/-- The document of a value, in which nothing is broken. -/
def ofJson : Json → Document
  | .null => .null
  | .bool b => .bool b
  | .number n => .number n
  | .string s => .string s
  | .array items => .array (ofJsonItems items) none
  | .object members => .object (ofJsonMembers members) none

def ofJsonItems : List Json → List Document
  | [] => []
  | x :: rest => ofJson x :: ofJsonItems rest

def ofJsonMembers : List (String × Json) → List (Document × Document)
  | [] => []
  | (k, v) :: rest => (.string k, ofJson v) :: ofJsonMembers rest

end

end Document
end EditorBridge
