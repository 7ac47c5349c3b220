import EditorBridge.Json.Parser
import EditorBridge.Text.Quoted
/-!
Reading typed values out of JSON documents. A record is read from an object, its members in the
order of the text, or from an array, its fields in the order of their declaration. The first misfit
or fault of the text that this order meets is the answer.
-/
namespace EditorBridge

/-- What stands where something else is expected. -/
inductive Found where
  | null
  | bool (value : Bool)
  | number (value : Number)
  | string (value : String)
  | sequence
  | map
deriving Repr

/-- How it is named in a message; texts are quoted, lists and objects only named. -/
def Found.text : Found → String
  | .null => "null"
  | .bool b => "boolean `" ++ toString b ++ "`"
  | .number (.integer i) => "integer `" ++ toString i ++ "`"
  | .number (.real x) => "floating point `" ++ x.text ++ "`"
  | .string s => "string " ++ Text.quoted s
  | .sequence => "sequence"
  | .map => "map"

/-- How a value fails to be what is read. -/
inductive Misfit where
  | invalidType (found : Found) (expected : String)
  | invalidValue (found : Found) (expected : String)
  | invalidLength (length : Nat) (expected : String)
  | missingField (name : String)
  | duplicateField (name : String)
  | unknownVariant (name : String) (variants : List String)
  /-- The text of a value does not follow its own grammar. -/
  | invalidText (reason : String)
deriving Repr

def ticked (name : String) : String := "`" ++ name ++ "`"

/-- The alternatives, as a message lists them. -/
def variantList : List String → String
  | [] => "there are no variants"
  | [a] => "expected " ++ ticked a
  | [a, b] => "expected " ++ ticked a ++ " or " ++ ticked b
  | variants => "expected one of " ++ ", ".intercalate (variants.map ticked)

/-- The words in which a misfit is told. -/
def Misfit.message : Misfit → String
  | .invalidType found expected => "invalid type: " ++ found.text ++ ", expected " ++ expected
  | .invalidValue found expected => "invalid value: " ++ found.text ++ ", expected " ++ expected
  | .invalidLength n expected => "invalid length " ++ toString n ++ ", expected " ++ expected
  | .missingField name => "missing field " ++ ticked name
  | .duplicateField name => "duplicate field " ++ ticked name
  | .unknownVariant name variants =>
    "unknown variant " ++ ticked name ++ ", " ++ variantList variants
  | .invalidText reason => reason

/-- Either the text is no JSON, or the value does not fit. -/
inductive DecodeFault where
  | text (fault : TextFault)
  | misfit (misfit : Misfit)
deriving Repr

/-- Where a document comes from. It decides what is said of surplus items and of a value that cannot
name a variant. -/
inductive Origin where
  | text
  | tree
  /-- The remaining content of a value whose tag was looked for first. -/
  | tagged
deriving DecidableEq, Repr

/-- A value that was read, or why it was not. -/
abbrev Decoded (α : Type) := Except DecodeFault α

namespace Document

/-- What stands here, or the fault of the text that keeps one from telling. -/
def found : Document → Except TextFault Found
  | .null => .ok .null
  | .bool b => .ok (.bool b)
  | .number n => .ok (.number n)
  | .string s => .ok (.string s)
  | .array _ _ => .ok .sequence
  | .object _ _ => .ok .map
  | .unreadable (some content) => content.found
  | .unreadable none => .error .malformed
  | .broken fragment => .error fragment.readFault

/-- Something else was expected here. -/
def wrongType {α : Type} (expected : String) (d : Document) : Decoded α :=
  match d.found with
  | .ok found => .error (.misfit (.invalidType found expected))
  | .error fault => .error (.text fault)

def readAny (d : Document) : Decoded Json :=
  match d.toJson with
  | .ok value => .ok value
  | .error fault => .error (.text fault)

def readText : Document → Decoded String
  | .string s => .ok s
  | d => d.wrongType "a string"

def readBool : Document → Decoded Bool
  | .bool b => .ok b
  | d => d.wrongType "a boolean"

/-- Reads a whole number within bounds; one outside them has the right type but not a right value.
-/
def readInt (low high : Int) (expected : String) : Document → Decoded Int
  | .number (.integer i) =>
    if low ≤ i ∧ i ≤ high then .ok i
    else .error (.misfit (.invalidValue (.number (.integer i)) expected))
  | d => d.wrongType expected

def readInt64 : Document → Decoded Int := readInt (-Int.pow 2 63) (Int.pow 2 63 - 1) "i64"

def readInt32 : Document → Decoded Int := readInt (-Int.pow 2 31) (Int.pow 2 31 - 1) "i32"

def readUInt16 (d : Document) : Decoded UInt16 :=
  (fun i => UInt16.ofNat i.toNat) <$> readInt 0 (Int.pow 2 16 - 1) "u16" d

/-- Null stands for what is not there. -/
def readOptional {α : Type} (read : Document → Decoded α) : Document → Decoded (Option α)
  | .null => .ok none
  | d => some <$> read d

/-- Reads items in their order, up to the first that does not fit. -/
def readEach {α : Type} (read : Document → Decoded α) : List Document → Decoded (List α)
  | [] => .ok []
  | x :: rest => do
    let v ← read x
    let vs ← readEach read rest
    return v :: vs

/-- Reads a list. A fault of the text behind the items is met when they are read. -/
def readList {α : Type} (read : Document → Decoded α) : Document → Decoded (List α)
  | .array items fault => do
    let values ← readEach read items
    match fault with
    | none => .ok values
    | some f => .error (.text f)
  | .unreadable (some (.array _ _)) => .error (.text .malformed)
  | d => d.wrongType "a sequence"

/-- Reads an object with whatever members it has. -/
def readMap (d : Document) : Decoded (Keyed Json) :=
  match d with
  | .object _ _ => do
    match ← d.readAny with
    | .object members => .ok members
    | _ => .ok []
  | .unreadable (some (.object _ _)) => .error (.text .malformed)
  | d => d.wrongType "a map"

end Document

/-- Where a field of a record has to be there. -/
inductive Presence where
  | required
  /-- In an object, but not in an array. -/
  | byName
  | free
deriving DecidableEq, Repr

/-- A field: its name, and how its value is taken into the record. -/
structure RecordField (σ : Type) where
  name : String
  presence : Presence
  read : σ → Document → Decoded σ

/-- The fields of a record in the order of their declaration. -/
structure RecordShape (σ : Type) where
  name : String
  fields : List (RecordField σ)

namespace RecordShape

variable {σ : Type}

/-- How a record is named in a message. -/
def expected (shape : RecordShape σ) : String := "struct " ++ shape.name

/-- A number of elements in words. -/
def elements (n : Nat) : String := toString n ++ if n = 1 then " element" else " elements"

/-- How a record is named that an array is too short for. -/
def expectedElements (shape : RecordShape σ) : String :=
  shape.expected ++ " with " ++ elements shape.fields.length

/-- What is said of an array that is too long. -/
def surplus (origin : Origin) (fields items : Nat) : DecodeFault :=
  match origin with
  | .text => .text .malformed
  | .tree => .misfit (.invalidLength items "fewer elements in array")
  | .tagged => .misfit (.invalidLength items (elements fields ++ " in sequence"))

/-- Reads the members of an object in order. `seen` holds the names of the fields read so far. -/
def readMembers (fields : List (RecordField σ)) :
    σ → List String → List (Document × Document) → Decoded (σ × List String)
  | acc, seen, [] => .ok (acc, seen)
  | acc, seen, (.string key, d) :: rest =>
    match fields.find? (·.name == key) with
    | some field =>
      if seen.contains key then .error (.misfit (.duplicateField key))
      else do
        let acc ← field.read acc d
        readMembers fields acc (key :: seen) rest
    | none =>
      match d.skipFault with
      | some fault => .error (.text fault)
      | none => readMembers fields acc seen rest
  | _, _, (key, _) :: _ => .error (.text key.keyFault)

/-- Reads the items of an array in the order of the fields; `n` fields have been read. -/
def readItems (shape : RecordShape σ) (n : Nat) (fault : Option TextFault) :
    List (RecordField σ) → σ → List Document → Decoded (σ × List Document)
  | [], acc, items => .ok (acc, items)
  | field :: fields, acc, d :: items => do
    let acc ← field.read acc d
    readItems shape (n + 1) fault fields acc items
  | field :: fields, acc, [] =>
    match fault with
    | some f => .error (.text f)
    | none =>
      if field.presence = .free then readItems shape (n + 1) fault fields acc []
      else .error (.misfit (.invalidLength n shape.expectedElements))

/-- Reads a record from an object or an array. -/
def read (shape : RecordShape σ) (origin : Origin) (start : σ) : Document → Decoded σ
  | .object members fault => do
    let (acc, seen) ← readMembers shape.fields start [] members
    match fault with
    | some f => .error (.text f)
    | none =>
      match shape.fields.find? fun field =>
        field.presence == .required && !seen.contains field.name with
      | some field => .error (.misfit (.missingField field.name))
      | none => .ok acc
  | .array items fault => do
    let (acc, rest) ← readItems shape 0 fault shape.fields start items
    if !rest.isEmpty then .error (surplus origin shape.fields.length items.length)
    else
      match fault with
      | some f => .error (.text f)
      | none => .ok acc
  | .unreadable (some _) => .error (.text .malformed)
  | d => d.wrongType shape.expected

end RecordShape

/-- Reads a typed value out of a text, after which only space may stand. -/
def Document.decodeText {α : Type} (read : Document → Decoded α) (text : String) : Decoded α := do
  let (d, trailing) := Document.ofText text
  let value ← read d
  if trailing then .error (.text .malformed) else .ok value

end EditorBridge
