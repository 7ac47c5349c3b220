import EditorBridge.Json.Decode
/-!
Shapes of JSON values. `Schema.check` tells whether a value has a shape, and if not, what is wrong
with it first: in an object the members are looked at in their order, then the fields that are not
there. Where any of several shapes will do, only that none fits is told.
-/
namespace EditorBridge

/-- The shapes that are told apart. -/
inductive Schema where
  | any
  | null
  | bool
  | text
  | int32
  /-- Null, or a value of the shape. A field of this shape need not be in an object. -/
  | optional (shape : Schema)
  | list (item : Schema)
  /-- An object with these fields among others, or an array of the fields in their order. -/
  | record (name : String) (fields : List (String × Schema))
  /-- An object with these fields among others. The second list is looked at last. -/
  | mixed (name : String) (fields late : List (String × Schema))
  | oneOf (name : String) (shapes : List Schema)
  | word (words : List String)

namespace Schema

def isOptional : Schema → Bool
  | .optional _ => true
  | _ => false

/-- One of some words, or an object with such a word as its only key, under which stands null. -/
def checkWord (words : List String) : Document → Decoded Unit
  | .string s =>
    if words.contains s then .ok () else .error (.misfit (.unknownVariant s words))
  | .object [(.string key, d)] _ =>
    if words.contains key then
      match d with
      | .null => .ok ()
      | d => d.wrongType "unit"
    else .error (.misfit (.unknownVariant key words))
  | .object _ _ => .error (.misfit (.invalidValue .map "map with a single key"))
  | d => d.wrongType "string or map"

/-- Checks the members that are known, in the order in which they stand. -/
def checkMembers (known : String → Document → Option (Decoded Unit)) :
    List (Document × Document) → Decoded Unit
  | [] => .ok ()
  | (.string key, d) :: rest =>
    match known key d with
    | some (.error e) => .error e
    | _ => checkMembers known rest
  | (key, _) :: _ => .error (.text key.keyFault)

def isKey (name : String) : Document → Bool
  | .string key => key == name
  | _ => false

/-- The first field that is neither there nor optional is told. -/
def checkPresent (fields : List (String × Schema)) (members : List (Document × Document)) :
    Decoded Unit :=
  match fields.find? fun f => !f.2.isOptional && !members.any (isKey f.1 ·.1) with
  | some f => .error (.misfit (.missingField f.1))
  | none => .ok ()

/-- How a record is named that an array is too short for. -/
def expectedItems (name : String) (fields : Nat) : String :=
  "struct " ++ name ++ " with " ++ RecordShape.elements fields

mutual

/-- Checks a document against a shape. -/
def check : Schema → Document → Decoded Unit
  | .any, _ => .ok ()
  | .null, d =>
    match d with
    | .null => .ok ()
    | d => d.wrongType "unit"
  | .bool, d => discard d.readBool
  | .text, d => discard d.readText
  | .int32, d => discard d.readInt32
  | .optional shape, d =>
    match d with
    | .null => .ok ()
    | d => check shape d
  | .list item, d => discard (d.readList (check item))
  | .record name fields, d =>
    match d with
    | .object members _ => do
      checkMembers (checkKnown fields) members
      checkPresent fields members
    | .array items _ => do
      let rest ← checkItems name fields.length 0 fields items
      if rest.isEmpty then .ok ()
      else .error (.misfit (.invalidLength items.length "fewer elements in array"))
    | d => d.wrongType ("struct " ++ name)
  | .mixed name fields late, d =>
    match d with
    | .object members _ => do
      checkMembers (checkKnown fields) members
      checkPresent fields members
      checkMembers (checkKnown late) members
      checkPresent late members
    | d => d.wrongType ("struct " ++ name)
  | .oneOf name shapes, d =>
    if checkAny shapes d then .ok ()
    else .error (.misfit (.invalidText
      ("data did not match any variant of untagged enum " ++ name)))
  | .word words, d => checkWord words d

/-- Checks a member against the field of its name; none when there is no such field. -/
def checkKnown : List (String × Schema) → String → Document → Option (Decoded Unit)
  | [], _, _ => none
  | (name, shape) :: rest, key, d =>
    if name = key then some (check shape d) else checkKnown rest key d

/-- Items in the place of fields; answers the items that are left over. -/
def checkItems (name : String) (total : Nat) :
    Nat → List (String × Schema) → List Document → Decoded (List Document)
  | _, [], items => .ok items
  | n, _ :: _, [] => .error (.misfit (.invalidLength n (expectedItems name total)))
  | n, (_, shape) :: fields, d :: items => do
    check shape d
    checkItems name total (n + 1) fields items

/-- Does any of the shapes fit? -/
def checkAny : List Schema → Document → Bool
  | [], _ => false
  | shape :: rest, d =>
    match check shape d with
    | .ok () => true
    | .error _ => checkAny rest d

end

end Schema
end EditorBridge
