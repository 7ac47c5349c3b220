import EditorBridge.Decimal.Shortest
import EditorBridge.Keyed
/-!
JSON values. A whole number of at most 64 bits stays exact, every other number is a binary one; the
members of an object are kept in the order of their keys, one per key.
-/
namespace EditorBridge

inductive Number where
  /-- A whole number from `-2 ^ 63` up to but not including `2 ^ 64`. -/
  | integer (value : Int)
  | real (value : Binary64)
deriving DecidableEq, Repr, Inhabited

/-- A real number is written so that it reads back. -/
def Number.text : Number → String
  | .integer i => toString i
  | .real x => x.text

inductive Json where
  | null
  | bool (value : Bool)
  | number (value : Number)
  | string (value : String)
  | array (items : List Json)
  | object (members : List (String × Json))
deriving BEq, Repr, Inhabited

namespace Json

def int (i : Int) : Json := .number (.integer i)

def nat (n : Nat) : Json := .int n

/-- An object with the given members; the last of equal keys counts. -/
def ofMembers (entries : List (String × Json)) : Json := .object (Keyed.ofEntries entries)

/-- The members that are there, those without a value left out. -/
def present (entries : List (String × Option Json)) : List (String × Json) :=
  entries.filterMap fun entry => entry.2.map (entry.1, ·)

/-- The member of an object; other values have none. -/
def get? (value : Json) (key : String) : Option Json :=
  match value with
  | .object members => Keyed.find? members key
  | _ => none

/-- The member, or null when there is none. -/
def get (value : Json) (key : String) : Json := (value.get? key).getD .null

def string? : Json → Option String
  | .string s => some s
  | _ => none

def bool? : Json → Option Bool
  | .bool b => some b
  | _ => none

/-- The whole number that a value is. -/
def integer? : Json → Option Int
  | .number (.integer i) => some i
  | _ => none

/-- The whole number that a value is, if it is not negative. -/
def nat? (value : Json) : Option Nat :=
  match value with
  | .number (.integer (.ofNat n)) => some n
  | _ => none

def items? : Json → Option (List Json)
  | .array xs => some xs
  | _ => none

def members? : Json → Option (Keyed Json)
  | .object ms => some ms
  | _ => none

def isNull : Json → Bool
  | .null => true
  | _ => false

/-- The value, unless it is null. -/
def nonNull? : Json → Option Json
  | .null => none
  | value => some value

end Json
end EditorBridge
