/-!
Whole numbers written in decimal digits with an optional plus sign, read within a bound.
-/
namespace EditorBridge.Text

def isDecimalDigit (c : Char) : Bool := '0' ≤ c && c ≤ '9'

/-- The number that digits denote. -/
def decimalValue (ds : List Char) : Nat := ds.foldl (fun n c => n * 10 + (c.toNat - 48)) 0

/-- Reads an optional plus sign and at least one digit; none when the number is above `bound` or
anything else stands in the text. -/
def boundedNat? (bound : Nat) (s : List Char) : Option Nat :=
  let ds := match s with
    | '+' :: rest => rest
    | _ => s
  if ds ≠ [] ∧ ds.all isDecimalDigit ∧ decimalValue ds ≤ bound then some (decimalValue ds) else none

end EditorBridge.Text
