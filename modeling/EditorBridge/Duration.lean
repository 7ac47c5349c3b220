/-!
Lengths of time in whole nanoseconds, and their text: a number in the largest unit that does not
make it a pure fraction, with no more decimals than it needs.
-/
namespace EditorBridge

structure Duration where
  nanos : Nat
deriving DecidableEq, Repr, Inhabited, Ord

namespace Duration

def ofNanos (n : Nat) : Duration := ⟨n⟩
def ofMillis (n : Nat) : Duration := ⟨n * 1000000⟩
def ofSecs (n : Nat) : Duration := ⟨n * 1000000000⟩

def secs (d : Duration) : Nat := d.nanos / 1000000000

/-- What is left behind the whole seconds. -/
def subsecNanos (d : Duration) : Nat := d.nanos % 1000000000

instance : LT Duration := ⟨fun a b => a.nanos < b.nanos⟩
instance : LE Duration := ⟨fun a b => a.nanos ≤ b.nanos⟩
instance (a b : Duration) : Decidable (a < b) := inferInstanceAs (Decidable (a.nanos < b.nanos))
instance (a b : Duration) : Decidable (a ≤ b) := inferInstanceAs (Decidable (a.nanos ≤ b.nanos))

/-- `n` in units of which `10 ^ places` make one, as a decimal number without zeros at its end. -/
def decimal (n places : Nat) : String :=
  let whole := toString (n / Nat.pow 10 places)
  let digits := Nat.toDigits 10 (n % Nat.pow 10 places)
  let padded := List.replicate (places - digits.length) '0' ++ digits
  let fraction := (padded.reverse.dropWhile (· == '0')).reverse
  if places = 0 ∨ fraction = [] then whole else whole ++ "." ++ String.ofList fraction

/-- Picks the unit and writes the number. -/
def text (d : Duration) : String :=
  if 1000000000 ≤ d.nanos then decimal d.nanos 9 ++ "s"
  else if 1000000 ≤ d.nanos then decimal d.nanos 6 ++ "ms"
  else if 1000 ≤ d.nanos then decimal d.nanos 3 ++ "µs"
  else decimal d.nanos 0 ++ "ns"

end Duration
end EditorBridge
