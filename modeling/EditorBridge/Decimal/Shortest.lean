import EditorBridge.Decimal.Binary64
/-!
The shortest decimal text that reads back as a given binary number. On the grids of one, two, up to
seventeen significant digits the two neighbours of the value are tried in exact arithmetic; the
first grid that has a point inside the interval of rounding wins, and of two such points the nearer.
-/
namespace EditorBridge.Binary64

/-- The significant digits of a positive number and the place of its decimal point: the value is
`0.d₁d₂… * 10 ^ point`. -/
structure Digits where
  digits : List Char
  point : Int
deriving DecidableEq, Repr

def ratioLt (a b : Nat × Nat) : Bool := a.1 * b.2 < b.1 * a.2

def ratioLe (a b : Nat × Nat) : Bool := a.1 * b.2 ≤ b.1 * a.2

/-- The value in quarters of its last binary place: below by `down`, above by two. -/
def quarters (x : Binary64) (m : Nat) : Nat × Nat :=
  ratio ⟨false, m, x.exponent - 2⟩

/-- Does the ratio lie in the interval of reals that round to `x`? The ends belong to it when the
mantissa is even. Below a power of two the gap is half as wide. -/
def roundsTo (x : Binary64) (r : Nat × Nat) : Bool :=
  let low := if x.mantissa = Nat.pow 2 52 ∧ minExponent < x.exponent then
      x.quarters (4 * x.mantissa - 1)
    else x.quarters (4 * x.mantissa - 2)
  let high := x.quarters (4 * x.mantissa + 2)
  if x.mantissa % 2 = 0 then ratioLe low r && ratioLe r high else ratioLt low r && ratioLt r high

/-- How many digits a number has; zero has none. -/
def digitCount (n : Nat) : Nat := if n = 0 then 0 else (Nat.toDigits 10 n).length

/-- The `k` with `10 ^ (k - 1) ≤ num / den < 10 ^ k`, for a positive ratio. -/
def decimalPoint (num den : Nat) : Int :=
  let k : Int := (digitCount num : Int) - (digitCount den : Int)
  let below := if 0 ≤ k then num < den * Nat.pow 10 k.toNat else num * Nat.pow 10 (-k).toNat < den
  if below then k else k + 1

/-- The point `c` of the grid `10 ^ e`, as a ratio. -/
def gridPoint (c : Nat) (e : Int) : Nat × Nat :=
  if 0 ≤ e then (c * Nat.pow 10 e.toNat, 1) else (c, Nat.pow 10 (-e).toNat)

/-- Of the two neighbours of `x` on the grid of `n` digits, the one that reads back; of two, the
nearer, and the even one of two equally near. -/
def onGrid? (x : Binary64) (point : Int) (n : Nat) : Option Nat :=
  let e := point - n
  let (num, den) := x.ratio
  let (gn, gd) := gridPoint 1 e
  let low := num * gd / (den * gn)
  let r := num * gd % (den * gn)
  let lowFits := x.roundsTo (gridPoint low e) && low != 0
  let highFits := x.roundsTo (gridPoint (low + 1) e)
  if lowFits && highFits then
    if 2 * r < den * gn then some low
    else if den * gn < 2 * r then some (low + 1)
    else some (low + low % 2)
  else if lowFits then some low
  else if highFits then some (low + 1)
  else none

/-- The first of the grids `n`, `n + 1`, … that has a neighbour of `x` which reads back. -/
def firstGrid (x : Binary64) (point : Int) (n : Nat) : Nat → Nat × Nat
  | 0 => ((x.onGrid? point n).getD 0, n)
  | fuel + 1 =>
    match x.onGrid? point n with
    | some c => (c, n)
    | none => firstGrid x point (n + 1) fuel

/-- The fewest digits that read back. -/
def shortest (x : Binary64) : Digits :=
  let point := decimalPoint x.ratio.1 x.ratio.2
  let (c, n) := x.firstGrid point 1 16
  let text := Nat.toDigits 10 c
  let carried := text.length - n
  ⟨(text.reverse.dropWhile (· == '0')).reverse, point + carried⟩

def zeros (n : Nat) : List Char := List.replicate n '0'

/-- The text of a number: positional from `1e-5` to below `1e16`, always with a point and a digit on
both sides of it; otherwise one digit, the rest after a point, and a signed exponent. -/
def text (x : Binary64) : String :=
  let sign := if x.negative then "-" else ""
  if x.mantissa = 0 then sign ++ "0.0"
  else
    let ⟨ds, point⟩ := x.shortest
    let n := ds.length
    if 0 < point ∧ point ≤ 16 then
      let p := point.toNat
      if n ≤ p then sign ++ String.ofList (ds ++ zeros (p - n)) ++ ".0"
      else sign ++ String.ofList (ds.take p) ++ "." ++ String.ofList (ds.drop p)
    else if -5 < point ∧ point ≤ 0 then
      sign ++ "0." ++ String.ofList (zeros (-point).toNat ++ ds)
    else
      let e := point - 1
      let power := if e < 0 then "e-" ++ toString e.natAbs else "e+" ++ toString e.natAbs
      match ds with
      | [d] => sign ++ String.ofList [d] ++ power
      | d :: rest => sign ++ String.ofList [d] ++ "." ++ String.ofList rest ++ power
      | [] => sign ++ "0.0"

end EditorBridge.Binary64
