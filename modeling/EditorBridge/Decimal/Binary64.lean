/-!
Finite binary floating-point numbers of double precision, kept as a sign, a whole mantissa and a
power of two. Reading and rounding are exact arithmetic on whole numbers, so nothing here depends
on the floating-point unit.
-/
namespace EditorBridge

/-- The value `± mantissa * 2 ^ exponent`. What `ofRatio?` builds is normalised: the mantissa is
below `2 ^ 53`, and it is at least `2 ^ 52` unless the exponent is the least one, `-1074`. -/
structure Binary64 where
  negative : Bool
  mantissa : Nat
  exponent : Int
deriving DecidableEq, Repr, Inhabited

namespace Binary64

def minExponent : Int := -1074

def maxExponent : Int := 971

def zero (negative : Bool) : Binary64 := ⟨negative, 0, minExponent⟩

/-- Divides and rounds to the nearest whole number; a half goes to the even neighbour. -/
def roundDiv (num den : Nat) : Nat :=
  let q := num / den
  let r := num % den
  if 2 * r < den then q else if den < 2 * r then q + 1 else q + q % 2

/-- The ratio in units of `2 ^ e`. -/
def scaleRatio (num den : Nat) (e : Int) : Nat × Nat :=
  if 0 ≤ e then (num, den * Nat.pow 2 e.toNat) else (num * Nat.pow 2 (-e).toNat, den)

/-- The greatest `l` with `2 ^ l ≤ num / den`, for a positive ratio. -/
def log2Ratio (num den : Nat) : Int :=
  let l : Int := (num.log2 : Int) - (den.log2 : Int)
  let (n, d) := scaleRatio num den l
  if n < d then l - 1 else l

/-- The number nearest to `num / den`, a tie going to the even mantissa; none when it is too large
to be finite. -/
def ofRatio? (negative : Bool) (num den : Nat) : Option Binary64 :=
  if num = 0 then some (zero negative)
  else
    let e := max (log2Ratio num den - 52) minExponent
    let (n, d) := scaleRatio num den e
    let m := roundDiv n d
    let (m, e) := if m = Nat.pow 2 53 then (Nat.pow 2 52, e + 1) else (m, e)
    if maxExponent < e then none else some ⟨negative, m, e⟩

/-- The value without its sign as a ratio. -/
def ratio (x : Binary64) : Nat × Nat :=
  if 0 ≤ x.exponent then (x.mantissa * Nat.pow 2 x.exponent.toNat, 1)
  else (x.mantissa, Nat.pow 2 (-x.exponent).toNat)

/-- The power of ten, rounded. It is finite up to the exponent 308. -/
def powerOfTen? (e : Nat) : Option Binary64 := ofRatio? false (Nat.pow 10 e) 1

/-- The product, rounded; none when it is too large to be finite. -/
def mul? (x y : Binary64) : Option Binary64 :=
  ofRatio? x.negative (x.ratio.1 * y.ratio.1) (x.ratio.2 * y.ratio.2)

/-- The quotient, rounded; none when it is too large to be finite. -/
def div? (x y : Binary64) : Option Binary64 :=
  ofRatio? x.negative (x.ratio.1 * y.ratio.2) (x.ratio.2 * y.ratio.1)

/-- The greatest power of ten that is finite. -/
def maxPower : Nat := 308

/-- Divides by `10 ^ n`, rounding after each step of at most `10 ^ 308`. -/
def scaleDown (x : Binary64) (n : Nat) : Option Binary64 :=
  if n ≤ maxPower then (powerOfTen? n).bind x.div?
  else if x.mantissa = 0 then some x
  else (powerOfTen? maxPower).bind x.div? |>.bind (scaleDown · (n - maxPower))
termination_by n
decreasing_by simp [maxPower] at *; omega

/-- The number read from decimal digits as `significand * 10 ^ exponent`: the significand is rounded
first and the scaled value after it, so a last digit may differ from the nearest number. None when
the value is too large to be finite. -/
def ofDecimal? (negative : Bool) (significand : Nat) (exponent : Int) : Option Binary64 :=
  (ofRatio? negative significand 1).bind fun x =>
    if 0 ≤ exponent then
      if exponent.toNat ≤ maxPower then (powerOfTen? exponent.toNat).bind x.mul?
      else if significand = 0 then some x
      else none
    else x.scaleDown (-exponent).toNat

end Binary64
end EditorBridge
