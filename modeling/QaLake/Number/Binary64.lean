namespace QaLake

/-- The number `± significand * 2 ^ exponent`. The significand has 53 bits, or fewer at the least
exponent -1074, so that each number but zero is written in one way. -/
structure Binary64 where
  negative : Bool
  significand : Nat
  exponent : Int
  deriving DecidableEq, Repr

namespace Binary64

def minExponent : Int := -1074

def maxExponent : Int := 971

def greatest : Binary64 :=
  ⟨false, (1 <<< 53) - 1, maxExponent⟩

def zero (negative : Bool) : Binary64 :=
  ⟨negative, 0, minExponent⟩

def isZero (x : Binary64) : Bool :=
  x.significand == 0

def roundDiv (num den : Nat) : Nat :=
  let q := num / den
  let r := num % den
  if 2 * r < den then q
  else if den < 2 * r then q + 1
  else q + q % 2

def scale (num den : Nat) (e : Int) : Nat × Nat :=
  if 0 ≤ e then (num, den <<< e.toNat) else (num <<< (-e).toNat, den)

/-- The exponent at which `num / den` has 53 bits before the binary point, or the least one. -/
def exponentOf (num den : Nat) : Int :=
  let e := (num.log2 : Int) - (den.log2 : Int) - 53
  let (n, d) := scale num den e
  max minExponent (if n / d < 1 <<< 53 then e else e + 1)

/-- The number nearest to `± num / den`, or nothing if that is beyond the greatest one. -/
def round (negative : Bool) (num den : Nat) : Option Binary64 :=
  if num = 0 then some (zero negative)
  else
    let e := exponentOf num den
    let (n, d) := scale num den e
    let s := roundDiv n d
    let (s, e) := if s = 1 <<< 53 then (1 <<< 52, e + 1) else (s, e)
    if maxExponent < e then none else some ⟨negative, s, e⟩

def ofNat (negative : Bool) (n : Nat) : Option Binary64 :=
  round negative n 1

/-- The number nearest to `± digits * 10 ^ exponent`. Exponents that are out of reach whatever the
digits are settled without computing the power. -/
def ofDecimal (negative : Bool) (digits : Nat) (exponent : Int) : Option Binary64 :=
  let size := (Nat.toDigits 10 digits).length
  if digits = 0 ∨ exponent + size < -330 then some (zero negative)
  else if 310 < exponent + size then none
  else if 0 ≤ exponent then round negative (digits * Nat.pow 10 exponent.toNat) 1
  else round negative digits (Nat.pow 10 (-exponent).toNat)

def magnitude (x : Binary64) : Nat × Nat :=
  if 0 ≤ x.exponent then (x.significand <<< x.exponent.toNat, 1)
  else (x.significand, 1 <<< (-x.exponent).toNat)

def mul (x y : Binary64) : Option Binary64 :=
  let (n, d) := x.magnitude
  let (n', d') := y.magnitude
  round (x.negative != y.negative) (n * n') (d * d')

def div (x y : Binary64) : Option Binary64 :=
  let (n, d) := x.magnitude
  let (n', d') := y.magnitude
  round (x.negative != y.negative) (n * d') (d * n')

def toInt? (x : Binary64) : Option Int :=
  let (n, d) := x.magnitude
  if n % d = 0 then some (if x.negative then -((n / d : Nat) : Int) else (n / d : Nat)) else none

end Binary64

end QaLake
