import QaLake.Number.Binary64

namespace QaLake.Binary64

/-- The fractions that round to a number, over a common denominator: the number itself, the two ends
of the interval around it, and whether the ends belong to it. -/
structure Neighbourhood where
  value : Nat
  lower : Nat
  upper : Nat
  den : Nat
  closed : Bool

/-- The interval half a step to either side. Below a power of two the step is half as wide. -/
def neighbourhood (x : Binary64) : Neighbourhood :=
  let m := x.significand
  let below := if m = 1 <<< 52 ∧ minExponent < x.exponent then 1 else 2
  let (unit, den) :=
    if 2 ≤ x.exponent then (1 <<< (x.exponent - 2).toNat, 1)
    else (1, 1 <<< (2 - x.exponent).toNat)
  ⟨4 * m * unit, (4 * m - below) * unit, (4 * m + 2) * unit, den, m % 2 == 0⟩

namespace Neighbourhood

variable (n : Neighbourhood)

/-- The multiple of `10 ^ k` in the interval that is nearest to the number, if there is one. Only
the two multiples next to the number can be. -/
def multipleAt (k : Int) : Option Nat :=
  let (grid, fine) :=
    if 0 ≤ k then (n.den * Nat.pow 10 k.toNat, 1) else (n.den, Nat.pow 10 (-k).toNat)
  let inside := fun c =>
    if n.closed then n.lower * fine ≤ c * grid && c * grid ≤ n.upper * fine
    else n.lower * fine < c * grid && c * grid < n.upper * fine
  let low := n.value * fine / grid
  match inside low, inside (low + 1) with
  | true, true => some (roundDiv (n.value * fine) grid)
  | true, false => some low
  | false, true => some (low + 1)
  | false, false => none

def leadingZeros : Nat → Nat → Nat
  | 0, _ => 0
  | fuel + 1, v => if n.den ≤ v * 10 then 0 else leadingZeros fuel (v * 10) + 1

def decade : Int :=
  if n.den ≤ n.value then (Nat.toDigits 10 (n.value / n.den)).length
  else -(n.leadingZeros 400 n.value)

end Neighbourhood

/-- A decimal: its digits as a whole number, times a power of ten. -/
structure Decimal where
  digits : List Char
  exponent : Int
  deriving DecidableEq, Repr

def Decimal.ofNat (n : Nat) (exponent : Int) : Decimal :=
  let digits := Nat.toDigits 10 n
  let kept := (digits.reverse.dropWhile (· == '0')).reverse
  ⟨kept, exponent + (digits.length - kept.length)⟩

/-- The shortest decimal, nearest to the number, that rounds to a number's magnitude. Seventeen
digits always suffice. -/
def shortest (x : Binary64) : Decimal :=
  let n := x.neighbourhood
  let top := n.decade - 1
  let found := (List.range 17).findSome? fun (i : Nat) =>
    (n.multipleAt (top - i)).map fun f => Decimal.ofNat f (top - i)
  found.getD ⟨[], 0⟩

end QaLake.Binary64
