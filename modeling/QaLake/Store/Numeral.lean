import QaLake.Number.Extended
import QaLake.Number.Word
import QaLake.Text.Numeral

namespace QaLake.Store

open Text (digitsValue)

/-- A nonnegative decimal: a significand of at most 64 bits, times a power of ten. -/
structure Scaled where
  significand : Nat
  exponent : Int
  deriving DecidableEq, Repr

namespace Scaled

def fullFrom : Nat := (Word.unsignedLimit - 10) / 10

/-- A significand with digits before the point appended until it is full, and the number of digits
left over. -/
def takeWhole (s : Nat) : List Char → Nat × Nat
  | [] => (s, 0)
  | c :: cs =>
    let s := s * 10 + digitsValue [c]
    if fullFrom ≤ s then (s, cs.length) else takeWhole s cs

/-- A significand with digits behind the point appended until it is full, and the number of digits
taken. -/
def takeFraction (s : Nat) : List Char → Nat × Nat
  | [] => (s, 0)
  | c :: cs =>
    if s < fullFrom then
      let (s, taken) := takeFraction (s * 10 + digitsValue [c]) cs
      (s, taken + 1)
    else (s, 0)

def farExponent : Int := 10000

def countedExponent (e : Int) : Int :=
  if e.natAbs < 100000 then e else if e < 0 then -farExponent else farExponent

/-- A decimal with its exponent moved towards zero as far as the significand allows. The first
argument bounds the number of steps. -/
def settle : Nat → Scaled → Scaled
  | 0, x => x
  | steps + 1, ⟨s, e⟩ =>
    if 0 < e ∧ s < Word.unsignedLimit / 10 then settle steps ⟨s * 10, e - 1⟩
    else if e < 0 ∧ s % 10 = 0 then settle steps ⟨s / 10, e + 1⟩
    else ⟨s, e⟩

def settleSteps : Nat := 20

def ofNumeral (n : Text.Numeral) : Scaled :=
  let places := n.digits.length - n.places
  let (s, dropped) := takeWhole 0 (n.digits.take places)
  let (s, taken) := takeFraction s (n.digits.drop places)
  settle settleSteps ⟨s, countedExponent (n.exponent.getD 0) + dropped - taken⟩

def toExtended (x : Scaled) : Extended :=
  let power := fun n => if 0 ≤ x.exponent then Extended.ofNat n else Extended.ofReciprocal n
  let e := x.exponent.natAbs
  let raise := fun (count n : Nat) => Nat.repeat (fun y => y.mul (power n)) count
  raise (e % 10) 10 <| raise (e % 100 / 10) (Nat.pow 10 10) <|
    raise (e / 100) (Nat.pow 10 100) (Extended.ofNat x.significand)

/-- The floating-point number of a decimal with a sign, or nothing if that is infinite. -/
def toBinary64 (negative : Bool) (x : Scaled) : Option Binary64 :=
  if x.significand = 0 then some (.zero negative)
  else if x.exponent = 0 then Binary64.ofNat negative x.significand
  else x.toExtended.toBinary64 negative

end Scaled

/-- The floating-point number that the store makes of a numeral, or nothing if that is infinite. -/
def floatOf (n : Text.Numeral) : Option Binary64 :=
  (Scaled.ofNumeral n).toBinary64 n.negative

end QaLake.Store
