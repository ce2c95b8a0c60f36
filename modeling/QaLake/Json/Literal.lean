import QaLake.Json.Basic

namespace QaLake.Json

/-- The parts of a number literal: its digits before and behind the point, and the sign and the
digits of its exponent. -/
structure Literal where
  negative : Bool
  whole : List Nat
  fraction : Option (List Nat)
  exponent : Option (Bool × List Nat)
  deriving DecidableEq, Repr

namespace Literal

/-- A significand with as many digits appended as a word has room for, and the digits left over. -/
def absorb (significand : Nat) : List Nat → Nat × List Nat
  | [] => (significand, [])
  | d :: rest =>
    if significand * 10 + d < Word.unsignedLimit then absorb (significand * 10 + d) rest
    else (significand, d :: rest)

def powerOfTen (n : Nat) : Binary64 :=
  (Binary64.ofDecimal false 1 n).getD (.zero false)

/-- A number times a power of ten. Exponents beyond -308 are taken in steps of 308. -/
def shift (x : Binary64) : Nat → Int → Option Binary64
  | 0, _ => some x
  | fuel + 1, e =>
    if e.natAbs ≤ 308 then
      if 0 ≤ e then x.mul (powerOfTen e.natAbs) else x.div (powerOfTen e.natAbs)
    else if x.isZero then some x
    else if 0 ≤ e then none
    else (x.div (powerOfTen 308)).bind fun y => shift y fuel (e + 308)

def shiftSteps : Nat := 8

def ofParts (negative : Bool) (significand : Nat) (e : Int) : Option Number :=
  ((Binary64.ofNat negative significand).bind fun x => shift x shiftSteps e).map .float

def overlong (negative zero positive : Bool) : Option Number :=
  if !zero && positive then none else some (.float (.zero negative))

/-- The value of an exponent's digits, unless a signed 32-bit word is too small for it. -/
def exponentValue (digits : List Nat) : Option Nat :=
  digits.foldl (fun acc d => acc.bind fun e =>
    if e * 10 + d < Word.halfLimit then some (e * 10 + d) else none) (some 0)

def number (l : Literal) : Option Number :=
  let (whole, dropped) := absorb 0 l.whole
  match l.fraction, l.exponent, dropped with
  | none, none, [] =>
    if !l.negative then some (.int whole)
    else if whole = 0 then some (.float (.zero true))
    else if whole ≤ Word.signedLimit then some (.int (-whole))
    else (Binary64.ofNat true whole).map .float
  | fraction, exponent, dropped =>
    let digits := fraction.getD []
    let (significand, ignored) := absorb whole digits
    let e : Int := (dropped.length : Int) - (digits.length - ignored.length : Nat)
    match exponent with
    | none => ofParts l.negative significand e
    | some (negativeExponent, digits) =>
      match exponentValue digits with
      | none => overlong l.negative (significand == 0) (!negativeExponent)
      | some n => ofParts l.negative significand (if negativeExponent then e - n else e + n)

end Literal

end QaLake.Json
