import QaLake.Number.Binary64

namespace QaLake

/-- A floating-point number without a sign that has 64 significant bits and an exponent without a
bound. Such numbers carry a computation of several roundings to a `Binary64`. -/
structure Extended where
  significand : Nat
  exponent : Int
  deriving DecidableEq, Repr

namespace Extended

def precision : Nat := 64

def round (n : Nat) (e : Int) : Extended :=
  let surplus := n.log2 + 1 - precision
  ⟨Binary64.roundDiv n (1 <<< surplus), e + surplus⟩

def ofNat (n : Nat) : Extended :=
  round n 0

/-- The number nearest to `1 / n`, where `n` is greater than one and no power of two. -/
def ofReciprocal (n : Nat) : Extended :=
  let shift := n.log2 + precision
  ⟨Binary64.roundDiv (1 <<< shift) n, -shift⟩

def mul (x y : Extended) : Extended :=
  round (x.significand * y.significand) (x.exponent + y.exponent)

def fraction (x : Extended) : Nat × Nat :=
  if 0 ≤ x.exponent then (x.significand <<< x.exponent.toNat, 1)
  else (x.significand, 1 <<< (-x.exponent).toNat)

/-- The `Binary64` nearest to `± x`, or nothing if `x` is beyond the greatest one. -/
def toBinary64 (negative : Bool) (x : Extended) : Option Binary64 :=
  let (n, d) := x.fraction
  let (top, _) := Binary64.greatest.magnitude
  if top * d < n then none else Binary64.round negative n d

end Extended

end QaLake
