namespace QaLake.Text.Punycode

def firstCode : Nat := 128

def base : Nat := 36

def digit (n : Nat) : Char :=
  if n < 26 then Char.ofNat ('a'.toNat + n) else Char.ofNat ('0'.toNat + (n - 26))

/-- From which value on the digit at a place is followed by another one. The bias says at which
place the digits of a number are expected to end. -/
def threshold (place bias : Nat) : Nat :=
  if place ≤ bias + 1 then 1 else min 26 (place - bias)

theorem threshold_pos (place bias : Nat) : 0 < threshold place bias := by
  unfold threshold
  split <;> omega

def digits (bias place n : Nat) : List Char :=
  let t := threshold place bias
  if n < t then [digit n]
  else digit (t + (n - t) % (base - t)) :: digits bias (place + base) ((n - t) / (base - t))
termination_by n
decreasing_by
  have := threshold_pos place bias
  have := Nat.div_le_self (n - threshold place bias) (base - threshold place bias)
  omega

def biasOf (size offset : Nat) : Nat :=
  if 455 < size then biasOf (size / 35) (offset + base)
  else offset + base * size / (size + 38)
termination_by size
decreasing_by omega

/-- A text half encoded: the digits so far, the bias, how many characters are done, and the steps
from the last one. -/
structure Progress where
  output : List Char
  bias : Nat
  done : Nat
  steps : Nat

namespace Progress

def pass (isFirst : Nat → Bool) (code : Nat) (p : Progress) (c : Char) : Progress :=
  if c.toNat < code then { p with steps := p.steps + 1 }
  else if c.toNat = code then
    let size := if isFirst p.done then p.steps / 700 else p.steps / 2
    { output := p.output ++ digits p.bias base p.steps
      bias := biasOf (size + size / (p.done + 1)) 0
      done := p.done + 1
      steps := 0 }
  else p

/-- Encodes the characters of further code points, which are given in ascending order; all below the
second argument are done. -/
def encodeCodes (cs : List Char) (isFirst : Nat → Bool) : Nat → List Nat → Progress → Progress
  | _, [], p => p
  | next, code :: codes, p =>
    let p := { p with steps := p.steps + (code - next) * (p.done + 1) }
    let p := cs.foldl (pass isFirst code) p
    encodeCodes cs isFirst (code + 1) codes { p with steps := p.steps + 1 }

end Progress

/-- The characters beyond ASCII follow the others in the order of their code points, each as the
number of steps from the one before it. A step leads from a place in the text to the next place, or
from the last place of a code point to the first of the next code point. -/
def encode (cs : List Char) : List Char :=
  let plain := cs.filter fun c => c.toNat < firstCode
  let codes := ((cs.map Char.toNat).filter (firstCode ≤ ·)).mergeSort.eraseDups
  let start : Progress := ⟨[], 72, plain.length, 0⟩
  let encoded := (start.encodeCodes cs (· == plain.length) firstCode codes).output
  plain ++ (if plain.isEmpty then [] else ['-']) ++ encoded

end QaLake.Text.Punycode
