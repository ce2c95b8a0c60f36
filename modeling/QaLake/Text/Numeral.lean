import QaLake.Number.Binary64
import QaLake.Number.Word

namespace QaLake.Text

def digitsValue (digits : List Char) : Nat :=
  digits.foldl (fun n c => n * 10 + (c.toNat - '0'.toNat)) 0

def takeSign : List Char → Bool × List Char
  | '-' :: cs => (true, cs)
  | '+' :: cs => (false, cs)
  | cs => (false, cs)

def int64? (s : String) : Option Int :=
  let (negative, digits) := takeSign s.toList
  if digits.isEmpty || !digits.all Char.isDigit then none
  else
    let n : Int := if negative then -digitsValue digits else digitsValue digits
    if Word.IsSigned n then some n else none

/-- A numeral in its parts: `digits` without the point, of which `places` stood behind it. -/
structure Numeral where
  negative : Bool
  digits : List Char
  places : Nat
  hasPoint : Bool
  exponent : Option Int

def exponent? : List Char → Option (Option Int)
  | [] => some none
  | c :: cs =>
    if c == 'e' || c == 'E' then
      let (negative, digits) := takeSign cs
      if digits.isEmpty || !digits.all Char.isDigit then none
      else some (some (if negative then -digitsValue digits else digitsValue digits))
    else none

def numeral? (cs : List Char) : Option Numeral :=
  let (negative, cs) := takeSign cs
  let whole := cs.takeWhile Char.isDigit
  let cs := cs.drop whole.length
  let (hasPoint, cs) := match cs with
    | '.' :: cs => (true, cs)
    | cs => (false, cs)
  let fraction := if hasPoint then cs.takeWhile Char.isDigit else []
  if whole.isEmpty && fraction.isEmpty then none
  else (exponent? (cs.drop fraction.length)).map fun e =>
    ⟨negative, whole ++ fraction, fraction.length, hasPoint, e⟩

def Numeral.toBinary64 (n : Numeral) : Option Binary64 :=
  Binary64.ofDecimal n.negative (digitsValue n.digits) (n.exponent.getD 0 - n.places)

def float? (s : String) : Option Binary64 :=
  (numeral? s.toList).bind Numeral.toBinary64

end QaLake.Text
