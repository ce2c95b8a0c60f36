import QaLake.Time.Calendar

namespace QaLake

/-- A moment: whole seconds since the epoch and nanoseconds, which go on beyond 10^9 within a leap
second. -/
structure Instant where
  seconds : Int
  nanos : Nat
  deriving DecidableEq, Repr

namespace Instant

open Time

def epoch : Instant := ⟨0, 0⟩

def minSeconds : Int := -8334601228800

def maxSeconds : Int := 8210266876799

def inRange (seconds : Int) : Bool :=
  minSeconds ≤ seconds && seconds ≤ maxSeconds

def ofUnix (seconds : Int) : Instant :=
  if inRange seconds then ⟨seconds, 0⟩ else epoch

def daySeconds : Int := 86400

def padded (width n : Nat) : List Char :=
  let digits := Nat.toDigits 10 n
  List.replicate (width - digits.length) '0' ++ digits

/-- A year: four digits, and a sign where they do not suffice. -/
def yearChars (year : Int) : List Char :=
  if 0 ≤ year ∧ year ≤ 9999 then padded 4 year.toNat
  else (if year < 0 then '-' else '+') :: padded 4 year.natAbs

/-- A fraction of a second in three, six or nine digits, and nothing if it is zero. -/
def fractionChars (nanos : Nat) : List Char :=
  if nanos = 0 then []
  else if nanos % 1000000 = 0 then '.' :: padded 3 (nanos / 1000000)
  else if nanos % 1000 = 0 then '.' :: padded 6 (nanos / 1000)
  else '.' :: padded 9 nanos

def localChars (t : Instant) : List Char :=
  let date := Date.ofDays (t.seconds / daySeconds)
  let time := (t.seconds % daySeconds).toNat
  let second := time % 60 + t.nanos / 1000000000
  yearChars date.year ++ '-' :: padded 2 date.month ++ '-' :: padded 2 date.day ++
    'T' :: padded 2 (time / 3600) ++ ':' :: padded 2 (time / 60 % 60) ++ ':' :: padded 2 second ++
    fractionChars (t.nanos % 1000000000)

def text (t : Instant) : String :=
  String.ofList (t.localChars ++ "+00:00".toList)

def zuluText (t : Instant) : String :=
  String.ofList (t.localChars ++ ['Z'])

end Instant

end QaLake
