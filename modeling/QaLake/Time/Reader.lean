import QaLake.Text.Character
import QaLake.Text.Numeral
import QaLake.Time.Instant

namespace QaLake.Time

open Text (digitsValue)

/-- Why a text is not an instant or a date. -/
inductive ReadError
  | tooShort
  | invalid
  | outOfRange
  | tooLong
  | impossible
  deriving DecidableEq, Repr

def ReadError.message : ReadError → String
  | .tooShort => "premature end of input"
  | .invalid => "input contains invalid characters"
  | .outOfRange => "input is out of range"
  | .tooLong => "trailing input"
  | .impossible => "no possible date and time matching input"

abbrev Reader := StateT (List Char) (Except ReadError)

/-- A number of at least one digit and, if there is a bound, at most that many. -/
def number (most : Option Nat) : Reader Nat := fun cs =>
  let digits := ((most.elim cs fun n => cs.take n).takeWhile Char.isDigit)
  if cs.isEmpty then .error .tooShort
  else if digits.isEmpty then .error .invalid
  else if Word.signedLimit ≤ digitsValue digits then .error .outOfRange
  else .ok (digitsValue digits, cs.drop digits.length)

def oneOf (marks : List Char) : Reader Unit
  | [] => .error .tooShort
  | c :: rest => if marks.contains c then .ok ((), rest) else .error .invalid

def skipWhile (p : Char → Bool) : Reader Unit := fun cs =>
  .ok ((), cs.dropWhile p)

def finish : Reader Unit
  | [] => .ok ((), [])
  | _ :: _ => .error .tooLong

/-- The nanoseconds of the digits behind a point; digits beyond the ninth are dropped. -/
def fraction : Reader Nat := do
  let before ← get
  let n ← number (some 9)
  let used := before.length - (← get).length
  skipWhile Char.isDigit
  return n * Nat.pow 10 (9 - used)

def optionalFraction : Reader Nat
  | '.' :: cs => fraction cs
  | cs => .ok (0, cs)

/-- The sign of an offset: true for west of Greenwich. The sign may be the minus of typography. -/
def offsetSign : Reader Bool
  | [] => .error .tooShort
  | c :: rest =>
    if c == '+' then .ok (false, rest)
    else if c == '-' || c.toNat == 0x2212 then .ok (true, rest)
    else .error .invalid

/-- Two digits, the first of them less than `limit`. A single character is too short only if it is
a single byte in UTF-8. -/
def twoDigits (limit : Nat) : Reader Nat
  | [] => .error .tooShort
  | [a] => .error (if a.utf8Size = 1 then .tooShort else .invalid)
  | a :: b :: rest =>
    if a.isDigit && b.isDigit then
      if digitsValue [a] < limit then .ok (digitsValue [a, b], rest) else .error .outOfRange
    else .error .invalid

/-- The seconds of an offset, east of Greenwich positive. The argument reads what separates hours
and minutes. -/
def offset (separator : Reader Unit) : Reader Int
  | 'Z' :: rest => .ok (0, rest)
  | 'z' :: rest => .ok (0, rest)
  | cs => cs |> do
    let west ← offsetSign
    let hours ← twoDigits 10
    separator
    let minutes ← twoDigits 6
    let seconds : Int := hours * 3600 + minutes * 60
    return if west then -seconds else seconds

def minYear : Int := -262143

def maxYear : Int := 262142

def checkedDate (date : Date) : Except ReadError Date :=
  if date.isValid && minYear ≤ date.year && date.year ≤ maxYear then .ok date
  else .error .outOfRange

/-- The time of day as whole seconds and nanoseconds. The sixtieth second is the leap second. -/
def timeOfDay (hour minute second nanos : Nat) : Except ReadError (Nat × Nat) :=
  let (second, nanos) := if second = 60 then (59, nanos + 1000000000) else (second, nanos)
  if hour < 24 ∧ minute < 60 ∧ second < 60 then .ok (hour * 3600 + minute * 60 + second, nanos)
  else .error .outOfRange

def instantAt (date : Date) (time : Nat × Nat) (offset : Int) : Except ReadError Instant :=
  let seconds := date.toDays * Instant.daySeconds + time.1 - offset
  if Instant.inRange seconds then .ok ⟨seconds, time.2⟩ else .error .impossible

def digitAt (cs : List Char) (i : Nat) : Except ReadError Nat :=
  match cs[i]? with
  | some c => if c.isDigit then .ok (digitsValue [c]) else .error .invalid
  | none => .error .invalid

def pairAt (cs : List Char) (i : Nat) : Except ReadError Nat := do
  return (← digitAt cs i) * 10 + (← digitAt cs (i + 1))

def markAt (cs : List Char) (i : Nat) (marks : List Char) : Except ReadError Unit :=
  match cs[i]? with
  | some c => if marks.contains c then .ok () else .error .invalid
  | none => .error .invalid

def strictLength : Nat := 19

def maxOffset : Int := (23 * 60 + 59) * 60

/-- The end of the strict form: the fraction of the second and the offset. -/
def strictTail (date : Date) (hour minute second : Nat) : Reader Instant := do
  let nanos ← optionalFraction
  let time ← timeOfDay hour minute second nanos
  let seconds ← offset (oneOf [':'])
  finish
  if seconds < -maxOffset ∨ maxOffset < seconds then throw .outOfRange
  instantAt date time seconds

def strict (s : String) : Except ReadError Instant := do
  let cs := s.toList
  if s.utf8ByteSize < strictLength then throw .tooShort
  let century ← pairAt cs 0
  let year ← pairAt cs 2
  markAt cs 4 ['-']
  let month ← pairAt cs 5
  markAt cs 7 ['-']
  let day ← pairAt cs 8
  let date ← checkedDate ⟨(century * 100 + year : Nat), month, day⟩
  markAt cs 10 ['T', 't', ' ']
  let hour ← pairAt cs 11
  markAt cs 13 [':']
  let minute ← pairAt cs 14
  markAt cs 16 [':']
  let second ← pairAt cs 17
  (strictTail date hour minute second).run' (cs.drop strictLength)

/-- The internet date format, RFC 3339. -/
def strict? (s : String) : Option Instant :=
  (strict s).toOption

def blanks : Reader Unit :=
  skipWhile Text.isBlank

def checkedYear (year : Int) : Except ReadError Int :=
  if -Word.halfLimit ≤ year ∧ year < Word.halfLimit then .ok year else .error .outOfRange

/-- A year of up to four digits, or of any number of digits behind a sign; blanks before it
allowed. -/
def year : Reader Int := do
  blanks
  match ← get with
  | '-' :: cs =>
    set cs
    checkedYear (-(← number none))
  | '+' :: cs =>
    set cs
    checkedYear (← number none)
  | _ => checkedYear (← number (some 4))

def field (low high : Nat) : Reader Nat := do
  blanks
  let n ← number (some 2)
  if low ≤ n ∧ n ≤ high then return n else throw .outOfRange

def mark (c : Char) : Reader Unit := do
  blanks
  oneOf [c]

/-- The offset of the lenient form: hours and minutes may be separated by blanks and colons, and
universal time may be spelled out. -/
def lenientOffset : Reader Int := fun cs =>
  if (cs.take 3).map Char.toUpper == ['U', 'T', 'C'] then .ok (0, cs.drop 3)
  else offset (skipWhile fun c => c == ':' || Text.isBlank c) cs

def lenientReader : Reader Instant := do
  let year ← year
  mark '-'
  let month ← field 1 12
  mark '-'
  let day ← field 1 31
  oneOf ['t', 'T', ' ']
  let hour ← field 0 23
  mark ':'
  let minute ← field 0 59
  mark ':'
  let second ← field 0 60
  let nanos ← optionalFraction
  blanks
  let seconds ← lenientOffset
  blanks
  finish
  let date ← checkedDate ⟨year, month, day⟩
  let time ← timeOfDay hour minute second nanos
  if seconds ≤ -Instant.daySeconds ∨ Instant.daySeconds ≤ seconds then throw .outOfRange
  instantAt date time seconds

def lenient (s : String) : Except ReadError Instant :=
  lenientReader.run' s.toList

inductive DateLayout
  | yearMonthDay
  | monthDayYear
  deriving DecidableEq, Repr

def dateReader : DateLayout → Reader Date
  | .yearMonthDay => do
    let y ← year
    oneOf ['-']
    let m ← field 1 12
    oneOf ['-']
    let d ← field 1 31
    finish
    checkedDate ⟨y, m, d⟩
  | .monthDayYear => do
    let m ← field 1 12
    oneOf ['/']
    let d ← field 1 31
    oneOf ['/']
    let y ← year
    finish
    checkedDate ⟨y, m, d⟩

def dateIn? (layout : DateLayout) (s : String) : Option Date :=
  ((dateReader layout).run' s.toList).toOption

def midnight (date : Date) : Instant :=
  ⟨date.toDays * Instant.daySeconds, 0⟩

end QaLake.Time
