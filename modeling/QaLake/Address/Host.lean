import QaLake.Text.Character
import QaLake.Text.Punycode

namespace QaLake

/-- A host. A number of version 4 has four bytes, one of version 6 has eight groups of 16 bits. -/
inductive Host
  | name (text : String)
  | version4 (number : Nat)
  | version6 (groups : List Nat)
  deriving DecidableEq, Repr

namespace Host

def inBase? (base : Nat) (cs : List Char) : Option Nat :=
  cs.foldlM (fun n c => do
    let d ← Text.hexValue? c
    if d < base then some (n * base + d) else none) 0

/-- A part of a number of version 4: hexadecimal behind a mark, octal behind a zero, or decimal. -/
def part? : List Char → Option Nat
  | [] => none
  | '0' :: 'x' :: cs | '0' :: 'X' :: cs => inBase? 16 cs
  | '0' :: c :: cs => inBase? 8 (c :: cs)
  | cs => inBase? 10 cs

def parts (name : String) : List (List Char) :=
  let parts := (name.splitOn ".").map String.toList
  if parts.getLast? = some [] then parts.dropLast else parts

/-- Whether the last part of a name is a number. Such a name can only be a number of version 4. -/
def endsInNumber (name : String) : Bool :=
  match (parts name).getLast? with
  | none => false
  | some last => (!last.isEmpty && last.all Char.isDigit) || (part? last).isSome

def byteCount : Nat := 4

/-- The number whose first bytes are given; the last part holds all others. -/
def joinParts : Nat → List Nat → Option Nat
  | _, [] => none
  | room, [last] => if last < 1 <<< (8 * room) then some last else none
  | room, byte :: rest =>
    if byte < 256 then (joinParts (room - 1) rest).map (byte <<< (8 * (room - 1)) + ·) else none

def version4? (name : String) : Option Nat := do
  let parts ← (parts name).mapM part?
  if parts.length ≤ byteCount then joinParts byteCount parts else none

def version4Text (n : Nat) : String :=
  ".".intercalate ([24, 16, 8, 0].map fun shift => toString ((n >>> shift) % 256))

def groupCount : Nat := 8

def group? (cs : List Char) : Option Nat :=
  if cs.isEmpty || 4 < cs.length then none else inBase? 16 cs

def byte? (cs : List Char) : Option Nat := do
  guard (!cs.isEmpty && cs.length ≤ 3 && (cs.length = 1 || cs.head? != some '0'))
  let n ← inBase? 10 cs
  if n < 256 then some n else none

def embedded? (cs : List Char) : Option (List Nat) := do
  match ← ((String.ofList cs).splitOn ".").mapM (byte? ·.toList) with
  | [a, b, c, d] => some [a * 256 + b, c * 256 + d]
  | _ => none

/-- The groups between colons. The last two may be written as a number of version 4. -/
def groups? : List (List Char) → Option (List Nat)
  | [] => some []
  | [last] => if last.contains '.' then embedded? last else (group? last).map ([·])
  | g :: rest => do return (← group? g) :: (← groups? rest)

def groupsOf? (s : String) : Option (List Nat) :=
  if s.isEmpty then some [] else groups? ((s.splitOn ":").map String.toList)

/-- A number of version 6. Two colons stand for as many zeros as are missing. -/
def version6? (s : String) : Option (List Nat) := do
  match s.splitOn "::" with
  | [all] =>
    let groups ← groupsOf? all
    if groups.length = groupCount then some groups else none
  | [left, right] =>
    if left.contains '.' then failure
    let left ← groupsOf? left
    let right ← groupsOf? right
    let known := left.length + right.length
    if known < groupCount then some (left ++ List.replicate (groupCount - known) 0 ++ right)
    else none
  | _ => none

/-- The place and the length of the longest run of zeros, the first one if there are several. -/
def longestZeros (groups : List Nat) : Nat × Nat :=
  (List.range groups.length).foldl (fun best i =>
    let run := ((groups.drop i).takeWhile (· == 0)).length
    if best.2 < run then (i, run) else best) (0, 0)

def groupsText (groups : List Nat) : String :=
  ":".intercalate (groups.map fun g => String.ofList (Nat.toDigits 16 g))

/-- A number of version 6, with two colons for the longest run of several zeros. -/
def version6Text (groups : List Nat) : String :=
  let (start, run) := longestZeros groups
  if run ≤ 1 then groupsText groups
  else groupsText (groups.take start) ++ "::" ++ groupsText (groups.drop (start + run))

def isForbidden (c : Char) : Bool :=
  c.toNat = 0 || [' ', '\t', '\n', '\r', '#', '/', ':', '<', '>', '?', '@', '[', '\\', ']', '^',
    '|'].contains c

def isControl (c : Char) : Bool :=
  c.toNat < 0x20 || 0x7f ≤ c.toNat

def isForbiddenInName (c : Char) : Bool :=
  isForbidden c || c == '%' || c.toNat < 0x20 || c.toNat == 0x7f

def labelText (label : String) : String :=
  let cs := label.toList.map Char.toLower
  if cs.all (·.toNat < Text.Punycode.firstCode) then String.ofList cs
  else "xn--" ++ String.ofList (Text.Punycode.encode cs)

def domain? (cs : List Char) : Option String := do
  let name ← String.fromUTF8? ⟨(Text.percentDecode cs).toArray⟩
  let name := ".".intercalate ((name.splitOn ".").map labelText)
  if name.isEmpty || name.toList.any isForbiddenInName then none else some name

/-- A host in its written form. Only where domains are expected, escapes are resolved and names that
end in a number are taken for numbers. -/
def read? (isDomain : Bool) (cs : List Char) : Option Host := do
  match cs with
  | '[' :: rest =>
    guard (rest.getLast? == some ']')
    return .version6 (← version6? (String.ofList rest.dropLast))
  | cs =>
    if isDomain then
      let name ← domain? cs
      if endsInNumber name then return .version4 (← version4? name) else return .name name
    else
      guard (!cs.any isForbidden)
      return .name (String.ofList (cs.flatMap (Text.percentChar fun c => !isControl c)))

def text : Host → String
  | .name s => s
  | .version4 n => version4Text n
  | .version6 groups => "[" ++ version6Text groups ++ "]"

end Host

end QaLake
