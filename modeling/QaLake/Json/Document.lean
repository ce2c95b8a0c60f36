import QaLake.Json.Literal
import QaLake.Text.Character

namespace QaLake.Json

/-- A written value. A number that is out of range and a text with half a surrogate pair are
missing. `broken` stands for what cannot be read as a value; the arrays and objects around it end
with it. -/
inductive Document
  | null
  | bool (b : Bool)
  | num (n : Option Number)
  | str (s : Option String)
  | arr (items : List Document)
  | obj (members : List (Option String × Document))
  | broken
  deriving Repr

namespace Document

instance : Inhabited Document := ⟨.null⟩

/-- The blanks of JSON: space, tab, line feed and carriage return. -/
def isBlank (c : Char) : Bool :=
  c == ' ' || c == '\t' || c == '\n' || c == '\r'

def skipBlanks (cs : List Char) : List Char :=
  cs.dropWhile isBlank

def digitValue (c : Char) : Nat :=
  c.toNat - '0'.toNat

def takeDigits (cs : List Char) : List Nat × List Char :=
  ((cs.takeWhile Char.isDigit).map digitValue, cs.dropWhile Char.isDigit)

/-- The whole digits of a number: a zero alone, or digits that do not start with one. -/
def wholeDigits? (cs : List Char) : Option (List Nat × List Char) :=
  match takeDigits cs with
  | ([], _) => none
  | ([d], rest) => some ([d], rest)
  | (d :: ds, rest) => if d = 0 then none else some (d :: ds, rest)

def fraction? : List Char → Option (Option (List Nat) × List Char)
  | '.' :: cs =>
    match takeDigits cs with
    | ([], _) => none
    | (ds, rest) => some (some ds, rest)
  | cs => some (none, cs)

def exponent? : List Char → Option (Option (Bool × List Nat) × List Char)
  | [] => some (none, [])
  | c :: cs =>
    if c == 'e' || c == 'E' then
      let (negative, cs) :=
        match cs with
        | '+' :: cs => (false, cs)
        | '-' :: cs => (true, cs)
        | cs => (false, cs)
      match takeDigits cs with
      | ([], _) => none
      | (ds, rest) => some (some (negative, ds), rest)
    else some (none, c :: cs)

def literal? (cs : List Char) : Option (Literal × List Char) := do
  let (negative, cs) := match cs with
    | '-' :: cs => (true, cs)
    | cs => (false, cs)
  let (whole, cs) ← wholeDigits? cs
  let (fraction, cs) ← fraction? cs
  let (exponent, cs) ← exponent? cs
  return (⟨negative, whole, fraction, exponent⟩, cs)

/-- A piece of a written text: a character, or the code of a numeric escape. -/
inductive Piece
  | char (c : Char)
  | code (n : Nat)
  deriving DecidableEq, Repr

def escaped? : Char → Option Char
  | '"' => some '"'
  | '\\' => some '\\'
  | '/' => some '/'
  | 'b' => some '\x08'
  | 'f' => some '\x0c'
  | 'n' => some '\n'
  | 'r' => some '\r'
  | 't' => some '\t'
  | _ => none

def hex4? (a b c d : Char) : Option Nat := do
  return ((← Text.hexValue? a) * 16 + (← Text.hexValue? b)) * 256 +
    (← Text.hexValue? c) * 16 + (← Text.hexValue? d)

def pieces? : List Char → Option (List Piece × List Char)
  | [] => none
  | '"' :: rest => some ([], rest)
  | '\\' :: 'u' :: a :: b :: c :: d :: rest => do
    let n ← hex4? a b c d
    let (ps, rest) ← pieces? rest
    return (.code n :: ps, rest)
  | '\\' :: e :: rest => do
    let c ← escaped? e
    let (ps, rest) ← pieces? rest
    return (.char c :: ps, rest)
  | c :: rest => do
    if c.toNat < 0x20 then none
    let (ps, rest) ← pieces? rest
    return (.char c :: ps, rest)

def isHigh (n : Nat) : Bool := 0xd800 ≤ n && n < 0xdc00

def isLow (n : Nat) : Bool := 0xdc00 ≤ n && n < 0xe000

/-- The characters of the pieces: a pair of halves is one character, and a half alone is none. -/
def assemble? : List Piece → Option (List Char)
  | [] => some []
  | .char c :: rest => (assemble? rest).map (c :: ·)
  | .code n :: .code m :: rest =>
    if isHigh n then
      if isLow m then
        (assemble? rest).map (Char.ofNat (0x10000 + (n - 0xd800) * 0x400 + (m - 0xdc00)) :: ·)
      else none
    else if isLow n then none
    else (assemble? (.code m :: rest)).map (Char.ofNat n :: ·)
  | .code n :: rest =>
    if isHigh n || isLow n then none else (assemble? rest).map (Char.ofNat n :: ·)

def string? (cs : List Char) : Option (Option String × List Char) := do
  let (ps, rest) ← pieces? cs
  return ((assemble? ps).map String.ofList, rest)

/-- The name of a member, and the value's text behind the colon if there is a colon. -/
def named? (cs : List Char) : Option (Option String × Option (List Char)) := do
  let '"' :: rest := cs | none
  let (name, rest) ← string? rest
  match skipBlanks rest with
  | ':' :: rest => return (name, some (skipBlanks rest))
  | _ => return (name, none)

/-- Where an array or an object stops being well formed, nothing follows that could be read. -/
abbrev Rest := Option (List Char)

mutual

/-- The value at the start of a text without leading blanks, and what follows it unless the value is
broken. The first argument bounds the nesting of calls; the length of the text suffices. -/
def value : Nat → List Char → Document × Rest
  | 0, _ => (.broken, none)
  | fuel + 1, cs =>
    match cs with
    | 'n' :: 'u' :: 'l' :: 'l' :: rest => (.null, some rest)
    | 't' :: 'r' :: 'u' :: 'e' :: rest => (.bool true, some rest)
    | 'f' :: 'a' :: 'l' :: 's' :: 'e' :: rest => (.bool false, some rest)
    | '"' :: rest =>
      match string? rest with
      | some (s, rest) => (.str s, some rest)
      | none => (.broken, none)
    | '[' :: rest =>
      match skipBlanks rest with
      | ']' :: rest => (.arr [], some rest)
      | rest =>
        let (items, rest) := items fuel rest
        (.arr items, rest)
    | '{' :: rest =>
      match skipBlanks rest with
      | '}' :: rest => (.obj [], some rest)
      | rest =>
        let (members, rest) := members fuel rest
        (.obj members, rest)
    | cs =>
      match literal? cs with
      | some (l, rest) => (.num l.number, some rest)
      | none => (.broken, none)

def items : Nat → List Char → List Document × Rest
  | 0, _ => ([.broken], none)
  | fuel + 1, cs =>
    match value fuel cs with
    | (item, none) => ([item, .broken], none)
    | (item, some rest) =>
      match skipBlanks rest with
      | ']' :: rest => ([item], some rest)
      | ',' :: rest =>
        let (items, rest) := items fuel (skipBlanks rest)
        (item :: items, rest)
      | _ => ([item, .broken], none)

def members : Nat → List Char → List (Option String × Document) × Rest
  | 0, _ => ([(none, .broken)], none)
  | fuel + 1, cs =>
    match named? cs with
    | none => ([(none, .broken)], none)
    | some (name, none) => ([(name, .broken), (none, .broken)], none)
    | some (name, some rest) =>
      match value fuel rest with
      | (value, none) => ([(name, value), (none, .broken)], none)
      | (value, some rest) =>
        match skipBlanks rest with
        | '}' :: rest => ([(name, value)], some rest)
        | ',' :: rest =>
          let (members, rest) := members fuel (skipBlanks rest)
          ((name, value) :: members, rest)
        | _ => ([(name, value), (none, .broken)], none)

end

/-- The document of a text, blanks around it aside, as far as it is well formed, and whether that is
throughout. -/
def read (s : String) : Document × Bool :=
  let cs := s.toList
  match value (cs.length + 1) (skipBlanks cs) with
  | (d, some rest) => (d, (skipBlanks rest).isEmpty)
  | (d, none) => (d, false)

def read? (s : String) : Option Document :=
  match read s with
  | (d, true) => some d
  | (_, false) => none

mutual

def depth : Document → Nat
  | .arr items => itemsDepth items + 1
  | .obj members => membersDepth members + 1
  | _ => 0

def itemsDepth : List Document → Nat
  | [] => 0
  | item :: rest => max (depth item) (itemsDepth rest)

def membersDepth : List (Option String × Document) → Nat
  | [] => 0
  | (_, value) :: rest => max (depth value) (membersDepth rest)

end

mutual

def json? : Document → Option Json
  | .null => some .null
  | .bool b => some (.bool b)
  | .num n => n.map .num
  | .str s => s.map .str
  | .arr items => (itemsJson? items).map .arr
  | .obj members => (membersJson? members).map Json.ofMembers
  | .broken => none

def itemsJson? : List Document → Option (List Json)
  | [] => some []
  | item :: rest => do return (← json? item) :: (← itemsJson? rest)

def membersJson? : List (Option String × Document) → Option (List (String × Json))
  | [] => some []
  | (name, value) :: rest => do return (← name, ← json? value) :: (← membersJson? rest)

end

mutual

def ofJson : Json → Document
  | .null => .null
  | .bool b => .bool b
  | .num n => .num (some n)
  | .str s => .str (some s)
  | .arr items => .arr (ofItems items)
  | .obj members => .obj (ofMembers members)

def ofItems : List Json → List Document
  | [] => []
  | item :: rest => ofJson item :: ofItems rest

def ofMembers : List (String × Json) → List (Option String × Document)
  | [] => []
  | (name, value) :: rest => (some name, ofJson value) :: ofMembers rest

end

def maxDepth : Nat := 127

end Document

def parse? (s : String) : Option Json := do
  let d ← Document.read? s
  if d.depth ≤ Document.maxDepth then d.json? else none

end QaLake.Json
