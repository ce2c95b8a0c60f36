import QaLake.Toml.Scalar

namespace QaLake.Toml

open Json (Document)
open Reader

inductive Item
  /-- A value, which is closed. -/
  | value (d : Document)
  /-- A table: whether it was only mentioned on the way, and whether that was by a dotted key. -/
  | table (implicit dotted : Bool) (entries : List (String × Item))
  /-- Tables under one repeated header, the last one first. -/
  | tables (items : List (List (String × Item)))

abbrev Entries := List (String × Item)

namespace Entries

def find? (key : String) (entries : Entries) : Option Item :=
  entries.lookup key

/-- The entries with an item under a key in place of the one that was there. -/
def put (key : String) (item : Item) (entries : Entries) : Entries :=
  if entries.any (·.1 == key) then
    entries.map fun e => if e.1 == key then (key, item) else e
  else entries ++ [(key, item)]

def remove (key : String) (entries : Entries) : Entries :=
  entries.filter (·.1 != key)

/-- Changes the table at the end of a path. Tables on the way are made where there are none, and of
tables under a repeated header the last is taken. A dotted key does not lead into a table that was
written out. The change learns whether the table was reached by dotted keys alone. -/
def modifyAt (dotted : Bool) (change : Bool → Entries → Option Entries) :
    List String → Bool → Entries → Option Entries
  | [], reachedDotted, entries => change reachedDotted entries
  | key :: path, _, entries =>
    match find? key entries with
    | none => do
      let made ← modifyAt dotted change path dotted []
      return put key (.table true dotted made) entries
    | some (.value _) => none
    | some (.tables []) => none
    | some (.tables (last :: others)) => do
      let last ← modifyAt dotted change path false last
      return put key (.tables (last :: others)) entries
    | some (.table implicit byDots members) =>
      if dotted && !implicit then none
      else do
        let members ← modifyAt dotted change path byDots members
        return put key (.table implicit byDots members) entries

/-- The table at the end of a path of headers. Where there is none, it has no entries. -/
def reach : List String → Entries → Option Entries
  | [], entries => some entries
  | key :: path, entries =>
    match find? key entries with
    | none => reach path []
    | some (.table _ _ members) => reach path members
    | some (.tables (last :: _)) => reach path last
    | some _ => none

end Entries

def splitKey (key : List String) : List String × String :=
  (key.dropLast, key.getLastD "")

/-- Adds a value under a dotted key. The table it belongs to must have been made by dotted keys, or
be the one that the key is written in. -/
def Entries.addValue (key : List String) (d : Document) (entries : Entries) : Option Entries :=
  let (path, last) := splitKey key
  entries.modifyAt true (fun byDots table =>
    if byDots == path.isEmpty then none
    else if table.any (·.1 == last) then none
    else some (table.put last (.value d))) path false

mutual

def Item.document : Item → Document
  | .value d => d
  | .table _ _ entries => .obj (entriesDocument entries)
  | .tables items => .arr (itemsDocument items).reverse

def entriesDocument : List (String × Item) → List (Option String × Document)
  | [] => []
  | (key, item) :: rest => (some key, item.document) :: entriesDocument rest

def itemsDocument : List (List (String × Item)) → List Document
  | [] => []
  | entries :: rest => .obj (entriesDocument entries) :: itemsDocument rest

end

/-- A part of a key: quoted, or of letters, digits, dashes and underscores. -/
def keyPart : Reader String :=
  lineString <|> do
    let cs ← takeWhile fun c => c.isAlphanum || c == '-' || c == '_'
    if cs.isEmpty then failure else return String.ofList cs

def keyParts : Nat → Reader (List String)
  | 0 => failure
  | n + 1 => do
    blanks
    let part ← keyPart
    blanks
    match ← optional (literal ['.']) with
    | some () => return part :: (← keyParts n)
    | none => return [part]

/-- How many parts a key may have, and how many arrays and inline tables may lie in one another. -/
def maxDepth : Nat := 79

def key : Reader (List String) := fun cs => do
  let (parts, cs) ← keyParts (cs.length + 1) cs
  if parts.length ≤ maxDepth then some (parts, cs) else none

def comment : Reader Unit := do
  literal ['#']
  let _ ← takeWhile isPlain

def blankLines : Nat → Reader Unit
  | 0 => pure ()
  | n + 1 => do
    blanks
    let _ ← optional comment
    match ← optional newline with
    | some () => blankLines n
    | none => pure ()

def filler : Reader Unit := fun cs =>
  blankLines (cs.length + 1) cs

mutual

/-- A value. The first argument bounds the number of calls, the second says how many more arrays and
inline tables may lie in one another. -/
def value : Nat → Nat → Reader Document
  | 0, _ => failure
  | n + 1, room => do
    match ← get, room with
    | '[' :: cs, room + 1 =>
      set cs
      return .arr (← items n room)
    | '{' :: cs, room + 1 =>
      set cs
      blanks
      match ← optional (literal ['}']) with
      | some () => return .obj []
      | none => return .obj (entriesDocument (← members n room []))
    | _, _ => scalar

def items : Nat → Nat → Reader (List Document)
  | 0, _ => failure
  | n + 1, room => do
    filler
    match ← optional (literal [']']) with
    | some () => return []
    | none =>
      let item ← value n room
      filler
      match ← optional (literal [',']) with
      | some () => return item :: (← items n room)
      | none =>
        literal [']']
        return [item]

def members : Nat → Nat → Entries → Reader Entries
  | 0, _, _ => failure
  | n + 1, room, entries => do
    let key ← key
    literal ['=']
    blanks
    let d ← value n room
    blanks
    let entries ← entries.addValue key d
    match ← optional (literal [',']) with
    | some () => members n room entries
    | none =>
      literal ['}']
      return entries

end

/-- The end of a statement: blanks, a comment, and the end of the line or of the text. -/
def lineEnd : Reader Unit := do
  blanks
  let _ ← optional comment
  if (← get).isEmpty then return () else newline

/-- Where the members that follow belong: the tables so far, the header they stand under and whether
it is a repeated one, and the open table. -/
structure Builder where
  root : Entries
  path : List String
  repeated : Bool
  current : Entries

namespace Builder

def close (b : Builder) : Option Entries :=
  if b.path.isEmpty then some b.current
  else
    let (path, last) := splitKey b.path
    b.root.modifyAt false (fun _ table =>
      match Entries.find? last table with
      | none =>
        let item := if b.repeated then .tables [b.current] else .table false false b.current
        some (Entries.put last item table)
      | some (.tables items) =>
        if b.repeated then some (Entries.put last (.tables (b.current :: items)) table) else none
      | some _ => none) path false

def start : Builder := ⟨[], [], false, []⟩

/-- The builder behind a header. A header opens a table that does not exist or was only mentioned on
the way to another one; a repeated header adds a table to those it has added before. -/
def opened (b : Builder) (repeated : Bool) (key : List String) : Option Builder := do
  let root ← b.close
  let (path, last) := splitKey key
  let parent ← root.reach path
  match repeated, Entries.find? last parent with
  | _, none => return ⟨root, key, repeated, []⟩
  | true, some (.tables _) => return ⟨root, key, true, []⟩
  | false, some (.table true false entries) =>
    let root ← root.modifyAt false (fun _ table => some (Entries.remove last table)) path false
    return ⟨root, key, false, entries⟩
  | _, _ => none

def added (b : Builder) (key : List String) (d : Document) : Option Builder := do
  return { b with current := ← b.current.addValue key d }

end Builder

def header (b : Builder) : Reader Builder := do
  literal ['[']
  match ← optional (literal ['[']) with
  | some () =>
    let key ← key
    literal [']', ']']
    lineEnd
    b.opened true key
  | none =>
    let key ← key
    literal [']']
    lineEnd
    b.opened false key

def member (b : Builder) : Reader Builder := do
  let key ← key
  literal ['=']
  blanks
  let d ← value ((← get).length + 1) maxDepth
  lineEnd
  b.added key d

def statements : Nat → Builder → Reader Builder
  | 0, _ => failure
  | n + 1, b => do
    filler
    match (← get).head? with
    | none => return b
    | some '[' => statements n (← header b)
    | some _ => statements n (← member b)

def read? (s : String) : Option Document := do
  let cs := s.toList
  let cs := if cs.head? == some '\ufeff' then cs.drop 1 else cs
  let (b, _) ← statements (cs.length + 1) .start cs
  return .obj (entriesDocument (← b.close))

end QaLake.Toml
