import QaLake.Text.Alphanumeric
import QaLake.Text.Character

namespace QaLake.Text.Pattern

/-- Why no automaton can be made of a text. -/
inductive Fault
  | malformed
  | wordBoundary
  deriving DecidableEq, Repr

def Fault.message : Fault → String
  | .malformed => "error building NFA"
  | .wordBoundary =>
    "unsupported regex feature for DFAs: cannot build DFAs for regexes with Unicode word " ++
      "boundaries; switch to ASCII word boundaries, or heuristically enable Unicode word " ++
      "boundaries or use a different regex engine"

/-- How characters are taken: as characters of all scripts or as bytes, and with or without regard
to their case. -/
structure Mode where
  allScripts : Bool := true
  ignoresCase : Bool := false
  deriving DecidableEq, Repr

/-- What can be repeated, other than a group. A kind is that of digits, blanks or letters. -/
inductive Atom
  | literal (c : Char)
  | any
  | kind (negated : Bool)
  | set (negated : Bool)
  | anchor
  | wordBoundary
  deriving DecidableEq, Repr

/-- Whether an atom can be had without tables, and without splitting characters into bytes. -/
def Mode.admits (m : Mode) : Atom → Bool
  | .literal _ => !(m.allScripts && m.ignoresCase)
  | .any => m.allScripts
  | .kind negated => !m.allScripts && !negated
  | .set negated => if m.allScripts then !m.ignoresCase else !negated
  | .anchor | .wordBoundary => true

def coded? (count : Nat) (cs : List Char) : Option (Atom × List Char) :=
  if cs.length < count then none
  else (charOfCode? (cs.take count)).map fun c => (.literal c, cs.drop count)

def escape? : List Char → Option (Atom × List Char)
  | [] => none
  | 'x' :: cs => coded? 2 cs
  | 'u' :: cs => coded? 4 cs
  | 'U' :: cs => coded? 8 cs
  | c :: cs =>
    if ['d', 's', 'w'].contains c then some (.kind false, cs)
    else if ['D', 'S', 'W'].contains c then some (.kind true, cs)
    else if ['A', 'z'].contains c then some (.anchor, cs)
    else if ['b', 'B', '<', '>'].contains c then some (.wordBoundary, cs)
    else match ['a', 't', 'n', 'v', 'f', 'r'].idxOf? c with
      | some i => some (.literal (Char.ofNat ([7, 9, 10, 11, 12, 13].getD i 0)), cs)
      | none => if c.toNat < 128 && !c.isAlphanum then some (.literal c, cs) else none

/-- The start of a set behind its bracket: whether it is negated, and the rest. Dashes there stand
for themselves, and so does a bracket if it comes first. -/
def setStart (cs : List Char) : Bool × List Char :=
  let negated := cs.head? == some '^'
  let cs := if negated then cs.tail else cs
  let rest := cs.dropWhile (· == '-')
  (negated, if rest.length = cs.length ∧ rest.head? = some ']' then rest.tail else rest)

def setNames : List String := [
  "alnum", "alpha", "ascii", "blank", "cntrl", "digit", "graph", "lower", "print", "punct",
  "space", "upper", "word", "xdigit"]

def namedSet? : List Char → Option (List Char)
  | ':' :: cs =>
    let cs := if cs.head? == some '^' then cs.tail else cs
    let name := cs.takeWhile (· != ':')
    match cs.drop name.length with
    | ':' :: ']' :: rest => if setNames.contains (String.ofList name) then some rest else none
    | _ => none
  | _ => none

def setAtom? : List Char → Option (Atom × List Char)
  | [] => none
  | '\\' :: cs => escape? cs
  | c :: cs => some (.literal c, cs)

def isMember (m : Mode) : Atom → Bool
  | .literal _ => true
  | .kind negated => m.admits (.kind negated)
  | _ => false

def setMember? (m : Mode) (cs : List Char) : Option (List Char) := do
  let (first, cs) ← setAtom? cs
  match cs with
  | '-' :: ']' :: _ | '-' :: '-' :: _ => if isMember m first then some cs else none
  | '-' :: cs =>
    match first, ← setAtom? cs with
    | .literal a, (.literal b, cs) => if a ≤ b then some cs else none
    | _, _ => none
  | _ => if isMember m first then some cs else none

/-- The rest behind so many sets that lie in one another. The first argument bounds the number of
calls. -/
def setRest? (m : Mode) : Nat → Nat → List Char → Option (List Char)
  | _, 0, cs => some cs
  | 0, _, _ => none
  | _, _, [] => none
  | n + 1, depth + 1, ']' :: cs => setRest? m n depth cs
  | n + 1, depth + 1, '[' :: cs =>
    match namedSet? cs with
    | some cs => setRest? m n (depth + 1) cs
    | none =>
      let (negated, cs) := setStart cs
      if m.admits (.set negated) then setRest? m n (depth + 2) cs else none
  | n + 1, depth + 1, '&' :: '&' :: cs => setRest? m n (depth + 1) cs
  | n + 1, depth + 1, '-' :: '-' :: cs => setRest? m n (depth + 1) cs
  | n + 1, depth + 1, '~' :: '~' :: cs => setRest? m n (depth + 1) cs
  | n + 1, depth + 1, cs => do setRest? m n (depth + 1) (← setMember? m cs)

/-- A place in a pattern: the mode there, the modes around the open groups, whether there is
something to repeat, the names of groups so far, and whether words were told apart. -/
structure Place where
  mode : Mode := {}
  outer : List Mode := []
  repeatable : Bool := false
  names : List (List Char) := []
  tellsWords : Bool := false

namespace Place

def atom? (p : Place) (a : Atom) (cs : List Char) : Option (Place × List Char) :=
  if p.mode.admits a then
    let tells := a == .wordBoundary && p.mode.allScripts
    some ({ p with repeatable := true, tellsWords := p.tellsWords || tells }, cs)
  else none

def inner (p : Place) (m : Mode) : Place :=
  { p with mode := m, outer := p.mode :: p.outer, repeatable := false }

def isName : List Char → Bool
  | [] => false
  | c :: cs =>
    (c == '_' || (isAlphanumeric c && !c.isDigit)) &&
      cs.all fun c => isAlphanumeric c || ['_', '.', '[', ']'].contains c

def flagged? (m : Mode) (flags : List Char) : Option Mode :=
  let set := flags.takeWhile (· != '-')
  let known := flags.all fun c => ['i', 'm', 's', 'U', 'u', 'x', 'R', '-'].contains c
  if !known || flags.getLast? == some '-' || flags.eraseDups.length != flags.length then none
  else
    let of := fun (c : Char) (before : Bool) => if flags.contains c then set.contains c else before
    some ⟨of 'u' m.allScripts, of 'i' m.ignoresCase⟩

def group? (p : Place) : List Char → Option (Place × List Char)
  | '?' :: '!' :: _ | '?' :: '=' :: _ => none
  | '?' :: '<' :: cs | '?' :: 'P' :: '<' :: cs =>
    let name := cs.takeWhile (· != '>')
    match cs.drop name.length with
    | '>' :: rest =>
      if isName name && !p.names.contains name then
        some ({ p.inner p.mode with names := name :: p.names }, rest)
      else none
    | _ => none
  | '?' :: cs =>
    let flags := cs.takeWhile fun c => c != ':' && c != ')'
    match flagged? p.mode flags, cs.drop flags.length with
    | some m, ':' :: rest => some (p.inner m, rest)
    | some m, ')' :: rest =>
      if flags.isEmpty then none else some ({ p with mode := m, repeatable := false }, rest)
    | _, _ => none
  | cs => some (p.inner p.mode, cs)

/-- The place behind the next part of a pattern, which begins with a character. A brace opens a
number of repetitions, which is not known here. -/
def next? (p : Place) (c : Char) (cs : List Char) : Option (Place × List Char) :=
  match c with
  | '(' => p.group? cs
  | ')' =>
    match p.outer with
    | [] => none
    | m :: outer => some ({ p with mode := m, outer := outer, repeatable := true }, cs)
  | '|' => some ({ p with repeatable := false }, cs)
  | '?' | '*' | '+' =>
    if p.repeatable then some (p, if cs.head? == some '?' then cs.tail else cs) else none
  | '{' => none
  | '[' => do
    let (negated, inside) := setStart cs
    p.atom? (.set negated) (← setRest? p.mode (inside.length + 1) 1 inside)
  | '\\' => do
    let (a, cs) ← escape? cs
    p.atom? a cs
  | '.' => p.atom? .any cs
  | '^' | '$' => p.atom? .anchor cs
  | c => p.atom? (.literal c) cs

def last? : Nat → Place → List Char → Option Place
  | _, p, [] => if p.outer.isEmpty then some p else none
  | 0, _, _ => none
  | n + 1, p, c :: cs => do
    let (p, cs) ← p.next? c cs
    last? n p cs

end Place

def check (s : String) : Except Fault Unit :=
  match Place.last? s.length {} s.toList with
  | none => .error .malformed
  | some p => if p.tellsWords then .error .wordBoundary else .ok ()

end QaLake.Text.Pattern
