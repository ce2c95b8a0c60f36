import QaLake.Address.Host
import QaLake.Text.Numeral

namespace QaLake

/-- The path of an address: segments, or a text without a structure. -/
inductive AddressPath
  | segments (names : List String)
  | plain (text : String)
  deriving DecidableEq, Repr

/-- An address. Its host is missing where no place for one was given; the number of the socket to
connect to is missing where it need not be said. -/
structure Address where
  scheme : String
  host : Option Host := none
  socket : Option Nat := none
  path : AddressPath := .segments []
  query : Option String := none
  fragment : Option String := none
  deriving DecidableEq, Repr

namespace Address

/-- The schemes whose addresses always have a host, with the number of the socket that need not be
said. -/
def defaultSockets : List (String × Nat) :=
  [("http", 80), ("https", 443), ("ftp", 21), ("ws", 80), ("wss", 443)]

def fileScheme : String := "file"

/-- Whether addresses of a scheme have domains as hosts and take a backslash for a slash. -/
def isSpecial (scheme : String) : Bool :=
  scheme == fileScheme || (defaultSockets.lookup scheme).isSome

/-- The scheme at the start of a text, in lower case, and what stands behind its colon. -/
def takeScheme? (cs : List Char) : Option (String × List Char) :=
  let scheme := cs.takeWhile fun c => c.isAlphanum || c == '+' || c == '-' || c == '.'
  match scheme, cs.drop scheme.length with
  | first :: _, ':' :: rest =>
    if first.isAlpha then some (String.ofList (scheme.map Char.toLower), rest) else none
  | _, _ => none

def keptInFragment (c : Char) : Bool :=
  !(Host.isControl c || [' ', '"', '<', '>', '\x60'].contains c)

def keptInSegment (c : Char) : Bool :=
  keptInFragment c && !(['#', '?', '\x7b', '\x7d'].contains c)

def keptInQuery (special : Bool) (c : Char) : Bool :=
  !(Host.isControl c || [' ', '"', '#', '<', '>'].contains c || (special && c == '\''))

def encoded (kept : Char → Bool) (cs : List Char) : String :=
  String.ofList (cs.flatMap (Text.percentChar kept))

/-- A key or a value among the pairs of a query. A space is written as a plus sign. -/
def formText (s : String) : String :=
  let kept := fun (c : Char) => c.isAlphanum || ['*', '-', '.', '_'].contains c
  String.ofList (s.toList.flatMap fun c => if c == ' ' then ['+'] else Text.percentChar kept c)

def isSlash (special : Bool) (c : Char) : Bool :=
  c == '/' || (special && c == '\\')

def dots? (segment : List Char) : Option Nat :=
  match segment.map Char.toLower with
  | ['.'] | ['%', '2', 'e'] => some 1
  | ['.', '.'] | ['.', '%', '2', 'e'] | ['%', '2', 'e', '.'] | ['%', '2', 'e', '%', '2', 'e'] =>
    some 2
  | _ => none

/-- Adds segments to the ones before them, which are given backwards. One dot leaves them as they
are, two dots take one away; at the end either leaves an empty segment. -/
def addSegments : List String → List (List Char) → List String
  | before, [] => before
  | before, segment :: rest =>
    let before := match dots? segment with
      | none => encoded keptInSegment segment :: before
      | some n =>
        let before := if n = 1 then before else before.tail
        if rest.isEmpty then "" :: before else before
    addSegments before rest

def pieces (special : Bool) : List Char → List (List Char)
  | [] => [[]]
  | c :: cs =>
    if isSlash special c then [] :: pieces special cs
    else match pieces special cs with
      | [] => [[c]]
      | piece :: rest => (c :: piece) :: rest

/-- The path of a text. A slash at its start is passed over. -/
def readPath (special : Bool) (cs : List Char) : AddressPath :=
  match cs with
  | [] => .segments (if special then [""] else [])
  | c :: rest =>
    let cs := if isSlash special c then rest else c :: rest
    .segments (addSegments [] (pieces special cs)).reverse

/-- A host up to the colon before the number of a socket, and the rest. Colons between brackets
belong to the host. -/
def splitSocket : Bool → List Char → List Char × List Char
  | _, [] => ([], [])
  | inBrackets, c :: cs =>
    if c == ':' && !inBrackets then ([], c :: cs)
    else
      let inside := if c == '[' then true else if c == ']' then false else inBrackets
      let (host, rest) := splitSocket inside cs
      (c :: host, rest)

def maxSocket : Nat := 65535

def readSocket? (scheme : String) : List Char → Option (Option Nat)
  | [] | [_] => some none
  | _ :: digits =>
    if !digits.all Char.isDigit then none
    else
      let n := Text.digitsValue digits
      if maxSocket < n then none
      else some (if defaultSockets.lookup scheme = some n then none else some n)

/-- The characters behind the last sign between a name of a user and a host, if there is one. -/
def withoutUser (cs : List Char) : List Char :=
  (cs.reverse.takeWhile (· != '@')).reverse

/-- The host of an address and its socket; a user is passed over. A host of domains must not be
empty, and neither must one behind a user or before a socket. -/
def readAuthority? (scheme : String) (cs : List Char) : Option (Host × Option Nat) := do
  let located := withoutUser cs
  let (host, socket) := splitSocket false located
  if host.isEmpty then
    guard (!isSpecial scheme && located.length == cs.length && socket.isEmpty)
    return (.name "", none)
  else return (← Host.read? (isSpecial scheme) host, ← readSocket? scheme socket)

/-- The host of an address of a file. The machine itself need not be said. -/
def readFileHost? (cs : List Char) : Option Host :=
  if cs.isEmpty then some (.name "")
  else (Host.read? true cs).map fun h => if h = .name "localhost" then .name "" else h

def cleaned (s : String) : List Char :=
  let isBlank := fun (c : Char) => c.toNat ≤ 0x20
  let trimmed := ((s.toList.dropWhile isBlank).reverse.dropWhile isBlank).reverse
  trimmed.filter fun c => !(['\t', '\n', '\r'].contains c)

/-- The part of a text before a character, and the part behind it if it occurs. -/
def splitAt (mark : Char) (cs : List Char) : List Char × Option (List Char) :=
  match cs.dropWhile (· != mark) with
  | [] => (cs, none)
  | _ :: rest => (cs.takeWhile (· != mark), some rest)

def withoutSlashes (special : Bool) (cs : List Char) : List Char :=
  cs.dropWhile (isSlash special)

def hasAuthority (special : Bool) (cs : List Char) : Bool :=
  2 ≤ (cs.takeWhile (isSlash special)).length

def readPlace? (scheme : String) (cs : List Char) : Option Address := do
  let special := isSpecial scheme
  let split := fun (cs : List Char) =>
    let host := cs.takeWhile fun c => !isSlash special c
    (host, readPath special (cs.drop host.length))
  if scheme == fileScheme then
    if hasAuthority special cs then
      let (host, path) := split (cs.drop 2)
      return { scheme := scheme, host := some (← readFileHost? host), path := path }
    else return { scheme := scheme, host := some (.name ""), path := readPath special cs }
  else if special || hasAuthority special cs then
    let (place, path) := split (if special then withoutSlashes special cs else cs.drop 2)
    let (host, socket) ← readAuthority? scheme place
    return { scheme := scheme, host := some host, socket := socket, path := path }
  else if cs.head? == some '/' then
    return { scheme := scheme, path := readPath special cs }
  else return { scheme := scheme, path := .plain (encoded (fun c => !Host.isControl c) cs) }

def read? (s : String) : Option Address := do
  let (scheme, cs) ← takeScheme? (cleaned s)
  let (cs, fragment) := splitAt '#' cs
  let (cs, query) := splitAt '?' cs
  let place ← readPlace? scheme cs
  return { place with
    query := query.map (encoded (keptInQuery (isSpecial scheme)))
    fragment := fragment.map (encoded keptInFragment) }

def pathText : AddressPath → String
  | .segments names => String.join (names.map ("/" ++ ·))
  | .plain s => s

variable (a : Address)

def text : String :=
  let place := a.host.map fun h =>
    "//" ++ h.text ++ (a.socket.map fun p => ":" ++ toString p).getD ""
  let query := a.query.map ("?" ++ ·)
  let fragment := a.fragment.map ("#" ++ ·)
  a.scheme ++ ":" ++ place.getD "" ++ pathText a.path ++ query.getD "" ++ fragment.getD ""

def hasHost : Bool :=
  match a.host with
  | none | some (.name "") => false
  | some _ => true

def isWeb : Bool :=
  a.scheme == "http" || a.scheme == "https"

/-- An address with pairs added to its query. A query without anything in it is left out. -/
def addPairs (pairs : List (String × String)) : Address :=
  let added := pairs.map fun (key, value) => formText key ++ "=" ++ formText value
  let all := (a.query.filter (!·.isEmpty)).toList ++ added
  { a with query := if all.isEmpty then none else some ("&".intercalate all) }

end Address

end QaLake
