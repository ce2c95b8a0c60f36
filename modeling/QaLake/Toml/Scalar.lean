import QaLake.Json.Document
import QaLake.Text.Numeral
import QaLake.Time.Calendar

namespace QaLake.Toml

open Json (Document)

/-- A reader of the start of a text, which may not be of the form it reads. -/
abbrev Reader := StateT (List Char) Option

namespace Reader

def takeWhile (p : Char → Bool) : Reader (List Char) := fun cs =>
  some (cs.takeWhile p, cs.dropWhile p)

def char (p : Char → Bool) : Reader Char
  | [] => none
  | c :: cs => if p c then some (c, cs) else none

def literal (word : List Char) : Reader Unit := fun cs =>
  if word.isPrefixOf cs then some ((), cs.drop word.length) else none

def consumed (r : Reader Unit) : Reader (List Char) := fun cs => do
  let ((), rest) ← r cs
  return (cs.take (cs.length - rest.length), rest)

end Reader

open Reader

def isBlank (c : Char) : Bool :=
  c == ' ' || c == '\t'

def blanks : Reader Unit := do
  let _ ← takeWhile isBlank

def newline : Reader Unit :=
  literal ['\n'] <|> literal ['\r', '\n']

def isPlain (c : Char) : Bool :=
  c == '\t' || (0x20 ≤ c.toNat && c.toNat != 0x7f)

def escape : Reader Char
  | 'b' :: cs => some ('\x08', cs)
  | 't' :: cs => some ('\t', cs)
  | 'n' :: cs => some ('\n', cs)
  | 'f' :: cs => some ('\x0c', cs)
  | 'r' :: cs => some ('\r', cs)
  | '"' :: cs => some ('"', cs)
  | '\\' :: cs => some ('\\', cs)
  | 'u' :: cs => if cs.length < 4 then none else (Text.charOfCode? (cs.take 4)).map (·, cs.drop 4)
  | 'U' :: cs => if cs.length < 8 then none else (Text.charOfCode? (cs.take 8)).map (·, cs.drop 8)
  | _ => none

/-- A text up to its closing quote. The first argument bounds the number of characters. -/
def basicBody : Nat → Reader (List Char)
  | 0, _ => none
  | _ + 1, [] => none
  | n + 1, c :: cs =>
    if c == '"' then some ([], cs)
    else if c == '\\' then do
      let (e, cs) ← escape cs
      let (rest, cs) ← basicBody n cs
      return (e :: rest, cs)
    else if isPlain c then do
      let (rest, cs) ← basicBody n cs
      return (c :: rest, cs)
    else none

def skipLines : List Char → List Char
  | ' ' :: cs => skipLines cs
  | '\t' :: cs => skipLines cs
  | '\n' :: cs => skipLines cs
  | '\r' :: '\n' :: cs => skipLines cs
  | cs => cs

/-- The closing quotes of a text of several lines. One or two quotes before them belong to the
text. -/
def closing? (quote : Char) (cs : List Char) : Option (List Char × List Char) :=
  let run := min (cs.takeWhile (· == quote)).length 5
  if 3 ≤ run then some (List.replicate (run - 3) quote, cs.drop run) else none

/-- A text of several lines up to its closing quotes. A backslash at the end of a line joins it to
the next characters that are not blank. -/
def basicLines : Nat → Reader (List Char)
  | 0, _ => none
  | n + 1, cs =>
    match closing? '"' cs with
    | some r => some r
    | none =>
      match cs with
      | [] => none
      | '\r' :: '\n' :: cs => (basicLines n cs).map fun (rest, cs) => ('\n' :: rest, cs)
      | '\\' :: cs =>
        match newline (cs.dropWhile isBlank) with
        | some ((), cs) => basicLines n (skipLines cs)
        | none => do
          let (e, cs) ← escape cs
          let (rest, cs) ← basicLines n cs
          return (e :: rest, cs)
      | c :: cs =>
        if isPlain c || c == '\n' then (basicLines n cs).map fun (rest, cs) => (c :: rest, cs)
        else none

def literalBody : Reader (List Char) := do
  let body ← takeWhile fun c => c != '\'' && isPlain c
  literal ['\'']
  return body

def literalLines : Nat → Reader (List Char)
  | 0, _ => none
  | n + 1, cs =>
    match closing? '\'' cs with
    | some r => some r
    | none =>
      match cs with
      | [] => none
      | '\r' :: '\n' :: cs => (literalLines n cs).map fun (rest, cs) => ('\n' :: rest, cs)
      | c :: cs =>
        if isPlain c || c == '\n' then (literalLines n cs).map fun (rest, cs) => (c :: rest, cs)
        else none

def lineString : Reader String := fun cs =>
  match cs with
  | '"' :: cs => (basicBody (cs.length + 1) cs).map fun (s, cs) => (String.ofList s, cs)
  | '\'' :: cs => (literalBody cs).map fun (s, cs) => (String.ofList s, cs)
  | _ => none

def dropNewline (cs : List Char) : List Char :=
  match newline cs with
  | some ((), cs) => cs
  | none => cs

def string : Reader String := fun cs =>
  match cs with
  | '"' :: '"' :: '"' :: cs =>
    (basicLines (cs.length + 1) (dropNewline cs)).map fun (s, cs) => (String.ofList s, cs)
  | '\'' :: '\'' :: '\'' :: cs =>
    (literalLines (cs.length + 1) (dropNewline cs)).map fun (s, cs) => (String.ofList s, cs)
  | cs => lineString cs

def digitRun (p : Char → Bool) : Nat → Reader Unit
  | 0 => failure
  | n + 1 => do
    let _ ← char p
    (do let _ ← optional (literal ['_']); digitRun p n) <|> pure ()

def digits (p : Char → Bool) : Reader Unit := fun cs =>
  digitRun p cs.length cs

def sign : Reader Unit := do
  let _ ← optional (char fun c => c == '+' || c == '-')

/-- The whole part of a number: a zero alone, or digits that do not start with one. -/
def wholePart : Reader Unit := do
  sign
  if (← get).head? == some '0' then literal ['0'] else digits Char.isDigit

def exponent : Reader Unit := do
  let _ ← char fun c => c == 'e' || c == 'E'
  sign
  digits Char.isDigit

def fraction : Reader Unit := do
  literal ['.']
  digits Char.isDigit

def numberText (r : Reader Unit) : Reader String := do
  return String.ofList ((← consumed r).filter (· != '_'))

/-- A number with a fraction or an exponent. One beyond the greatest number is refused; one below
the least is kept as a number out of range. -/
def float : Reader Document := do
  let s ← numberText do
    wholePart
    exponent <|> (do fraction; let _ ← optional exponent)
  match Text.float? s with
  | some x => return .num (some (.float x))
  | none => if s.front == '-' then return .num none else failure

def decimal : Reader Document := do
  let n ← Text.int64? (← numberText wholePart)
  return .num (some (.int n))

def based (letter : Char) (base : Nat) : Reader Document := do
  literal ['0', letter]
  let isDigit := fun c => (Text.hexValue? c).any (· < base)
  let ds ← consumed (digits isDigit)
  let n := (ds.filter (· != '_')).foldl
    (fun n c => n * base + (Text.hexValue? c).getD 0) 0
  if n < Word.signedLimit then return .num (some (.int n)) else failure

def pair (low high : Nat) : Reader Nat := do
  let a ← char Char.isDigit
  let b ← char Char.isDigit
  let n := Text.digitsValue [a, b]
  if low ≤ n ∧ n ≤ high then return n else failure

def time : Reader Unit := do
  let _ ← pair 0 23
  literal [':']
  let _ ← pair 0 59
  literal [':']
  let _ ← pair 0 60
  let _ ← optional do
    literal ['.']
    let _ ← char Char.isDigit
    let _ ← takeWhile Char.isDigit

def offset : Reader Unit :=
  (do let _ ← char fun c => c == 'Z' || c == 'z') <|> do
    let _ ← char fun c => c == '+' || c == '-'
    let _ ← pair 0 23
    literal [':']
    let _ ← pair 0 59

def date : Reader Unit := do
  let century ← pair 0 99
  let year ← pair 0 99
  literal ['-']
  let month ← pair 1 12
  literal ['-']
  let day ← pair 1 31
  let date : Time.Date := ⟨(century * 100 + year : Nat), month, day⟩
  if date.isValid then return () else failure

def datetimeKey : String := "datetime"

def datetime : Reader Document := do
  let s ← consumed <| time <|> do
    date
    let _ ← optional do
      let _ ← char fun c => c == 'T' || c == 't' || c == ' '
      time
      let _ ← optional offset
  return .obj [(some datetimeKey, .str (some (String.ofList s)))]

/-- A floating-point number that is not finite. Its value is of no use to anyone, so it is kept as a
number out of range. -/
def notFinite : Reader Document := do
  sign
  literal ['i', 'n', 'f'] <|> literal ['n', 'a', 'n']
  return .num none

def scalar : Reader Document :=
  (do return .str (some (← string))) <|>
  (do literal ['t', 'r', 'u', 'e']; return .bool true) <|>
  (do literal ['f', 'a', 'l', 's', 'e']; return .bool false) <|>
  datetime <|> float <|> notFinite <|> based 'x' 16 <|> based 'o' 8 <|> based 'b' 2 <|> decimal

end QaLake.Toml
