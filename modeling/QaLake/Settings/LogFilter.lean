import QaLake.Error
import QaLake.Text.Alphanumeric
import QaLake.Text.Character
import QaLake.Text.Numeral
import QaLake.Text.Pattern

namespace QaLake.LogFilter

def quietTargets : List String := ["hyper", "hyper_util", "reqwest", "rustls", "h2"]

def directives (level : String) : String :=
  String.join (Text.trim level :: quietTargets.map fun target => "," ++ target ++ "=warn")

inductive Fault
  | directive
  | field (cause : Text.Pattern.Fault)
  | level
  deriving DecidableEq, Repr

def Fault.message : Fault → String
  | .directive => "invalid filter directive"
  | .field cause => "invalid field filter: " ++ cause.message
  | .level =>
    "error parsing level filter: expected one of \"off\", \"error\", \"warn\", \"info\", " ++
      "\"debug\", \"trace\", or a number 0-5"

def levelWords : List String := ["off", "error", "warn", "info", "debug", "trace"]

def levelCount : Nat := 6

/-- Whether a text is a number, possibly behind a plus sign, that stands for a level. -/
def isLevelNumber (cs : List Char) : Bool :=
  let digits := if cs.head? == some '+' then cs.tail else cs
  !digits.isEmpty && digits.all Char.isDigit && Text.digitsValue digits < levelCount

/-- Whether a text stands for a level. The case of letters makes no difference. -/
def isLevel (cs : List Char) : Bool :=
  isLevelNumber cs || levelWords.contains (String.ofList (cs.map Char.toLower))

/-- Whether a text is a number, which may be none or without bounds. -/
def isNumber (cs : List Char) : Bool :=
  let word := String.ofList ((Text.takeSign cs).2.map Char.toLower)
  (Text.numeral? cs).isSome || ["inf", "infinity", "nan"].contains word

/-- Accepts a field if its value can be read. A second equals sign ends the value. -/
def checkField (field : String) : Except Fault Unit :=
  match field.splitOn "=" with
  | _ :: value :: _ =>
    if isNumber value.toList then .ok () else (Text.Pattern.check value).mapError .field
  | _ => .ok ()

/-- A place in a directive: at its start, in a target or a level, in brackets, in braces, and behind
either of them. The fields are those from a byte on. -/
inductive Place
  | start
  | target
  | span
  | fields (first : Nat)
  | afterFields
  | afterSpan
  deriving DecidableEq, Repr

/-- Whether a directive can begin with a character that is not a bracket. -/
def beginsTarget (c : Char) : Bool :=
  ['-', ':', '_'].contains c || Text.isAlphanumeric c

def between (directive : String) (first last : Nat) : String :=
  (String.fromUTF8? (directive.toUTF8.extract first last)).getD ""

/-- What stands behind the equals sign of a directive, if it has one. The characters that are left
begin at a byte. Bytes are counted without the blanks before the directive, but fields are cut out
of it with these blanks. -/
def levelPart (directive : String) : Place → Nat → List Char → Except Fault (Option (List Char))
  | .target, _, [] | .afterSpan, _, [] => .ok none
  | .start, _, [] | .span, _, [] | .fields _, _, [] | .afterFields, _, [] => .error .directive
  | place, i, c :: cs =>
    let go := fun place => levelPart directive place (i + c.utf8Size) cs
    match place with
    | .start =>
      if c = '[' then go .span else if beginsTarget c then go .target else .error .directive
    | .target => if c = '=' then .ok (some cs) else go (if c = '[' then .span else .target)
    | .span => go (if c = ']' then .afterSpan else if c = '{' then .fields (i + 1) else .span)
    | .fields first =>
      if c ≠ '}' then go (.fields first)
      else if first = i then .error .directive
      else do
        checkField (between directive first i)
        go .afterFields
    | .afterFields => if c = ']' then go .afterSpan else .error .directive
    | .afterSpan => if c = '=' then .ok (some cs) else .error .directive

/-- A level alone, or a target, optionally with a span and its fields in brackets, and a level
behind an equals sign. -/
def checkDirective (directive : String) : Except Fault Unit := do
  let cs := Text.trimChars directive.toList
  match ← levelPart directive .start 0 cs with
  | none => return ()
  | some level =>
    if cs = directive.toList ∧ (level.isEmpty ∨ isLevel level) then return ()
    else throw .level

def validate (level : String) : Except Error Unit :=
  let pieces := ((directives level).splitOn ",").filter fun piece => !piece.isEmpty
  (pieces.forM checkDirective).mapError fun f => .config (.logLevel level f.message)

end QaLake.LogFilter
