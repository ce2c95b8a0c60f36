import QaLake.Json.Document
import QaLake.Json.Printer
import QaLake.Keyed.Table
import QaLake.Text.Printable
import QaLake.Time.Reader

namespace QaLake.Json

/-- Why a document is not of the expected form. -/
inductive Mismatch
  | wrongType (found expected : String)
  | wrongValue (found expected : String)
  | missingField (name : String)
  | duplicateField (name : String)
  | unknownVariant (name : String) (known : List String)
  | wrongLength (count : Nat) (expected : String)
  | surplus
  | instant (cause : Time.ReadError)
  deriving DecidableEq, Repr

def ticked (name : String) : String :=
  "`" ++ name ++ "`"

def alternatives : List String → String
  | [] => "nothing"
  | [a] => ticked a
  | [a, b] => ticked a ++ " or " ++ ticked b
  | names => "one of " ++ ", ".intercalate (names.map ticked)

def Mismatch.message : Mismatch → String
  | .wrongType found expected => "invalid type: " ++ found ++ ", expected " ++ expected
  | .wrongValue found expected => "invalid value: " ++ found ++ ", expected " ++ expected
  | .missingField name => "missing field " ++ ticked name
  | .duplicateField name => "duplicate field " ++ ticked name
  | .unknownVariant name known =>
    "unknown variant " ++ ticked name ++ ", expected " ++ alternatives known
  | .wrongLength count expected =>
    "invalid length " ++ toString count ++ ", expected " ++ expected
  | .surplus => "trailing characters"
  | .instant cause => cause.message

/-- Why decoding failed: the text is not JSON, or not of the expected form. -/
inductive Fault
  | malformed
  | mismatch (m : Mismatch)
  deriving DecidableEq, Repr

/-- Whether a text is not well formed or has something behind its end, rather than being of another
form than expected. -/
def Fault.isSyntactic : Fault → Bool
  | .malformed | .mismatch .surplus => true
  | _ => false

def Fault.message : Fault → String
  | .malformed => "not a JSON text"
  | .mismatch m => m.message

abbrev Decoder (α : Type) := Document → Except Fault α

/-- What a document was read from: a JSON text, a JSON value, or the settings. They differ in what
becomes of the items of an array behind the last field of a record, and in how a constant may be
written. -/
inductive Medium
  | text
  | value
  | settings
  deriving DecidableEq, Repr

namespace Decoder

variable {α β : Type}

def wrongType (expected : String) : Decoder α
  | .null => .error (.mismatch (.wrongType "null" expected))
  | .bool true => .error (.mismatch (.wrongType "boolean `true`" expected))
  | .bool false => .error (.mismatch (.wrongType "boolean `false`" expected))
  | .num none => .error .malformed
  | .num (some (.int n)) =>
    .error (.mismatch (.wrongType ("integer " ++ ticked (toString n)) expected))
  | .num (some (.float x)) =>
    .error (.mismatch (.wrongType
      ("floating point " ++ ticked (Number.float x).text) expected))
  | .str none => .error .malformed
  | .str (some s) => .error (.mismatch (.wrongType ("string " ++ Text.quoted s) expected))
  | .arr _ => .error (.mismatch (.wrongType "sequence" expected))
  | .obj _ => .error (.mismatch (.wrongType "map" expected))
  | .broken => .error .malformed

def integer (low high : Int) (expected : String) : Decoder Int
  | .num (some (.int n)) =>
    if low ≤ n ∧ n < high then .ok n
    else .error (.mismatch (.wrongValue ("integer " ++ ticked (toString n)) expected))
  | d => wrongType expected d

def int64 : Decoder Int :=
  integer (-Word.signedLimit) Word.signedLimit "i64"

/-- An unsigned 64-bit number; the name says what it is for. -/
def unsigned (expected : String) : Decoder Nat := fun d =>
  (integer 0 Word.unsignedLimit expected d).map Int.toNat

def string : Decoder String
  | .str (some s) => .ok s
  | d => wrongType "a string" d

def boolean : Decoder Bool
  | .bool b => .ok b
  | d => wrongType "a boolean" d

def instant : Decoder Instant
  | .str (some s) => (Time.lenient s).mapError fun e => .mismatch (.instant e)
  | d => wrongType "an RFC 3339 formatted date and time string" d

def value : Decoder Json := fun d =>
  match d.json? with
  | some j => .ok j
  | none => .error .malformed

def optional (dec : Decoder α) : Decoder (Option α)
  | .null => .ok none
  | d => (dec d).map some

def orDefault (default : α) (dec : Decoder α) : Decoder α
  | .null => .ok default
  | d => dec d

def list (dec : Decoder α) : Decoder (List α)
  | .arr items => items.mapM dec
  | d => wrongType "a sequence" d

def members (dec : Decoder α) : List (Option String × Document) → Table String α →
    Except Fault (Table String α)
  | [], t => .ok t
  | (none, _) :: _, _ => .error .malformed
  | (some name, d) :: rest, t => do
    let a ← dec d
    members dec rest (t.insert name a)

def table (dec : Decoder α) : Decoder (Table String α)
  | .obj ms => members dec ms .empty
  | d => wrongType "a map" d

/-- Nothing of its own, as it stands behind the name of a constant: null, or in the settings an
array or a table without entries. -/
def unit : Medium → Decoder Unit
  | .settings, .arr [] => .ok ()
  | .settings, .obj [] => .ok ()
  | .settings, _ => .error .malformed
  | _, .null => .ok ()
  | _, d => wrongType "unit" d

/-- One of some named constants: the name, or an object with the name as its only member. -/
def constant (variants : List (String × α)) (medium : Medium) : Decoder α
  | .str (some s) => pick s
  | .obj [(some s, d)] => do
    let a ← pick s
    unit medium d
    return a
  | .obj [(none, _)] => .error .malformed
  | .obj _ => .error (.mismatch (.wrongValue "map" "map with a single key"))
  | d => wrongType "string or map" d
where
  pick (s : String) : Except Fault α :=
    match variants.lookup s with
    | some a => .ok a
    | none => .error (.mismatch (.unknownVariant s (variants.map (·.1))))

end Decoder

/-- What becomes of a field that is not written. -/
inductive Absence
  /-- It keeps its default. -/
  | default
  /-- It keeps its default in an object, but an array must not end before it. -/
  | defaultInObject
  /-- It is an error. -/
  | required
  deriving DecidableEq, Repr

structure RecordField (σ : Type) where
  name : String
  absence : Absence
  read : Document → σ → Except Fault σ

def RecordField.of {σ α : Type} (name : String) (dec : Decoder α) (put : α → σ → σ)
    (absence : Absence) : RecordField σ :=
  ⟨name, absence, fun d r => (dec d).map fun a => put a r⟩

/-- A record: its name in messages, its value before any field is read, and its fields. It may be
written as an object, or as an array of the fields in the order of the description. -/
structure Shape (σ : Type) where
  name : String
  blank : σ
  fields : List (RecordField σ)

namespace Shape

variable {σ : Type} (shape : Shape σ)

def field? (name : String) : Option (RecordField σ) :=
  shape.fields.find? (·.name == name)

/-- The record with the members read in their order, and the names of the fields seen. Members
that are not fields are passed over. -/
def readMembers : List (Option String × Document) → List String → σ →
    Except Fault (List String × σ)
  | [], seen, r => .ok (seen, r)
  | (none, _) :: _, _, _ => .error .malformed
  | (some name, d) :: rest, seen, r =>
    match shape.field? name with
    | none => readMembers rest seen r
    | some f =>
      if seen.contains name then .error (.mismatch (.duplicateField name))
      else do readMembers rest (name :: seen) (← f.read d r)

def readItems (expected : String) (total : Nat) : List (RecordField σ) → List Document → σ →
    Except Fault σ
  | [], _, r => .ok r
  | f :: fs, [], r =>
    if f.absence = .default then readItems expected total fs [] r
    else .error (.mismatch (.wrongLength (total - (fs.length + 1)) expected))
  | f :: fs, d :: ds, r => do readItems expected total fs ds (← f.read d r)

def expected : String :=
  "struct " ++ shape.name

def expectedLength : String :=
  let n := shape.fields.length
  shape.expected ++ " with " ++ toString n ++ if n = 1 then " element" else " elements"

def ofMembers (members : List (Option String × Document)) : Except Fault σ := do
  let (seen, r) ← shape.readMembers members [] shape.blank
  match shape.fields.find? fun f => f.absence = .required && !seen.contains f.name with
  | some f => throw (.mismatch (.missingField f.name))
  | none => return r

def ofItems (medium : Medium) (items : List Document) : Except Fault σ := do
  let n := shape.fields.length
  let r ← readItems shape.expectedLength n shape.fields items shape.blank
  match medium, items.drop n with
  | .settings, _ | _, [] => return r
  | .text, .broken :: _ => throw .malformed
  | .text, _ => throw (.mismatch .surplus)
  | .value, _ => throw (.mismatch (.wrongLength items.length "fewer elements in array"))

def decode (medium : Medium) : Decoder σ
  | .obj members => shape.ofMembers members
  | .arr items => shape.ofItems medium items
  | d => Decoder.wrongType shape.expected d

end Shape

/-- Decodes a text. What stands behind the document counts only if the document is accepted. -/
def decodeText {α : Type} (dec : Medium → Decoder α) (s : String) : Except Fault α := do
  let (d, complete) := Document.read s
  let a ← dec .text d
  if complete then return a else throw .malformed

def decodeValue {α : Type} (dec : Medium → Decoder α) (j : Json) : Except Fault α :=
  dec .value (.ofJson j)

end QaLake.Json
