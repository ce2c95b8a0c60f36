import QaLake.Scope.Vocabulary
import QaLake.Text.Numeral

namespace QaLake

namespace FieldMapping

/-- The truth value of a value: of a number, whether it is not zero; of a text, the usual words. -/
def toBool? : Json → Option Bool
  | .bool b => some b
  | .num (.int n) => some (n != 0)
  | .num (.float x) => some (!x.isZero)
  | .str s =>
    let word := (Text.trimChars s.toList).map Char.toLower
    if ["true", "yes", "1"].any (·.toList == word) then some true
    else if ["false", "no", "0"].any (·.toList == word) then some false
    else none
  | _ => none

/-- The number of a value: a whole one where a text is written so and it fits, else the nearest
floating-point number. -/
def toNumber? : Json → Option Json.Number
  | .num n => some n
  | .str s =>
    let s := Text.trim s
    match Text.int64? s with
    | some n => some (.int n)
    | none => (Text.float? s).map .float
  | _ => none

/-- The instant of a value: of a whole number as Unix time, of a text in the internet date format or
as a date. -/
def toInstant? : Json → Option Instant
  | .str s =>
    let s := Text.trim s
    match Time.strict? s with
    | some t => some t
    | none =>
      let date := (Time.dateIn? .yearMonthDay s).or (Time.dateIn? .monthDayYear s)
      date.map Time.midnight
  | j => j.int64?.map Instant.ofUnix

def coerce (fieldType : String) (j : Json) : Json :=
  let coerced : Option Json :=
    if fieldType = "string" then j.scalarText.map .str
    else if fieldType = "boolean" then (toBool? j).map .bool
    else if fieldType = "number" then (toNumber? j).map .num
    else if fieldType = "date" then (toInstant? j).map fun t => .str t.text
    else none
  coerced.getD j

/-- The name under which a custom field is kept: its own unless another is given. -/
def target (m : FieldMapping) (systemName : String) : String :=
  if m.targetField.isEmpty then systemName else m.targetField

end FieldMapping

namespace ScopeConfig

/-- The attribute that a mapping makes of the custom fields, if the field is there and not null. -/
def attribute? (fields : List (String × Json)) (systemName : String) (m : FieldMapping) :
    Option (String × Json) :=
  match Keyed.get? systemName fields with
  | none => none
  | some .null => none
  | some j => some (m.target systemName, FieldMapping.coerce m.fieldType j)

def attributes (c : ScopeConfig) (fields : List (String × Json)) : List (String × Json) :=
  Keyed.ofList (c.customFields.entries.filterMap fun (name, m) => attribute? fields name m)

def attributesOf (scope : Option ScopeConfig) (fields : List (String × Json)) : Json :=
  .obj (scope.elim [] fun c => c.attributes fields)

/-- Whether a case is automated under a configuration; without one, none is. -/
def automated (scope : Option ScopeConfig) (fields : List (String × Json)) : Bool :=
  scope.any fun c => c.marksAutomated fields

end ScopeConfig

end QaLake
