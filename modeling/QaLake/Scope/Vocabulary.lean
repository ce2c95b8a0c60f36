import QaLake.Scope.Config
import QaLake.Text.Character

namespace QaLake

inductive Vocabulary
  | status
  | caseType
  | priority
  deriving DecidableEq, Repr

namespace Vocabulary

def standard : Vocabulary → Int → String
  | .status, id =>
    if id = 1 then "SUCCESS"
    else if id = 2 then "BLOCKED"
    else if id = 5 then "FAILED"
    else if id = 6 then "SKIPPED"
    else "PENDING"
  | .caseType, id =>
    if id = 1 then "acceptance"
    else if id = 2 then "accessibility"
    else if id = 3 then "automated"
    else if id = 4 then "compatibility"
    else if id = 5 then "destructive"
    else if id = 7 then "other"
    else if id = 8 then "performance"
    else if id = 9 then "regression"
    else if id = 10 then "security"
    else if id = 11 then "smoke"
    else if id = 12 then "usability"
    else "functional"
  | .priority, id =>
    if id = 1 then "low"
    else if id = 3 then "high"
    else if id = 4 then "critical"
    else "medium"

def overrides (v : Vocabulary) (c : ScopeConfig) : Table String String :=
  match v with
  | .status => c.statuses
  | .caseType => c.types
  | .priority => c.priorities

def word (v : Vocabulary) (scope : Option ScopeConfig) (id : Int) : String :=
  match scope.bind fun c => (v.overrides c).get? (toString id) with
  | some w => w
  | none => v.standard id

end Vocabulary

/-- The text of a text, a number or a truth value. Texts lose the blanks at their ends. -/
def Json.scalarText : Json → Option String
  | .str s => some (Text.trim s)
  | .num n => some n.text
  | .bool b => some (if b then "true" else "false")
  | _ => none

namespace ScopeConfig

def defaultAutomatedValues : List String := ["automated", "yes", "true", "1"]

def sameIgnoringCase (s t : String) : Bool :=
  s.toList.map Char.toLower == t.toList.map Char.toLower

def marksAutomated (c : ScopeConfig) (fields : List (String × Json)) : Bool :=
  if c.automationField.isEmpty then false
  else match (Keyed.get? c.automationField fields).bind Json.scalarText with
    | none => false
    | some s =>
      let values := if c.automatedValues.isEmpty then defaultAutomatedValues else c.automatedValues
      values.any (sameIgnoringCase s)

end ScopeConfig

end QaLake
