import QaLake.Keyed.Basic
import QaLake.Number.Binary64
import QaLake.Number.Word

namespace QaLake

/-- A number: a whole one of the 64-bit ranges, signed or unsigned, or a floating-point one. -/
inductive Json.Number
  | int (n : Int)
  | float (x : Binary64)
  deriving DecidableEq, Repr

inductive Json
  | null
  | bool (b : Bool)
  | num (n : Json.Number)
  | str (s : String)
  | arr (items : List Json)
  | obj (members : List (String × Json))
  deriving Repr

namespace Json

instance : Inhabited Json := ⟨.null⟩

def int (n : Int) : Json := .num (.int n)

def ofMembers (members : List (String × Json)) : Json :=
  .obj (Keyed.ofList members)

def get? (name : String) : Json → Option Json
  | .obj members => Keyed.get? name members
  | _ => none

/-- The whole number it is, if it is one that fits a signed 64-bit word. -/
def int64? : Json → Option Int
  | .num (.int n) => if Word.IsSigned n then some n else none
  | _ => none

def bool? : Json → Option Bool
  | .bool b => some b
  | _ => none

def str? : Json → Option String
  | .str s => some s
  | _ => none

def items? : Json → Option (List Json)
  | .arr items => some items
  | _ => none

def kindName : Json → String
  | .null => "null"
  | .bool _ => "boolean"
  | .num _ => "number"
  | .str _ => "string"
  | .arr _ => "array"
  | .obj _ => "object"

def ofOption {α : Type} (f : α → Json) : Option α → Json
  | none => .null
  | some a => f a

end Json

end QaLake
