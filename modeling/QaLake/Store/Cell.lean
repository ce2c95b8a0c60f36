import QaLake.Json.Printer
import QaLake.Store.Numeral

namespace QaLake

/-- The value of a column. A JSON column holds the text of a value; `json j d` holds the text of `d`
where `j` is null. -/
inductive Column
  | null
  | int (n : Int)
  | flag (b : Bool)
  | text (s : String)
  | json (j d : Json)
  deriving Repr

namespace Column

def optInt : Option Int → Column
  | none => .null
  | some n => .int n

def optText : Option String → Column
  | none => .null
  | some s => .text s

end Column

abbrev Columns := List (String × Column)

namespace Store

inductive Cell
  | text (s : String)
  | int (n : Int)
  | real (x : Binary64)
  | infinite (negative : Bool)
  deriving DecidableEq, Repr

namespace Cell

def isBlank (c : Char) : Bool :=
  c == ' ' || (0x9 ≤ c.toNat && c.toNat ≤ 0xd)

def trim (cs : List Char) : List Char :=
  ((cs.dropWhile isBlank).reverse.dropWhile isBlank).reverse

/-- A floating-point number as a whole one, if it is one well within a signed 64-bit word. -/
def ofFloat (x : Binary64) : Cell :=
  match x.toInt? with
  | some n => if -Word.signedLimit < n ∧ n + 1 < Word.signedLimit then .int n else .real x
  | none => .real x

def ofNumeral (n : Text.Numeral) : Cell :=
  let magnitude : Int := Text.digitsValue n.digits
  let whole := if n.negative then -magnitude else magnitude
  if n.hasPoint = false ∧ n.exponent = none ∧ Word.IsSigned whole then .int whole
  else match floatOf n with
    | some x => ofFloat x
    | none => .infinite n.negative

/-- The cell of a text in a column of numeric affinity, such as one for JSON or for times. A numeral
is kept as the number it denotes, and is no text any more to what reads the column. -/
def ofText (s : String) : Cell :=
  match Text.numeral? (trim s.toList) with
  | some n => ofNumeral n
  | none => .text s

def text? : Cell → Option String
  | .text s => some s
  | _ => none

def ofBool (b : Bool) : Cell :=
  .int (if b then 1 else 0)

def ofColumn : Column → Option Cell
  | .null => none
  | .int n => some (.int n)
  | .flag b => some (ofBool b)
  | .text s => some (.text s)
  | .json .null d => some (ofText d.text)
  | .json j _ => some (ofText j.text)

end Cell

abbrev Cells := List (String × Option Cell)

def cells (columns : Columns) : Cells :=
  columns.map fun (name, column) => (name, Cell.ofColumn column)

class OfCell (α : Type) where
  ofCell? : Option Cell → Option α

instance : OfCell Int where
  ofCell?
    | some (.int n) => some n
    | _ => none

instance : OfCell Bool where
  ofCell?
    | some (.int n) => some (n != 0)
    | _ => none

instance : OfCell String where
  ofCell? c := c.bind Cell.text?

instance {α : Type} [OfCell α] : OfCell (Option α) where
  ofCell?
    | none => some none
    | some c => (OfCell.ofCell? (some c)).map some

namespace Cells

def get? {α : Type} [OfCell α] (c : Cells) (name : String) : Option α :=
  (c.lookup name).bind OfCell.ofCell?

end Cells

end Store

end QaLake
