import QaLake.Error
import QaLake.RunScope
import QaLake.Text.Character

namespace QaLake

structure PathTemplate where
  text : String
  deriving DecidableEq, Repr

namespace PathTemplate

inductive Piece
  | char (c : Char)
  | placeholder (name : String)
  | unterminated
  deriving DecidableEq, Repr

mutual

def pieces : List Char → List Piece
  | [] => []
  | c :: cs => if c = '{' then placeholderPieces [] cs else .char c :: pieces cs

/-- The pieces from a place behind an opening brace; the name so far is given backwards. -/
def placeholderPieces (name : List Char) : List Char → List Piece
  | [] => [.unterminated]
  | c :: cs =>
    if c = '}' then .placeholder (String.ofList name.reverse) :: pieces cs
    else placeholderPieces (c :: name) cs

end

def inputField? (name : String) : Option String :=
  if "input.".toList.isPrefixOf name.toList then
    some (String.ofList (name.toList.drop "input.".toList.length))
  else none

def fieldText? : Json → Option String
  | .str s => some s
  | .num n => some n.text
  | _ => none

def resolve (t : PathTemplate) (scope : RunScope) (input : Option Json) (name : String) :
    Except Error String :=
  if name = "connectionId" then .ok (toString scope.connection)
  else if name = "projectId" then .ok (toString scope.project)
  else match inputField? name with
    | none => .error (.config (.unknownPlaceholder name t.text))
    | some field =>
      match input.bind (·.get? field) with
      | none => .error (.config (.missingInput t.text field))
      | some value =>
        match fieldText? value with
        | some s => .ok (Text.percentEncode s)
        | none => .error (.config (.inputNotScalar field value.text))

def renderPiece (t : PathTemplate) (scope : RunScope) (input : Option Json) :
    Piece → Except Error String
  | .char c => .ok (String.singleton c)
  | .placeholder name => t.resolve scope input name
  | .unterminated => .error (.config (.unterminatedPlaceholder t.text))

/-- The path for a scope and an input. Of several faults the leftmost is reported. -/
def render (t : PathTemplate) (scope : RunScope) (input : Option Json) : Except Error String := do
  let parts ← (pieces t.text.toList).mapM (t.renderPiece scope input)
  return String.join parts

end PathTemplate

end QaLake
