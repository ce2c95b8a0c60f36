import QaLake.Error

namespace QaLake

/-- The records of an answer, and whether it links to a next page, if it has links at all. -/
structure Page where
  records : List Json
  hasNext : Option Bool
  deriving Repr

inductive ResponseForm
  | single
  | listUnder (key : String)
  deriving DecidableEq, Repr

namespace ResponseForm

def linksToNext (links : Json) : Bool :=
  match links.get? "next" with
  | some (.str s) => !s.isEmpty
  | _ => false

/-- The page of an envelope. An envelope without its list is an empty page. -/
def pageOfEnvelope (key : String) (envelope : Json) : Except Error Page :=
  let hasNext := (envelope.get? "_links").map linksToNext
  match envelope.get? key with
  | some (.arr records) => .ok ⟨records, hasNext⟩
  | some .null => .ok ⟨[], hasNext⟩
  | none => .ok ⟨[], hasNext⟩
  | some other => .error (.transport (.notAnArray key other.kindName))

def page (form : ResponseForm) (answer : Json) : Except Error Page :=
  match form, answer with
  | .single, .obj members => .ok ⟨[.obj members], none⟩
  | .single, other => .error (.transport (.notAnObject other.kindName))
  | .listUnder _, .arr records => .ok ⟨records, none⟩
  | .listUnder key, .obj members => pageOfEnvelope key (.obj members)
  | .listUnder _, other => .error (.transport (.notAList other.kindName))

end ResponseForm

end QaLake
