import QaLake.Json.Decode

namespace QaLake

open Json

structure RunScope where
  connection : Int
  project : Int
  deriving DecidableEq, Repr

namespace RunScope

/-- The tag of the staged records of a scope: a JSON object with the members in fixed order. -/
def tag (s : RunScope) : String :=
  "\x7b\"connectionId\":" ++ toString s.connection ++ ",\"projectId\":" ++ toString s.project ++
    "\x7d"

def shape : Shape RunScope where
  name := "ApiParams"
  blank := ⟨0, 0⟩
  fields := [
    .of "connectionId" Decoder.int64 (fun v s => { s with connection := v }) .required,
    .of "projectId" Decoder.int64 (fun v s => { s with project := v }) .required]

def ofText (s : String) : Except Fault RunScope :=
  decodeText shape.decode s

end RunScope

end QaLake
