import QaLake.Error
import QaLake.RunScope
import QaLake.Scope.Config

namespace QaLake

open Json

structure RunOptions where
  connection : Int := 0
  project : Int := 0
  name : Option String := none
  title : Option String := none
  scopeConfig : Option ScopeConfig := none
  createdAfter : Option Instant := none

namespace RunOptions

/-- The description of the options. Every field may be left out. -/
def shape (medium : Medium) : Shape RunOptions where
  name := "TaskOptions"
  blank := {}
  fields := [
    .of "connectionId" Decoder.int64 (fun v o => { o with connection := v }) .default,
    .of "projectId" Decoder.int64 (fun v o => { o with project := v }) .default,
    .of "name" (Decoder.optional Decoder.string) (fun v o => { o with name := v }) .default,
    .of "title" (Decoder.optional Decoder.string) (fun v o => { o with title := v }) .default,
    .of "scopeConfig" (Decoder.optional (ScopeConfig.decode medium))
      (fun v o => { o with scopeConfig := v }) .default,
    .of "createdDateAfter" (Decoder.optional Decoder.instant)
      (fun v o => { o with createdAfter := v }) .default]

def decode (medium : Medium) : Decoder RunOptions :=
  (shape medium).decode medium

def validate (o : RunOptions) : Except Error Unit :=
  if o.connection ≤ 0 then .error (.badInput .noConnection)
  else if o.project ≤ 0 then .error (.badInput .noProject)
  else .ok ()

def ofText (s : String) : Except Error RunOptions := do
  let o ← (decodeText decode s).mapError fun f => Error.badInput (.undecodable f)
  o.validate
  return o

def scope (o : RunOptions) : RunScope :=
  ⟨o.connection, o.project⟩

end RunOptions

end QaLake
