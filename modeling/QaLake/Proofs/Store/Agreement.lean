import QaLake.Proofs.Store.Contents
import QaLake.Store.Database

namespace QaLake

open Store

variable {ν : Type} {view : Entry → ν}

/-- Whether two sets of tables agree, where `view` is what is seen of a staged record. -/
structure Store.Tables.Agree (view : Entry → ν) (t u : Tables) : Prop where
  tool : t.tool = u.tool
  domain : t.domain = u.domain
  scopes : t.scopes = u.scopes
  contents (table tag : String) :
    (t.staging.contents table tag).map view = (u.staging.contents table tag).map view

theorem Store.Tables.Agree.refl (t : Tables) : t.Agree view t :=
  ⟨rfl, rfl, rfl, fun _ _ => rfl⟩

/-- Whether two databases agree. One without tables agrees with no other. -/
def Database.Agree (view : Entry → ν) : Database → Database → Prop
  | .unmigrated, .unmigrated => True
  | .migrated t, .migrated u => t.Agree view u
  | _, _ => False

theorem Database.Agree.refl (db : Database) : db.Agree view db := by
  cases db with
  | unmigrated => trivial
  | migrated t => exact Tables.Agree.refl t

end QaLake
