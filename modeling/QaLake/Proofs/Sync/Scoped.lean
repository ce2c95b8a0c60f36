import QaLake.Proofs.Sync.Conversion
import QaLake.Proofs.Tool.Record
import QaLake.Subtask

namespace QaLake

open Store

namespace Tool.Row

/-- The project that a row of one of the converted kinds is stored under; a project is its own. -/
def projectColumn? : Row → Option Int
  | .project r => some r.id
  | r => r.project?

def hasPositiveId (r : Row) : Bool :=
  match r.name.id with
  | .inl id => 0 < id
  | .inr _ => false

def reread : Row → Row
  | .case c => .case c.reread
  | r => r

theorem name_reread (r : Row) : r.reread.name = r.name := by
  cases r <;> rfl

end Tool.Row

/-- The tool rows of a kind whose connection and project are those of a scope. -/
def Store.ToolTables.rowsIn (t : ToolTables) (scope : RunScope) (kind : EntityKind) :
    List Tool.Row :=
  (t.rows kind).filter fun r =>
    r.connectionId == scope.connection && r.projectColumn? == some scope.project

theorem Store.ToolTables.converted_eq (t : ToolTables) (scope : RunScope) {kind : EntityKind}
    (hkind : kind.isConverted = true) : t.converted scope kind =
      ((t.rowsIn scope kind).filter Tool.Row.hasPositiveId).map Tool.Row.reread := by
  cases kind with
  | project | case | run | result =>
    rw [converted, rowsIn, rows, streamed, rowsOf, List.filter_map, List.filter_map, List.map_map,
      List.map_map]
    rfl
  | _ => cases hkind

theorem Store.ToolTables.hasPositiveId_of_mem_converted {t : ToolTables} {scope : RunScope}
    {kind : EntityKind} (hkind : kind.isConverted = true) {r : Tool.Row}
    (hr : r ∈ t.converted scope kind) : r.hasPositiveId = true := by
  rw [t.converted_eq scope hkind] at hr
  obtain ⟨stored, hstored, rfl⟩ := List.mem_map.1 hr
  have hpositive := (List.mem_filter.1 hstored).2
  rwa [Tool.Row.hasPositiveId, stored.name_reread]

end QaLake
