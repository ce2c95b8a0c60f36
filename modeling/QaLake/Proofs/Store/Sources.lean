import QaLake.Proofs.Store.Columns
import QaLake.Proofs.Store.Reading
import QaLake.Proofs.Store.Rows

namespace QaLake.Store

theorem stagedSource_reads (table : String) (scope : RunScope) (t : Tables) :
    (stagedSource table scope).Reads (.migrated t) (t.staging.rowsOf table scope.tag)
      (fun r => (r.id : Int)) StagedRow.record? where
  ascending := by
    have h := t.staging.ascending.filter (Staging.belongs table scope.tag)
    exact h.imp fun hlt => Int.ofNat_lt.2 hlt
  position_read := by
    intro a r h
    obtain ⟨data, hdata, h⟩ := Option.bind_eq_some_iff.1 h
    cases hinput : a.input with
    | none =>
      rw [hinput] at h
      cases h
      rfl
    | some cell =>
      rw [hinput] at h
      obtain ⟨text, htext, h⟩ := Option.bind_eq_some_iff.1 h
      cases h
      rfl
  batch := by
    intro after limit
    change Database.read (.migrated t) (fun t => t.staging.batch? table scope.tag after limit) = _
    rw [Database.read, Staging.batch?]
    cases (((t.staging.rowsOf table scope.tag).filter fun r => decide (after < (r.id : Int))).take
      limit).mapM StagedRow.record? <;> rfl
  length_le := List.length_filter_le _ _

theorem staged_positive (table tag : String) (s : Staging) :
    ((s.rowsOf table tag).filter fun r => decide (0 < (r.id : Int))) = s.rowsOf table tag := by
  rw [List.filter_eq_self]
  intro r hr
  have hpos := (s.bounded r (List.mem_filter.1 hr).1).1
  simpa using hpos

def Staging.records? (s : Staging) (table tag : String) : Option (List StagedRecord) :=
  (s.rowsOf table tag).mapM StagedRow.record?

theorem toList_staged (table : String) (scope : RunScope) (t : Tables) (batchSize : Nat) :
    (Cursor.start (stagedSource table scope) batchSize).toList (.migrated t) =
      readOrFail (t.staging.records? table scope.tag) := by
  rw [Cursor.toList_start (stagedSource_reads table scope t), staged_positive]
  rfl

def Streamed.cells {ρ : Type} [Streamed ρ] (r : ρ) : Cells :=
  (Upserted.upsert (Streamed.key (ρ := ρ))).cells r

/-- A kind of rows that are read back from their cells, with their key and their project, in a table
of their own among the tool tables. -/
class LawfulStreamed (ρ : Type) [Streamed ρ] : Prop where
  ofCells?_cells : ∀ r : ρ, Streamed.ofCells? (Streamed.cells r) = some (Streamed.reread r)
  connection_cells : ∀ r : ρ,
    (Streamed.cells r).get? "connection_id" = some (Streamed.key r).connection
  id_cells : ∀ r : ρ, (Streamed.cells r).get? "id" = some (Streamed.key r).id
  project_cells : ∀ r : ρ,
    (Streamed.cells r).get? (Streamed.projectColumn ρ) = some (Streamed.project r)
  key_reread : ∀ r : ρ, Streamed.key (Streamed.reread r) = Streamed.key r
  project_reread : ∀ r : ρ, Streamed.project (Streamed.reread r) = Streamed.project r
  toRow_inj : ∀ r r' : ρ, Streamed.toRow r = Streamed.toRow r' → r = r'
  name_toRow : ∀ r : ρ, (Streamed.toRow r).name =
    ⟨Streamed.kind ρ, (Streamed.key r).connection, .inl (Streamed.key r).id⟩
  find?_eq : ∀ (t : ToolTables) (k : RowKey Int),
    t.find? ⟨Streamed.kind ρ, k.connection, .inl k.id⟩ =
      ((Streamed.table (ρ := ρ) t).get? k).map Streamed.toRow

instance : LawfulStreamed Tool.Project where
  ofCells?_cells := Tool.Project.ofCells?_cells
  connection_cells _ := rfl
  id_cells _ := rfl
  project_cells _ := rfl
  key_reread _ := rfl
  project_reread _ := rfl
  toRow_inj _ _ := Tool.Row.project.inj
  name_toRow _ := rfl
  find?_eq _ _ := rfl

instance : LawfulStreamed Tool.Suite where
  ofCells?_cells := Tool.Suite.ofCells?_cells
  connection_cells _ := rfl
  id_cells _ := rfl
  project_cells _ := rfl
  key_reread _ := rfl
  project_reread _ := rfl
  toRow_inj _ _ := Tool.Row.suite.inj
  name_toRow _ := rfl
  find?_eq _ _ := rfl

instance : LawfulStreamed Tool.Run where
  ofCells?_cells := Tool.Run.ofCells?_cells
  connection_cells _ := rfl
  id_cells _ := rfl
  project_cells _ := rfl
  key_reread _ := rfl
  project_reread _ := rfl
  toRow_inj _ _ := Tool.Row.run.inj
  name_toRow _ := rfl
  find?_eq _ _ := rfl

instance : LawfulStreamed Tool.Result where
  ofCells?_cells := Tool.Result.ofCells?_cells
  connection_cells _ := rfl
  id_cells _ := rfl
  project_cells _ := rfl
  key_reread _ := rfl
  project_reread _ := rfl
  toRow_inj _ _ := Tool.Row.result.inj
  name_toRow _ := rfl
  find?_eq _ _ := rfl

instance : LawfulStreamed Tool.Case where
  ofCells?_cells := Tool.Case.ofCells?_cells
  connection_cells _ := rfl
  id_cells _ := rfl
  project_cells _ := rfl
  key_reread _ := rfl
  project_reread _ := rfl
  toRow_inj _ _ := Tool.Row.case.inj
  name_toRow _ := rfl
  find?_eq _ _ := rfl

section Tool

variable (ρ : Type) [Streamed ρ]

def ToolTables.rowsOf (t : ToolTables) (scope : RunScope) : List ρ :=
  (Streamed.table (ρ := ρ) t).rows.filter fun r =>
    (Streamed.key r).connection == scope.connection && Streamed.project r == scope.project

theorem rowsOf_ascending (t : ToolTables) (scope : RunScope) :
    (t.rowsOf ρ scope).Pairwise fun a b => (Streamed.key a).id < (Streamed.key b).id := by
  refine List.Pairwise.imp_of_mem ?_ ((Streamed.table t).rows_ascending.filter _)
  intro a b ha hb h
  have hca := (List.mem_filter.1 ha).2
  have hcb := (List.mem_filter.1 hb).2
  simp only [Bool.and_eq_true, beq_iff_eq] at hca hcb
  simp only [KeyOrder.before, RowKey.before, Bool.or_eq_true, decide_eq_true_eq, Bool.and_eq_true,
    beq_iff_eq, hca.1, hcb.1] at h
  obtain h | ⟨-, h⟩ := h
  · exact absurd h (Int.lt_irrefl _)
  · exact h

theorem batch?_eq [LawfulStreamed ρ] (t : ToolTables) (scope : RunScope) (after : Int)
    (limit : Nat) : t.batch? ρ scope after limit =
      (((t.rowsOf ρ scope).filter fun r => after < (Streamed.key r).id).take limit).mapM
        fun r => some (Streamed.reread r) := by
  have hbehind : ToolTables.isBehind (Streamed.projectColumn ρ) scope after ∘ Streamed.cells =
      fun r : ρ => decide (after < (Streamed.key r).id) &&
        ((Streamed.key r).connection == scope.connection &&
          Streamed.project r == scope.project) := by
    funext r
    simp [ToolTables.isBehind, LawfulStreamed.connection_cells, LawfulStreamed.id_cells,
      LawfulStreamed.project_cells, Bool.and_comm]
  have hread : Streamed.ofCells? ∘ Streamed.cells = fun r : ρ => some (Streamed.reread r) :=
    funext LawfulStreamed.ofCells?_cells
  change ((((Streamed.table t).stored.rows.filter
    (ToolTables.isBehind (Streamed.projectColumn ρ) scope after)).take limit).mapM
      Streamed.ofCells?) = _
  rw [RowTable.rows_stored]
  change ((((Streamed.table t).rows.map Streamed.cells).filter _).take limit).mapM _ = _
  rw [List.filter_map, hbehind, ← List.map_take, List.mapM_map, hread, ToolTables.rowsOf,
    List.filter_filter]

theorem toolSource_reads [LawfulStreamed ρ] (scope : RunScope) (t : Tables) :
    (toolSource ρ scope).Reads (.migrated t) (t.tool.rowsOf ρ scope)
      (fun r => (Streamed.key r).id) (fun r => some (Streamed.reread r)) where
  ascending := rowsOf_ascending ρ t.tool scope
  position_read := by
    intro a r h
    cases h
    change (Streamed.key (Streamed.reread a)).id = _
    rw [LawfulStreamed.key_reread]
  batch after limit := by
    change Database.read (.migrated t) (fun t => t.tool.batch? ρ scope after limit) = _
    rw [← batch?_eq]
    simp only [Database.read]
    cases t.tool.batch? ρ scope after limit <;> rfl
  length_le := by
    change _ ≤ (Streamed.table t.tool).stored.rows.length
    rw [RowTable.rows_stored, List.length_map]
    exact List.length_filter_le _ _

def ToolTables.streamed (t : ToolTables) (scope : RunScope) : List ρ :=
  ((t.rowsOf ρ scope).filter fun r => 0 < (Streamed.key r).id).map Streamed.reread

theorem toList_tool [LawfulStreamed ρ] (scope : RunScope) (t : Tables) (batchSize : Nat) :
    (Cursor.start (toolSource ρ scope) batchSize).toList (.migrated t) =
      .ok (t.tool.streamed ρ scope) := by
  rw [Cursor.toList_start (toolSource_reads ρ scope t)]
  exact congrArg readOrFail (List.mapM_pure (m := Option))

variable {ρ} in
theorem scope_of_mem_streamed [LawfulStreamed ρ] {tool : ToolTables} {scope : RunScope} {r : ρ}
    (h : r ∈ tool.streamed ρ scope) :
    (Streamed.key r).connection = scope.connection ∧ Streamed.project r = scope.project := by
  obtain ⟨a, ha, rfl⟩ := List.mem_map.1 h
  have hscope := (List.mem_filter.1 (List.mem_filter.1 ha).1).2
  simp only [Bool.and_eq_true, beq_iff_eq] at hscope
  rwa [LawfulStreamed.key_reread, LawfulStreamed.project_reread]

theorem streamed_congr [LawfulStreamed ρ] {t u : ToolTables} (scope : RunScope)
    (h : ∀ n, n.kind = Streamed.kind ρ → t.find? n = u.find? n) :
    t.streamed ρ scope = u.streamed ρ scope := by
  have htable : Streamed.table (ρ := ρ) t = Streamed.table u := by
    refine RowTable.ext_map LawfulStreamed.toRow_inj fun k => ?_
    have hk := h ⟨Streamed.kind ρ, k.connection, .inl k.id⟩ rfl
    rwa [LawfulStreamed.find?_eq, LawfulStreamed.find?_eq] at hk
  rw [ToolTables.streamed, ToolTables.streamed, ToolTables.rowsOf, ToolTables.rowsOf, htable]

end Tool

end QaLake.Store
