import QaLake.Proofs.Json.Depth
import QaLake.Proofs.Json.WellFormed
import QaLake.Proofs.Store.Upserts
import QaLake.Proofs.Sync.Scoped
import QaLake.Proofs.Tool.Reading

namespace QaLake

open Store

theorem Tool.RowName.eq_of_parts {n m : RowName} (hkind : n.kind = m.kind)
    (hconnection : n.connection = m.connection) (hid : n.id = m.id) : n = m := by
  cases n
  cases m
  simp_all

namespace Tool.Row

/-- Whether a row is one of those that some record describes. -/
def IsDescribed (r : Row) : Prop :=
  ∃ kind scope data input rows, rowsOfRecord kind scope data input = .ok rows ∧ r ∈ rows

theorem customFields_of_rowsOfRecord {kind : EntityKind} {scope : RunScope} {data : String}
    {input : Option String} {rows : List Row}
    (h : rowsOfRecord kind scope data input = .ok rows) {r : Case} (hr : .case r ∈ rows) :
    ∃ members, Json.parse? data = some (.obj members) ∧ r.customFields = customMembers members := by
  have hkind : EntityKind.case ∈ kind.described := (mem_rowsOfRecord h hr).1
  rw [rowsOfRecord] at h
  split at h
  · cases h
  · rename_i members hmembers
    refine ⟨members, hmembers, ?_⟩
    cases kind with
    | case =>
      obtain ⟨payload, -, h⟩ := exists_of_bind_eq_ok h
      cases h
      rw [Row.case.inj (List.mem_singleton.1 hr)]
    | _ => simp [EntityKind.described] at hkind
  · cases h

/-- A row that a record describes is read back as it is, if its custom fields have no floating-point
numbers. -/
theorem reread_of_isDescribed {r : Row} (h : r.IsDescribed)
    (hfree : (Json.obj r.customFields).IsFloatFree) : r.reread = r := by
  obtain ⟨kind, scope, data, input, rows, hrows, hr⟩ := h
  cases r with
  | case c =>
    obtain ⟨members, hparse, hfields⟩ := customFields_of_rowsOfRecord hrows hr
    have hwell : (Json.obj (customMembers members)).IsWellFormed :=
      Json.isWellFormed_filter (Json.isWellFormed_of_parse? hparse) _
    have hplain : (Json.obj c.customFields).IsPlain := by
      rw [hfields]
      exact hwell.isPlain (hfields ▸ hfree)
    have hdepth : (Json.obj c.customFields).depth ≤ Json.Document.maxDepth := by
      rw [hfields]
      exact Nat.le_trans (Json.depth_filter_le members _) (Json.depth_le_of_parse? hparse)
    rw [reread, Case.reread, fieldsOf, Json.parse?_text _ hplain hdepth]
  | _ => rfl

end Tool.Row

/-- Whether a stored row has the connection and the id of another. -/
def Store.Cells.sameKey (c d : Cells) : Bool :=
  c.lookup "connection_id" == d.lookup "connection_id" && c.lookup "id" == d.lookup "id"

namespace Tool.Row

theorem lookup_connection (r : Row) :
    r.cells.lookup "connection_id" = some (some (.int r.connectionId)) := by
  cases r <;> rfl

theorem lookup_id (r : Row) :
    r.cells.lookup "id" = some (some (r.name.id.elim Cell.int Cell.text)) := by
  cases r <;> rfl

theorem get?_connection (r : Row) : r.cells.get? "connection_id" = some r.connectionId := by
  rw [Cells.get?, lookup_connection]
  rfl

theorem sameKey_cells {r d : Row} (h : d.kind = r.kind) :
    d.cells.sameKey r.cells = decide (d.name = r.name) := by
  rw [Cells.sameKey, lookup_connection, lookup_connection, lookup_id, lookup_id, Bool.eq_iff_iff,
    Bool.and_eq_true, beq_iff_eq, beq_iff_eq, decide_eq_true_iff]
  constructor
  · rintro ⟨hconnections, hids⟩
    refine RowName.eq_of_parts ?_ ?_ ?_
    · rw [kind_name, kind_name, h]
    · rw [connection_name, connection_name]
      simpa using hconnections
    · cases hd : d.name.id <;> cases hr : r.name.id <;> simp_all
  · intro hname
    rw [← connection_name, ← connection_name, hname]
    exact ⟨rfl, rfl⟩

end Tool.Row

namespace Store.ToolTables

theorem kind_of_mem_rows {t : ToolTables} {kind : EntityKind} {r : Tool.Row}
    (h : r ∈ t.rows kind) : r.kind = kind := by
  cases kind <;>
    · obtain ⟨x, -, rfl⟩ := List.mem_map.1 h
      rfl

theorem mem_rows_iff (t : ToolTables) (r : Tool.Row) :
    r ∈ t.rows r.kind ↔ t.find? r.name = some r := by
  cases r <;>
    simp [rows, find?, Tool.Row.kind, Tool.Row.name, RowTable.mem_rows_iff, Tool.Project.key,
      Tool.Suite.key, Tool.Section.key, Tool.Milestone.key, Tool.Plan.key, Tool.PlanEntry.key,
      Tool.Run.key, Tool.Result.key, Tool.Case.key, Tool.User.key, Tool.CaseField.key,
      Tool.CaseType.key, Tool.Priority.key, Tool.Status.key]

theorem stored_eq (t : ToolTables) (kind : EntityKind) :
    t.stored kind = (t.rows kind).map Tool.Row.cells := by
  cases kind <;>
    · rw [rows, List.map_map]
      exact RowTable.rows_stored _

theorem nodup_rows (t : ToolTables) (kind : EntityKind) : (t.rows kind).Nodup := by
  cases kind <;>
    · refine (RowTable.nodup_rows _).map fun a b h => ?_
      cases h
      rfl

theorem stored_insert_empty (r : Tool.Row) : (empty.insert r).stored r.kind = [r.cells] := by
  cases r <;> rfl

end Store.ToolTables

/-- A kind of rows that is read back as the rows of all kinds are. -/
class FaithfulStreamed (ρ : Type) [Streamed ρ] : Prop where
  toRow_reread : ∀ r : ρ, Streamed.toRow (Streamed.reread r) = (Streamed.toRow r).reread

instance : FaithfulStreamed Tool.Project := ⟨fun _ => rfl⟩

instance : FaithfulStreamed Tool.Suite := ⟨fun _ => rfl⟩

instance : FaithfulStreamed Tool.Run := ⟨fun _ => rfl⟩

instance : FaithfulStreamed Tool.Result := ⟨fun _ => rfl⟩

instance : FaithfulStreamed Tool.Case := ⟨fun _ => rfl⟩

/-- Tables in which the last of some rows is found under each name, where all rows are read back as
they are. -/
structure Store.ToolTables.Keeps (t : ToolTables) (rows : List Tool.Row) : Prop where
  find? : ∀ n, t.find? n = lastUnder Tool.Row.name rows n
  reread : ∀ r ∈ rows, r.reread = r

namespace Store.ToolTables.Keeps

variable {t : ToolTables} {rows : List Tool.Row}

theorem mem_rows_iff (h : t.Keeps rows) {kind : EntityKind} {r : Tool.Row} :
    r ∈ t.rows kind ↔ r.kind = kind ∧ lastUnder Tool.Row.name rows r.name = some r := by
  rw [← h.find?, ← t.mem_rows_iff]
  constructor
  · intro hr
    have hkind := kind_of_mem_rows hr
    exact ⟨hkind, hkind.symm ▸ hr⟩
  · rintro ⟨rfl, hr⟩
    exact hr

theorem mem_stored_iff (h : t.Keeps rows) (kind : EntityKind) (c : Cells) :
    c ∈ t.stored kind ↔
      ∃ r, r.kind = kind ∧ lastUnder Tool.Row.name rows r.name = some r ∧ r.cells = c := by
  simp only [stored_eq, List.mem_map, h.mem_rows_iff, and_assoc]

theorem filter_stored (h : t.Keeps rows) {r : Tool.Row}
    (hr : lastUnder Tool.Row.name rows r.name = some r) :
    (t.stored r.kind).filter (·.sameKey r.cells) = (empty.insert r).stored r.kind := by
  have hsame : (t.rows r.kind).filter ((·.sameKey r.cells) ∘ Tool.Row.cells) =
      (t.rows r.kind).filter fun d => d.name = r.name :=
    List.filter_congr fun d hd => Tool.Row.sameKey_cells (kind_of_mem_rows hd)
  have hrow : (t.rows r.kind).filter (fun d => d.name = r.name) = [r] := by
    rw [← List.perm_singleton]
    refine (List.perm_ext_iff_of_nodup ((t.nodup_rows r.kind).filter _)
      (List.nodup_singleton r)).2 fun d => ?_
    rw [List.mem_filter, h.mem_rows_iff, List.mem_singleton, decide_eq_true_iff]
    constructor
    · rintro ⟨⟨-, hd⟩, hname⟩
      rw [hname, hr] at hd
      exact (Option.some.inj hd).symm
    · rintro rfl
      exact ⟨⟨rfl, hr⟩, rfl⟩
  rw [stored_insert_empty, stored_eq, List.filter_map, hsame, hrow]
  rfl

section Streamed

variable {ρ : Type} [Streamed ρ] [LawfulStreamed ρ]

theorem mem_table_iff (h : t.Keeps rows) (r : ρ) :
    r ∈ (Streamed.table (ρ := ρ) t).rows ↔
      lastUnder Tool.Row.name rows (Streamed.toRow r).name = some (Streamed.toRow r) := by
  rw [(Streamed.table t).mem_rows_iff_map LawfulStreamed.toRow_inj, ← h.find?,
    LawfulStreamed.name_toRow, LawfulStreamed.find?_eq]

theorem mem_rowsOf_iff (h : t.Keeps rows) (scope : RunScope) (r : ρ) :
    r ∈ t.rowsOf ρ scope ↔
      lastUnder Tool.Row.name rows (Streamed.toRow r).name = some (Streamed.toRow r) ∧
        (Streamed.key r).connection = scope.connection ∧ Streamed.project r = scope.project := by
  rw [rowsOf, List.mem_filter, h.mem_table_iff, Bool.and_eq_true, beq_iff_eq, beq_iff_eq]

theorem reread_of_mem [FaithfulStreamed ρ] (h : t.Keeps rows) {scope : RunScope} {r : ρ}
    (hr : r ∈ t.rowsOf ρ scope) : Streamed.reread r = r := by
  have hlast := ((h.mem_rowsOf_iff scope r).1 hr).1
  have hself := h.reread _ (mem_of_lastUnder hlast).1
  exact LawfulStreamed.toRow_inj _ _ ((FaithfulStreamed.toRow_reread r).trans hself)

/-- The rows of a scope behind an id come in batches, in the order of their ids, as they were
written. -/
theorem batch [FaithfulStreamed ρ] (h : t.Keeps rows) (scope : RunScope) (after : Int) :
    ∃ behind : List ρ,
      behind.Pairwise (fun a b => (Streamed.key a).id < (Streamed.key b).id) ∧
      (∀ r, r ∈ behind ↔
        lastUnder Tool.Row.name rows (Streamed.toRow r).name = some (Streamed.toRow r) ∧
        (Streamed.key r).connection = scope.connection ∧ Streamed.project r = scope.project ∧
        after < (Streamed.key r).id) ∧
      ∀ limit, t.batch? ρ scope after limit = some (behind.take limit) := by
  refine ⟨(t.rowsOf ρ scope).filter fun r => after < (Streamed.key r).id,
    (rowsOf_ascending ρ t scope).filter _, fun r => ?_, fun limit => ?_⟩
  · rw [List.mem_filter, h.mem_rowsOf_iff, decide_eq_true_iff]
    simp only [and_assoc]
  · rw [batch?_eq]
    exact mapM_eq_self fun r hr =>
      congrArg some (h.reread_of_mem (List.mem_filter.1 (List.mem_of_mem_take hr)).1)

end Streamed

/-- A single row that is read back is the last one that was written under its name. -/
theorem find?_reread (h : t.Keeps rows) (n : Tool.RowName) :
    (t.find? n).map Tool.Row.reread = lastUnder Tool.Row.name rows n := by
  rw [h.find?]
  cases hlast : lastUnder Tool.Row.name rows n with
  | none => rfl
  | some r => exact congrArg some (h.reread r (mem_of_lastUnder hlast).1)

theorem case?_eq (t : ToolTables) (key : RowKey Int) :
    t.case? key = (t.cases.get? key).map Tool.Case.reread := by
  rw [ToolTables.case?, RowTable.get?_stored]
  cases t.cases.get? key with
  | none => rfl
  | some r =>
    rw [Option.map_some, Option.bind_some, Option.map_some]
    exact r.ofCells?_cells

theorem case? (h : t.Keeps rows) (connection id : Int) :
    (t.case? ⟨connection, id⟩).map Tool.Row.case =
      lastUnder Tool.Row.name rows ⟨.case, connection, .inl id⟩ := by
  rw [← h.find?_reread, case?_eq, ToolTables.find?, Option.map_map, Option.map_map]
  rfl

theorem result?_eq (t : ToolTables) (key : RowKey Int) : t.result? key = t.results.get? key := by
  rw [ToolTables.result?, RowTable.get?_stored]
  cases t.results.get? key with
  | none => rfl
  | some r =>
    rw [Option.map_some, Option.bind_some]
    exact r.ofCells?_cells

theorem result? (h : t.Keeps rows) (connection id : Int) :
    (t.result? ⟨connection, id⟩).map Tool.Row.result =
      lastUnder Tool.Row.name rows ⟨.result, connection, .inl id⟩ := by
  rw [← h.find?_reread, result?_eq, ToolTables.find?, Option.map_map]
  rfl

theorem entriesOf?_eq (t : ToolTables) (connection plan : Int) :
    t.entriesOf? connection plan =
      some (t.planEntries.rows.filter fun e =>
        e.connectionId == connection && e.planId == plan) := by
  rw [entriesOf?, RowTable.rows_stored, List.filter_map, List.mapM_map]
  exact mapM_eq_self fun e _ => e.ofCells?_cells

/-- The entries of a plan are read in the order of their ids, as they were written last. -/
theorem entriesOf? (h : t.Keeps rows) (connection plan : Int) :
    ∃ entries, t.entriesOf? connection plan = some entries ∧
      entries.Pairwise (fun a b => KeyOrder.before a.id b.id = true) ∧
      ∀ e, e ∈ entries ↔
        lastUnder Tool.Row.name rows (Tool.Row.planEntry e).name = some (.planEntry e) ∧
          e.connectionId = connection ∧ e.planId = plan := by
  refine ⟨_, entriesOf?_eq t connection plan, ?_, fun e => ?_⟩
  · refine List.Pairwise.imp_of_mem ?_ (t.planEntries.rows_ascending.filter _)
    intro a b ha hb hkeys
    have hca := (List.mem_filter.1 ha).2
    have hcb := (List.mem_filter.1 hb).2
    simp only [Bool.and_eq_true, beq_iff_eq] at hca hcb
    have hbefore : RowKey.before (Tool.PlanEntry.key a) (Tool.PlanEntry.key b) = true := hkeys
    simpa [RowKey.before, Tool.PlanEntry.key, hca.1, hcb.1] using hbefore
  · rw [List.mem_filter, t.planEntries.mem_rows_iff_map fun _ _ => Tool.Row.planEntry.inj,
      Bool.and_eq_true, beq_iff_eq, beq_iff_eq, ← h.find?]
    rfl

/-- A table of a kind has a row for each id that was written for a connection. -/
theorem count (h : t.Keeps rows) (kind : EntityKind) (connection : Int) :
    t.count kind connection =
      ((rows.filter fun r => r.kind = kind ∧ r.connectionId = connection).map
        fun r => r.name.id).dedup.length := by
  have hconnection : (fun c : Cells => c.get? "connection_id" == some connection) ∘ Tool.Row.cells =
      fun r => r.connectionId == connection := by
    funext r
    simp [Tool.Row.get?_connection]
  rw [ToolTables.count, stored_eq, List.countP_map, hconnection, List.countP_eq_length_filter]
  refine length_of_last Tool.Row.name ((t.nodup_rows kind).filter _) (fun r => ?_)
    (fun a b he => ?_) fun a b ha hb => ⟨fun he => congrArg _ he, fun he => ?_⟩
  · rw [List.mem_filter, h.mem_rows_iff, beq_iff_eq, decide_eq_true_iff, and_right_comm]
  · rw [← a.kind_name, ← a.connection_name, ← b.kind_name, ← b.connection_name, he]
  · have hofa := of_decide_eq_true ha
    have hofb := of_decide_eq_true hb
    have hkinds : a.name.kind = b.name.kind := by
      rw [a.kind_name, b.kind_name, hofa.1, hofb.1]
    have hconnections : a.name.connection = b.name.connection := by
      rw [a.connection_name, b.connection_name, hofa.2, hofb.2]
    exact Tool.RowName.eq_of_parts hkinds hconnections he

end Store.ToolTables.Keeps

namespace Database

open Tool (Row)

theorem foldlM_putTool (rows : List Row) (t : Tables) :
    rows.foldlM (fun db r => db.putTool r) (migrated t) =
      .ok (migrated { t with tool := rows.foldl ToolTables.insert t.tool }) := by
  have hfold : rows.foldl (fun u r => { u with tool := u.tool.insert r }) t =
      { t with tool := rows.foldl ToolTables.insert t.tool } :=
    List.foldl_hom (fun tool => { t with tool := tool }) fun _ _ => rfl
  rw [← hfold]
  exact foldlM_write (fun r t => { t with tool := t.tool.insert r }) rows t

/-- The tool tables keep the last row of each name, with all of its columns. -/
theorem keeps_last_tool_rows {rows : List Row}
    (hrows : ∀ r ∈ rows, r.IsDescribed ∧ (Json.obj r.customFields).IsFloatFree) :
    ∃ t : ToolTables,
      rows.foldlM (fun db r => db.putTool r) unmigrated.migrate =
        .ok (migrated { Tables.empty with tool := t }) ∧
      (∀ (ρ : Type) [Streamed ρ] [LawfulStreamed ρ] [FaithfulStreamed ρ] (scope : RunScope)
        (after : Int), ∃ behind : List ρ,
          behind.Pairwise (fun a b => (Streamed.key a).id < (Streamed.key b).id) ∧
          (∀ r, r ∈ behind ↔
            lastUnder Row.name rows (Streamed.toRow r).name = some (Streamed.toRow r) ∧
            (Streamed.key r).connection = scope.connection ∧
            Streamed.project r = scope.project ∧ after < (Streamed.key r).id) ∧
          ∀ limit, (migrated { Tables.empty with tool := t }).toolBatch ρ scope after limit =
            .ok (behind.take limit)) ∧
      (∀ connection id, (t.case? ⟨connection, id⟩).map Row.case =
        lastUnder Row.name rows ⟨.case, connection, .inl id⟩) ∧
      (∀ connection id, (t.result? ⟨connection, id⟩).map Row.result =
        lastUnder Row.name rows ⟨.result, connection, .inl id⟩) ∧
      (∀ connection plan, ∃ entries, t.entriesOf? connection plan = some entries ∧
        entries.Pairwise (fun a b => KeyOrder.before a.id b.id = true) ∧
        ∀ e, e ∈ entries ↔
          lastUnder Row.name rows (Row.planEntry e).name = some (.planEntry e) ∧
            e.connectionId = connection ∧ e.planId = plan) ∧
      (∀ kind c, c ∈ t.stored kind ↔
        ∃ r, r.kind = kind ∧ lastUnder Row.name rows r.name = some r ∧ r.cells = c) ∧
      (∀ r, lastUnder Row.name rows r.name = some r →
        (t.stored r.kind).filter (·.sameKey r.cells) =
          (ToolTables.empty.insert r).stored r.kind) ∧
      (∀ kind connection,
        (migrated { Tables.empty with tool := t }).countTool kind connection =
          .ok ((rows.filter fun r => r.kind = kind ∧ r.connectionId = connection).map
            fun r => r.name.id).dedup.length) ∧
      (∀ (u : ToolTables) (r r' : Row), r.name = r'.name →
        (u.insert r).insert r' = u.insert r') ∧
      (∀ (u : ToolTables) (r r' : Row), r.name ≠ r'.name →
        (u.insert r).insert r' = (u.insert r').insert r) := by
  have hkeeps : (rows.foldl ToolTables.insert ToolTables.empty).Keeps rows := by
    refine ⟨fun n => ?_, fun r hr => Tool.Row.reread_of_isDescribed (hrows r hr).1 (hrows r hr).2⟩
    rw [ToolTables.overwriting.get_foldl, ToolTables.find?_empty, Option.or_none]
  refine ⟨_, foldlM_putTool rows .empty, fun ρ _ _ _ scope after => ?_, hkeeps.case?,
    hkeeps.result?, hkeeps.entriesOf?, hkeeps.mem_stored_iff, fun r => hkeeps.filter_stored,
    fun kind connection => congrArg Except.ok (hkeeps.count kind connection),
    fun u r r' => ToolTables.overwriting.put_put u, fun u r r' => ToolTables.overwriting.put_comm u⟩
  obtain ⟨behind, hascending, hmem, hbatch⟩ := hkeeps.batch (ρ := ρ) scope after
  exact ⟨behind, hascending, hmem, fun limit => read_of_some (hbatch limit)⟩

def movedSuite (project : Int) : Tool.Suite :=
  { connectionId := 1, id := 3, projectId := project }

def linuxCase : Tool.Case :=
  { connectionId := 1, id := 11, projectId := 7, customFields := [("custom_os", .str "linux")] }

theorem isDescribed_movedSuite (project : Int) : (Row.suite (movedSuite project)).IsDescribed := by
  have hplain : (Json.obj [("id", .int 3)]).IsPlain :=
    ⟨List.pairwise_singleton _ _, ⟨by decide, by decide⟩, trivial⟩
  have hrows : Tool.rowsOfObject .suite ⟨1, project⟩ none [("id", .int 3)] =
      .ok [.suite (movedSuite project)] := rfl
  exact ⟨.suite, ⟨1, project⟩, _, none, _,
    (Tool.rowsOfRecord_text none hplain (by decide)).trans hrows, List.mem_singleton_self _⟩

theorem isDescribed_linuxCase : (Row.case linuxCase).IsDescribed := by
  have hplain : (Json.obj [("custom_os", .str "linux"), ("id", .int 11)]).IsPlain := by
    refine ⟨?_, trivial, ⟨by decide, by decide⟩, trivial⟩
    simp [Keyed.Sorted, KeyOrder.before, KeyOrder.charsBefore]
  have hrows : Tool.rowsOfObject .case ⟨1, 7⟩ none [("custom_os", .str "linux"), ("id", .int 11)] =
      .ok [.case linuxCase] := rfl
  exact ⟨.case, ⟨1, 7⟩, _, none, _,
    (Tool.rowsOfRecord_text none hplain (by decide)).trans hrows, List.mem_singleton_self _⟩

/-- A suite that was written for project 7 and again for project 8, with a case in between. -/
def movedTwice : List Row :=
  [.suite (movedSuite 7), .case linuxCase, .suite (movedSuite 8)]

theorem keeps_last_tool_rows_moved :
    ∃ t : ToolTables,
      movedTwice.foldlM (fun db r => db.putTool r) unmigrated.migrate =
        .ok (migrated { Tables.empty with tool := t }) ∧
      (migrated { Tables.empty with tool := t }).toolBatch Tool.Suite ⟨1, 7⟩ 0 10 = .ok [] ∧
      (t.case? ⟨1, 11⟩).map Row.case = some (.case linuxCase) ∧
      (migrated { Tables.empty with tool := t }).countTool .suite 1 = .ok 1 := by
  have hrows : ∀ r ∈ movedTwice, r.IsDescribed ∧ (Json.obj r.customFields).IsFloatFree := by
    intro r hr
    simp only [movedTwice, List.mem_cons, List.not_mem_nil, or_false] at hr
    obtain rfl | rfl | rfl := hr
    · exact ⟨isDescribed_movedSuite 7, trivial⟩
    · exact ⟨isDescribed_linuxCase, trivial, trivial⟩
    · exact ⟨isDescribed_movedSuite 8, trivial⟩
  obtain ⟨t, hwrites, hbatch, hcase, -, -, -, -, hcount, -⟩ := keeps_last_tool_rows hrows
  obtain ⟨behind, -, hmem, htake⟩ := hbatch Tool.Suite ⟨1, 7⟩ 0
  have hnone : behind = [] := by
    rw [List.eq_nil_iff_forall_not_mem]
    intro r hr
    obtain ⟨hlast, -, hproject, -⟩ := (hmem r).1 hr
    have hwritten : Row.suite r ∈ movedTwice := (mem_of_lastUnder hlast).1
    simp only [movedTwice, List.mem_cons, List.not_mem_nil, or_false, Row.suite.injEq] at hwritten
    obtain rfl | hr | rfl := hwritten
    · have hmoved : lastUnder Row.name movedTwice (Row.suite (movedSuite 7)).name =
          some (.suite (movedSuite 8)) := rfl
      cases hlast.symm.trans hmoved
    · cases hr
    · cases hproject
  refine ⟨t, hwrites, (htake 10).trans (by rw [hnone]; rfl), hcase 1 11, ?_⟩
  exact hcount .suite 1

end Database

end QaLake
