import QaLake.RunScope
import QaLake.Store.RowTable
import QaLake.Tool.Columns

namespace QaLake

namespace Tool

def Project.key (r : Project) : RowKey Int := ⟨r.connectionId, r.id⟩

def Suite.key (r : Suite) : RowKey Int := ⟨r.connectionId, r.id⟩

def Section.key (r : Section) : RowKey Int := ⟨r.connectionId, r.id⟩

def Milestone.key (r : Milestone) : RowKey Int := ⟨r.connectionId, r.id⟩

def Plan.key (r : Plan) : RowKey Int := ⟨r.connectionId, r.id⟩

def PlanEntry.key (r : PlanEntry) : RowKey String := ⟨r.connectionId, r.id⟩

def Run.key (r : Run) : RowKey Int := ⟨r.connectionId, r.id⟩

def Result.key (r : Result) : RowKey Int := ⟨r.connectionId, r.id⟩

def Case.key (r : Case) : RowKey Int := ⟨r.connectionId, r.id⟩

def User.key (r : User) : RowKey Int := ⟨r.connectionId, r.id⟩

def CaseField.key (r : CaseField) : RowKey Int := ⟨r.connectionId, r.id⟩

def CaseType.key (r : CaseType) : RowKey Int := ⟨r.connectionId, r.id⟩

def Priority.key (r : Priority) : RowKey Int := ⟨r.connectionId, r.id⟩

def Status.key (r : Status) : RowKey Int := ⟨r.connectionId, r.id⟩

/-- Rows that have their connection and their id in columns of these names collide where both are
the same. -/
theorem collides_iff {α ι : Type} {u : Store.Upsert α} {key : α → RowKey ι} {cell : ι → Store.Cell}
    (hcell : ∀ i j, cell i = cell j → i = j) (hconflict : u.conflict = ["connection_id", "id"])
    (hconnection : ∀ r, (u.cells r).lookup "connection_id" = some (some (.int (key r).connection)))
    (hid : ∀ r, (u.cells r).lookup "id" = some (some (cell (key r).id))) (r r' : α) :
    u.collides (u.cells r) (u.cells r') = true ↔ key r = key r' := by
  simp only [Store.Upsert.collides, hconflict, List.all_cons, List.all_nil, Bool.and_true,
    Bool.and_eq_true, beq_iff_eq, hconnection, hid, Option.some.injEq, Store.Cell.int.injEq]
  constructor
  · rintro ⟨hconnections, hids⟩
    have hkeys := hcell _ _ hids
    cases hr : key r
    cases hr' : key r'
    simp_all
  · intro h
    simp [h]

instance : Store.Upserted Project.key where
  upsert := Project.upsert
  nodup := by decide
  filled _ := rfl
  covered := by decide
  collides_iff :=
    collides_iff (fun _ _ => Store.Cell.int.inj) rfl (fun _ => rfl) fun _ => rfl

instance : Store.Upserted Suite.key where
  upsert := Suite.upsert
  nodup := by decide
  filled _ := rfl
  covered := by decide
  collides_iff :=
    collides_iff (fun _ _ => Store.Cell.int.inj) rfl (fun _ => rfl) fun _ => rfl

instance : Store.Upserted Section.key where
  upsert := Section.upsert
  nodup := by decide
  filled _ := rfl
  covered := by decide
  collides_iff :=
    collides_iff (fun _ _ => Store.Cell.int.inj) rfl (fun _ => rfl) fun _ => rfl

instance : Store.Upserted Milestone.key where
  upsert := Milestone.upsert
  nodup := by decide
  filled _ := rfl
  covered := by decide
  collides_iff :=
    collides_iff (fun _ _ => Store.Cell.int.inj) rfl (fun _ => rfl) fun _ => rfl

instance : Store.Upserted Plan.key where
  upsert := Plan.upsert
  nodup := by decide
  filled _ := rfl
  covered := by decide
  collides_iff :=
    collides_iff (fun _ _ => Store.Cell.int.inj) rfl (fun _ => rfl) fun _ => rfl

instance : Store.Upserted PlanEntry.key where
  upsert := PlanEntry.upsert
  nodup := by decide
  filled _ := rfl
  covered := by decide
  collides_iff :=
    collides_iff (fun _ _ => Store.Cell.text.inj) rfl (fun _ => rfl) fun _ => rfl

instance : Store.Upserted Run.key where
  upsert := Run.upsert
  nodup := by decide
  filled _ := rfl
  covered := by decide
  collides_iff :=
    collides_iff (fun _ _ => Store.Cell.int.inj) rfl (fun _ => rfl) fun _ => rfl

instance : Store.Upserted Result.key where
  upsert := Result.upsert
  nodup := by decide
  filled _ := rfl
  covered := by decide
  collides_iff :=
    collides_iff (fun _ _ => Store.Cell.int.inj) rfl (fun _ => rfl) fun _ => rfl

instance : Store.Upserted Case.key where
  upsert := Case.upsert
  nodup := by decide
  filled _ := rfl
  covered := by decide
  collides_iff :=
    collides_iff (fun _ _ => Store.Cell.int.inj) rfl (fun _ => rfl) fun _ => rfl

instance : Store.Upserted User.key where
  upsert := User.upsert
  nodup := by decide
  filled _ := rfl
  covered := by decide
  collides_iff :=
    collides_iff (fun _ _ => Store.Cell.int.inj) rfl (fun _ => rfl) fun _ => rfl

instance : Store.Upserted CaseField.key where
  upsert := CaseField.upsert
  nodup := by decide
  filled _ := rfl
  covered := by decide
  collides_iff :=
    collides_iff (fun _ _ => Store.Cell.int.inj) rfl (fun _ => rfl) fun _ => rfl

instance : Store.Upserted CaseType.key where
  upsert := CaseType.upsert
  nodup := by decide
  filled _ := rfl
  covered := by decide
  collides_iff :=
    collides_iff (fun _ _ => Store.Cell.int.inj) rfl (fun _ => rfl) fun _ => rfl

instance : Store.Upserted Priority.key where
  upsert := Priority.upsert
  nodup := by decide
  filled _ := rfl
  covered := by decide
  collides_iff :=
    collides_iff (fun _ _ => Store.Cell.int.inj) rfl (fun _ => rfl) fun _ => rfl

instance : Store.Upserted Status.key where
  upsert := Status.upsert
  nodup := by decide
  filled _ := rfl
  covered := by decide
  collides_iff :=
    collides_iff (fun _ _ => Store.Cell.int.inj) rfl (fun _ => rfl) fun _ => rfl

/-- A case as it is read back: its custom fields have gone through their text. -/
def Case.reread (r : Case) : Case :=
  { r with customFields := fieldsOf (Json.obj r.customFields).text }

end Tool

namespace Store

structure ToolTables where
  projects : RowTable Tool.Project.key
  suites : RowTable Tool.Suite.key
  sections : RowTable Tool.Section.key
  milestones : RowTable Tool.Milestone.key
  plans : RowTable Tool.Plan.key
  planEntries : RowTable Tool.PlanEntry.key
  runs : RowTable Tool.Run.key
  results : RowTable Tool.Result.key
  cases : RowTable Tool.Case.key
  users : RowTable Tool.User.key
  caseFields : RowTable Tool.CaseField.key
  caseTypes : RowTable Tool.CaseType.key
  priorities : RowTable Tool.Priority.key
  statuses : RowTable Tool.Status.key

namespace ToolTables

def empty : ToolTables :=
  ⟨.empty, .empty, .empty, .empty, .empty, .empty, .empty, .empty, .empty, .empty, .empty, .empty,
    .empty, .empty⟩

instance : Inhabited ToolTables := ⟨empty⟩

/-- The tables with a row in place of the one of its kind that had its key. -/
def insert (t : ToolTables) : Tool.Row → ToolTables
  | .project r => { t with projects := t.projects.insert r }
  | .suite r => { t with suites := t.suites.insert r }
  | .testSection r => { t with sections := t.sections.insert r }
  | .milestone r => { t with milestones := t.milestones.insert r }
  | .plan r => { t with plans := t.plans.insert r }
  | .planEntry r => { t with planEntries := t.planEntries.insert r }
  | .run r => { t with runs := t.runs.insert r }
  | .result r => { t with results := t.results.insert r }
  | .case r => { t with cases := t.cases.insert r }
  | .user r => { t with users := t.users.insert r }
  | .caseField r => { t with caseFields := t.caseFields.insert r }
  | .caseType r => { t with caseTypes := t.caseTypes.insert r }
  | .priority r => { t with priorities := t.priorities.insert r }
  | .status r => { t with statuses := t.statuses.insert r }

def rows (t : ToolTables) : EntityKind → List Tool.Row
  | .project => t.projects.rows.map .project
  | .suite => t.suites.rows.map .suite
  | .testSection => t.sections.rows.map .testSection
  | .milestone => t.milestones.rows.map .milestone
  | .plan => t.plans.rows.map .plan
  | .planEntry => t.planEntries.rows.map .planEntry
  | .run => t.runs.rows.map .run
  | .result => t.results.rows.map .result
  | .case => t.cases.rows.map .case
  | .user => t.users.rows.map .user
  | .caseField => t.caseFields.rows.map .caseField
  | .caseType => t.caseTypes.rows.map .caseType
  | .priority => t.priorities.rows.map .priority
  | .status => t.statuses.rows.map .status

def stored (t : ToolTables) : EntityKind → List Cells
  | .project => t.projects.stored.rows
  | .suite => t.suites.stored.rows
  | .testSection => t.sections.stored.rows
  | .milestone => t.milestones.stored.rows
  | .plan => t.plans.stored.rows
  | .planEntry => t.planEntries.stored.rows
  | .run => t.runs.stored.rows
  | .result => t.results.stored.rows
  | .case => t.cases.stored.rows
  | .user => t.users.stored.rows
  | .caseField => t.caseFields.stored.rows
  | .caseType => t.caseTypes.stored.rows
  | .priority => t.priorities.stored.rows
  | .status => t.statuses.stored.rows

def count (t : ToolTables) (kind : EntityKind) (connection : Int) : Nat :=
  (t.stored kind).countP fun c => c.get? "connection_id" == some connection

/-- The entries of a plan in the order of their ids, if all can be read. -/
def entriesOf? (t : ToolTables) (connection plan : Int) : Option (List Tool.PlanEntry) :=
  (t.planEntries.stored.rows.filter fun c =>
    c.get? "connection_id" == some connection && c.get? "plan_id" == some plan).mapM
      Tool.PlanEntry.ofCells?

def entriesOf (t : ToolTables) (connection plan : Int) : List Tool.PlanEntry :=
  (t.entriesOf? connection plan).getD []

def case? (t : ToolTables) (key : RowKey Int) : Option Tool.Case :=
  (t.cases.stored.get? key).bind Tool.Case.ofCells?

def result? (t : ToolTables) (key : RowKey Int) : Option Tool.Result :=
  (t.results.stored.get? key).bind Tool.Result.ofCells?

end ToolTables

/-- A kind of tool rows that can be streamed: its table, the column of the project a row belongs to,
and how a row is read back. -/
class Streamed (ρ : Type) where
  key : ρ → RowKey Int
  [upserted : Upserted key]
  table : ToolTables → RowTable key
  projectColumn : String
  ofCells? : Cells → Option ρ
  project : ρ → Int
  reread : ρ → ρ
  kind : EntityKind
  toRow : ρ → Tool.Row

attribute [reducible, instance] Streamed.upserted

instance : Streamed Tool.Project where
  key := Tool.Project.key
  table := ToolTables.projects
  projectColumn := "id"
  ofCells? := Tool.Project.ofCells?
  project r := r.id
  reread r := r
  kind := .project
  toRow := .project

instance : Streamed Tool.Suite where
  key := Tool.Suite.key
  table := ToolTables.suites
  projectColumn := "project_id"
  ofCells? := Tool.Suite.ofCells?
  project r := r.projectId
  reread r := r
  kind := .suite
  toRow := .suite

instance : Streamed Tool.Run where
  key := Tool.Run.key
  table := ToolTables.runs
  projectColumn := "project_id"
  ofCells? := Tool.Run.ofCells?
  project r := r.projectId
  reread r := r
  kind := .run
  toRow := .run

instance : Streamed Tool.Result where
  key := Tool.Result.key
  table := ToolTables.results
  projectColumn := "project_id"
  ofCells? := Tool.Result.ofCells?
  project r := r.projectId
  reread r := r
  kind := .result
  toRow := .result

instance : Streamed Tool.Case where
  key := Tool.Case.key
  table := ToolTables.cases
  projectColumn := "project_id"
  ofCells? := Tool.Case.ofCells?
  project r := r.projectId
  reread := Tool.Case.reread
  kind := .case
  toRow := .case

namespace ToolTables

/-- Whether a row belongs to a scope and stands behind an id. -/
def isBehind (column : String) (scope : RunScope) (after : Int) (c : Cells) : Bool :=
  c.get? "connection_id" == some scope.connection && c.get? column == some scope.project &&
    (c.get? "id" : Option Int).any (after < ·)

/-- The first rows of a scope behind an id, at most `limit` of them, if all can be read. -/
def batch? (ρ : Type) [Streamed ρ] (t : ToolTables) (scope : RunScope) (after : Int)
    (limit : Nat) : Option (List ρ) :=
  (((Streamed.table (ρ := ρ) t).stored.rows.filter
    (isBehind (Streamed.projectColumn ρ) scope after)).take limit).mapM Streamed.ofCells?

end ToolTables

end Store

end QaLake
