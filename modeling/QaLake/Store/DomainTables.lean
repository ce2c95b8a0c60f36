import QaLake.Domain.Row
import QaLake.Store.RowTable

namespace QaLake

namespace Domain

/-- Rows that have their identifier in a column of this name collide where it is the same. -/
theorem collides_iff {α : Type} {u : Store.Upsert α} {id : α → String}
    (hconflict : u.conflict = ["id"])
    (hid : ∀ r, (u.cells r).lookup "id" = some (some (.text (id r)))) (r r' : α) :
    u.collides (u.cells r) (u.cells r') = true ↔ id r = id r' := by
  simp [Store.Upsert.collides, hconflict, hid]

instance : Store.Upserted Project.id where
  upsert := Project.upsert
  nodup := by decide
  filled _ := rfl
  covered := by decide
  collides_iff := collides_iff rfl fun _ => rfl

instance : Store.Upserted TestCase.id where
  upsert := TestCase.upsert
  nodup := by decide
  filled _ := rfl
  covered := by decide
  collides_iff := collides_iff rfl fun _ => rfl

instance : Store.Upserted TestRun.id where
  upsert := TestRun.upsert
  nodup := by decide
  filled _ := rfl
  covered := by decide
  collides_iff := collides_iff rfl fun _ => rfl

instance : Store.Upserted Execution.id where
  upsert := Execution.upsert
  nodup := by decide
  filled _ := rfl
  covered := by decide
  collides_iff := collides_iff rfl fun _ => rfl

inductive Kind
  | project
  | testCase
  | testRun
  | execution
  deriving DecidableEq, Repr

namespace Kind

def all : List Kind := [project, testCase, testRun, execution]

def name : Kind → String
  | project => "project"
  | testCase => "test_case"
  | testRun => "test_run"
  | execution => "execution"

def table : Kind → String
  | project => "qa_projects"
  | testCase => "qa_test_cases"
  | testRun => "qa_test_runs"
  | execution => "qa_test_case_executions"

def ofName? (name : String) : Option Kind :=
  all.find? (·.name == name)

def ofTable? (table : String) : Option Kind :=
  all.find? (·.table == table)

end Kind

namespace Row

def kind : Row → Kind
  | project _ => .project
  | testCase _ => .testCase
  | testRun _ => .testRun
  | execution _ => .execution

def id : Row → String
  | project r => r.id
  | testCase r => r.id
  | testRun r => r.id
  | execution r => r.id

end Row

end Domain

namespace Store

structure DomainTables where
  projects : RowTable Domain.Project.id
  testCases : RowTable Domain.TestCase.id
  testRuns : RowTable Domain.TestRun.id
  executions : RowTable Domain.Execution.id

namespace DomainTables

def empty : DomainTables := ⟨.empty, .empty, .empty, .empty⟩

instance : Inhabited DomainTables := ⟨empty⟩

/-- The tables with a row in place of the one of its kind that had its identifier. -/
def insert (t : DomainTables) : Domain.Row → DomainTables
  | .project r => { t with projects := t.projects.insert r }
  | .testCase r => { t with testCases := t.testCases.insert r }
  | .testRun r => { t with testRuns := t.testRuns.insert r }
  | .execution r => { t with executions := t.executions.insert r }

def rows (t : DomainTables) : Domain.Kind → List Domain.Row
  | .project => t.projects.rows.map .project
  | .testCase => t.testCases.rows.map .testCase
  | .testRun => t.testRuns.rows.map .testRun
  | .execution => t.executions.rows.map .execution

def stored (t : DomainTables) : Domain.Kind → List Cells
  | .project => t.projects.stored.rows
  | .testCase => t.testCases.stored.rows
  | .testRun => t.testRuns.stored.rows
  | .execution => t.executions.stored.rows

theorem rows_insert_of_ne (t : DomainTables) (r : Domain.Row) {kind : Domain.Kind}
    (h : kind ≠ r.kind) : (t.insert r).rows kind = t.rows kind := by
  cases r <;> cases kind <;> simp_all [insert, rows, Domain.Row.kind]

end DomainTables

end Store

end QaLake
