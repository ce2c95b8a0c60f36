import QaLake.Error
import QaLake.Store.DomainTables
import QaLake.Store.ScopeTable
import QaLake.Store.Staging
import QaLake.Store.ToolTables

namespace QaLake

namespace Store

structure Tables where
  staging : Staging
  tool : ToolTables
  domain : DomainTables
  scopes : ScopeTable

def Tables.empty : Tables := ⟨.empty, .empty, .empty, .empty⟩

instance : Inhabited Tables := ⟨.empty⟩

end Store

open Store

/-- A new database has no tables, and every operation on it fails until it has been migrated. -/
inductive Database
  | unmigrated
  | migrated (tables : Tables)

namespace Database

def currentVersion : Nat := 3

/-- The version of the database: that of its tables, or zero without them. -/
def version : Database → Nat
  | unmigrated => 0
  | migrated _ => currentVersion

def migrate : Database → Database
  | unmigrated => migrated .empty
  | migrated t => migrated t

def tables : Database → Except Error Tables
  | unmigrated => .error .database
  | migrated t => .ok t

def read {α : Type} (db : Database) (f : Tables → Option α) : Except Error α :=
  match db with
  | unmigrated => .error .database
  | migrated t =>
    match f t with
    | some a => .ok a
    | none => .error .database

theorem read_of_some {α : Type} {f : Tables → Option α} {t : Tables} {a : α} (h : f t = some a) :
    (migrated t).read f = .ok a := by
  rw [read, h]

def write (db : Database) (f : Tables → Tables) : Except Error Database :=
  match db with
  | unmigrated => .error .database
  | migrated t => .ok (migrated (f t))

def stagePage (db : Database) (table : String) (scope : RunScope) (url : String)
    (input : Option Json) (records : List Json) : Except Error Database :=
  db.write fun t => { t with staging := t.staging.insertPage table scope.tag url input records }

def clearStaged (db : Database) (table : String) (scope : RunScope) : Except Error Database :=
  db.write fun t => { t with staging := t.staging.delete table scope.tag }

def countStaged (db : Database) (table : String) (scope : RunScope) : Except Error Nat :=
  db.read fun t => some (t.staging.rowsOf table scope.tag).length

def stagedBatch (db : Database) (table : String) (scope : RunScope) (after : Int) (limit : Nat) :
    Except Error (List StagedRecord) :=
  db.read fun t => t.staging.batch? table scope.tag after limit

def putTool (db : Database) (r : Tool.Row) : Except Error Database :=
  db.write fun t => { t with tool := t.tool.insert r }

def toolBatch (ρ : Type) [Streamed ρ] (db : Database) (scope : RunScope) (after : Int)
    (limit : Nat) : Except Error (List ρ) :=
  db.read fun t => t.tool.batch? ρ scope after limit

def putDomain (db : Database) (r : Domain.Row) : Except Error Database :=
  db.write fun t => { t with domain := t.domain.insert r }

def domainProject? (db : Database) (id : String) : Except Error (Option Domain.Project) :=
  db.read fun t => t.domain.projects.read? Domain.Project.ofCells? id

def testCase? (db : Database) (id : String) : Except Error (Option Domain.TestCase) :=
  db.read fun t => t.domain.testCases.read? Domain.TestCase.ofCells? id

def testRun? (db : Database) (id : String) : Except Error (Option Domain.TestRun) :=
  db.read fun t => t.domain.testRuns.read? Domain.TestRun.ofCells? id

def execution? (db : Database) (id : String) : Except Error (Option Domain.Execution) :=
  db.read fun t => t.domain.executions.read? Domain.Execution.ofCells? id

def domainRow? (db : Database) (kind : Domain.Kind) (id : String) :
    Except Error (Option Domain.Row) :=
  match kind with
  | .project => (db.domainProject? id).map (·.map .project)
  | .testCase => (db.testCase? id).map (·.map .testCase)
  | .testRun => (db.testRun? id).map (·.map .testRun)
  | .execution => (db.execution? id).map (·.map .execution)

def ofProject (project : String) (c : Cells) : Bool :=
  c.get? "qa_project_id" == some project

def testRunsOf (db : Database) (project : String) : Except Error (List Domain.TestRun) :=
  db.read fun t =>
    (t.domain.testRuns.stored.rows.filter (ofProject project)).mapM Domain.TestRun.ofCells?

def executionsOf (db : Database) (project : String) : Except Error (List Domain.Execution) :=
  db.read fun t =>
    (t.domain.executions.stored.rows.filter (ofProject project)).mapM Domain.Execution.ofCells?

def countDomain (db : Database) (kind : Domain.Kind) : Except Error Nat :=
  db.read fun t => some (t.domain.stored kind).length

def countTool (db : Database) (kind : EntityKind) (connection : Int) : Except Error Nat :=
  db.read fun t => some (t.tool.count kind connection)

def putScope (db : Database) (scope : RunScope) (config : ScopeConfig)
    (order : ScopeConfig.MapOrder := .ascending) : Except Error Database :=
  db.write fun t => { t with scopes := t.scopes.put scope config order }

def putScopeText (db : Database) (scope : RunScope) (text : String) : Except Error Database :=
  db.write fun t => { t with scopes := t.scopes.putText scope text }

def scopeText? (db : Database) (scope : RunScope) : Except Error (Option String) :=
  db.read fun t =>
    match t.scopes.get? scope with
    | none => some none
    | some s => s.config.text?.map some

def scopeConfig? (db : Database) (scope : RunScope) : Except Error (Option ScopeConfig) := do
  match ← db.scopeText? scope with
  | none => return none
  | some text =>
    match Json.decodeText ScopeConfig.decode text with
    | .ok config => return some config
    | .error f => throw (.json f)

end Database

namespace Store

/-- The tables that can be looked through as a whole. -/
inductive TableName
  | staging
  | tool (kind : EntityKind)
  | domain (kind : Domain.Kind)
  | scopes
  deriving DecidableEq, Repr

def TableName.ofName? (name : String) : Option TableName :=
  if name = "_raw_testrail_data" then some .staging
  else if name = "_tool_testrail_scope_configs" then some .scopes
  else
    ((EntityKind.all.find? (·.toolTable == name)).map TableName.tool).or
      ((Domain.Kind.ofTable? name).map TableName.domain)

def Tables.cells (t : Tables) : TableName → List Cells
  | .staging => t.staging.rows.map StagedRow.cells
  | .tool kind => t.tool.stored kind
  | .domain kind => t.domain.stored kind
  | .scopes => t.scopes.cells

/-- A row as it is looked through: the text of a scope configuration has its members sorted. -/
def TableName.shown (name : TableName) (c : Cells) : Cells :=
  if name = .scopes then
    c.map fun
      | ("config", some (.text text)) =>
        ("config", some (.text (((Json.parse? text).map Json.text).getD text)))
      | column => column
  else c

end Store

def Database.dump (db : Database) (name : String) : Except Error (List Cells) :=
  db.read fun t => (Store.TableName.ofName? name).map fun n => (t.cells n).map n.shown

end QaLake
