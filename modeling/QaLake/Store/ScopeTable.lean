import QaLake.Keyed.Table
import QaLake.RunScope
import QaLake.Scope.Config
import QaLake.Store.Cell

namespace QaLake.Store

open ScopeConfig (MapOrder)

structure StoredScope where
  id : Nat
  config : Cell
  deriving DecidableEq, Repr

/-- The configurations, and the last id that was used up. -/
structure ScopeTable where
  table : Table (RowKey Int) StoredScope
  lastId : Nat

namespace ScopeTable

def empty : ScopeTable := ⟨.empty, 0⟩

instance : Inhabited ScopeTable := ⟨empty⟩

/-- The key of a scope: its project within its connection. -/
def keyOf (scope : RunScope) : RowKey Int :=
  ⟨scope.connection, scope.project⟩

def put (t : ScopeTable) (scope : RunScope) (config : ScopeConfig) (order : MapOrder) :
    ScopeTable :=
  let key := keyOf scope
  let id := ((t.table.get? key).map StoredScope.id).getD (t.lastId + 1)
  ⟨t.table.insert key ⟨id, Cell.ofText (config.toJsonIn order).text⟩, t.lastId + 1⟩

/-- The table with a text in a row of its own, in place of what the scope had. -/
def putText (t : ScopeTable) (scope : RunScope) (text : String) : ScopeTable :=
  ⟨t.table.insert (keyOf scope) ⟨t.lastId + 1, Cell.ofText text⟩, t.lastId + 1⟩

def get? (t : ScopeTable) (scope : RunScope) : Option StoredScope :=
  t.table.get? (keyOf scope)

def cells (t : ScopeTable) : List Cells :=
  t.table.entries.map fun (key, s) =>
    [("id", some (.int s.id)), ("connection_id", some (.int key.connection)),
      ("project_id", some (.int key.id)), ("config", some s.config)]

end ScopeTable

end QaLake.Store
