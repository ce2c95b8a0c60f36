import QaLake.Keyed.Table
import QaLake.Store.Upsert

namespace QaLake

open Store

/-- Rows in ascending order of their keys, one row a key: the cells that are stored, and a history
of the rows that were written last. Queries see the cells only. -/
structure RowTable {κ α : Type} [KeyOrder κ] (key : α → κ) [Upserted key] where
  stored : Table κ Cells
  written : Table κ α
  keyed : ∀ e ∈ written.entries, key e.2 = e.1
  holds : stored = written.map (Upserted.upsert key).cells

namespace RowTable

variable {κ α : Type} [KeyOrder κ] {key : α → κ} [Upserted key]

def empty : RowTable key :=
  ⟨.empty, .empty, fun _ h => (nomatch h), rfl⟩

instance : Inhabited (RowTable key) := ⟨empty⟩

def rows (t : RowTable key) : List α :=
  t.written.rows

theorem rows_stored (t : RowTable key) :
    t.stored.rows = t.rows.map (Upserted.upsert key).cells := by
  rw [t.holds, Table.rows_map, rows]

variable [DecidableEq κ]

def get? (t : RowTable key) (k : κ) : Option α :=
  t.written.get? k

theorem get?_stored (t : RowTable key) (k : κ) :
    t.stored.get? k = (t.get? k).map (Upserted.upsert key).cells := by
  rw [t.holds, Table.get?_map, get?]

theorem key_of_get? {t : RowTable key} {k : κ} {r : α} (h : t.get? k = some r) : key r = k :=
  t.keyed _ (Keyed.mem_of_get? h)

theorem write_eq (t : RowTable key) (r : α) :
    (Upserted.upsert key).write (t.stored.get? (key r)) r = (Upserted.upsert key).cells r := by
  rw [get?_stored]
  cases hold : t.get? (key r) with
  | none => rfl
  | some d => exact Upsert.merge_cells (key_of_get? hold)

def insert (t : RowTable key) (r : α) : RowTable key where
  stored := t.stored.insert (key r) ((Upserted.upsert key).write (t.stored.get? (key r)) r)
  written := t.written.insert (key r) r
  keyed e h := by
    obtain rfl | h := Keyed.mem_insert h
    · rfl
    · exact t.keyed e h
  holds := by rw [t.write_eq, t.holds, Table.map_insert]

theorem get?_insert (t : RowTable key) (r : α) (k : κ) :
    (t.insert r).get? k = if k = key r then some r else t.get? k :=
  t.written.get?_insert (key r) k r

def read? {β : Type} (t : RowTable key) (ofCells? : Cells → Option β) (k : κ) :
    Option (Option β) :=
  match t.stored.get? k with
  | none => some none
  | some c => (ofCells? c).map some

section Read

variable {β : Type} {t : RowTable key} {k : κ}

theorem read?_of_get? {r : α} (h : t.get? k = some r) (ofCells? : Cells → Option β) :
    t.read? ofCells? k = (ofCells? ((Upserted.upsert key).cells r)).map some := by
  rw [read?, get?_stored, h]
  rfl

theorem read?_of_none (h : t.get? k = none) (ofCells? : Cells → Option β) :
    t.read? ofCells? k = some none := by
  rw [read?, get?_stored, h]
  rfl

end Read

end RowTable

end QaLake
