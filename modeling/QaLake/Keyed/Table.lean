import QaLake.Keyed.Basic

namespace QaLake

structure Table (κ α : Type) [KeyOrder κ] where
  entries : List (κ × α)
  sorted : Keyed.Sorted entries

namespace Table

variable {κ α : Type} [KeyOrder κ]

def empty : Table κ α := ⟨[], List.Pairwise.nil⟩

instance : Inhabited (Table κ α) := ⟨empty⟩

/-- The table with the row written under the key, replacing the one that was there. -/
def insert (t : Table κ α) (k : κ) (v : α) : Table κ α :=
  ⟨Keyed.insert k v t.entries, Keyed.sorted_insert t.sorted k v⟩

def get? [DecidableEq κ] (t : Table κ α) (k : κ) : Option α :=
  Keyed.get? k t.entries

def rows (t : Table κ α) : List α :=
  t.entries.map (·.2)

def map {β : Type} (f : α → β) (t : Table κ α) : Table κ β :=
  ⟨t.entries.map fun e => (e.1, f e.2), Keyed.sorted_map f t.sorted⟩

theorem ext {t u : Table κ α} (h : t.entries = u.entries) : t = u := by
  cases t; cases u; simp_all

theorem get?_insert [DecidableEq κ] (t : Table κ α) (k k' : κ) (v : α) :
    (t.insert k v).get? k' = if k' = k then some v else t.get? k' := by
  by_cases h : k' = k
  · subst h; simp [get?, insert, Keyed.get?_insert_self]
  · simp [get?, insert, Keyed.get?_insert_of_ne h, h]

theorem get?_map [DecidableEq κ] {β : Type} (f : α → β) (t : Table κ α) (k : κ) :
    (t.map f).get? k = (t.get? k).map f :=
  Keyed.get?_map f k t.entries

theorem map_insert {β : Type} (f : α → β) (t : Table κ α) (k : κ) (v : α) :
    (t.insert k v).map f = (t.map f).insert k (f v) :=
  ext (Keyed.map_insert f k v t.entries)

theorem rows_map {β : Type} (f : α → β) (t : Table κ α) : (t.map f).rows = t.rows.map f := by
  simp [rows, map]

end Table

end QaLake
