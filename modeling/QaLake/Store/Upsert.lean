import QaLake.Store.Cell

namespace QaLake.Store

/-- `INSERT INTO table (columns) VALUES (values) ON CONFLICT(conflict) DO UPDATE SET`, where each of
`updates` is set to the value it was offered. -/
structure Upsert (α : Type) where
  columns : List String
  values : α → List Column
  conflict : List String
  updates : List String

namespace Upsert

variable {α : Type} (u : Upsert α)

def offer (r : α) : Columns :=
  u.columns.zip (u.values r)

def cells (r : α) : Cells :=
  Store.cells (u.offer r)

def collides (a b : Cells) : Bool :=
  u.conflict.all fun name => a.lookup name == b.lookup name

def merge (stored excluded : Cells) : Cells :=
  stored.map fun (name, c) =>
    (name, if name ∈ u.updates then (excluded.lookup name).join else c)

def write (stored : Option Cells) (r : α) : Cells :=
  match stored with
  | none => u.cells r
  | some c => u.merge c (u.cells r)

end Upsert

/-- Rows with an upsert whose conflicts are rows of one key. Every column has a value, and is
updated unless it belongs to the key. -/
class Upserted {α κ : Type} (key : α → κ) where
  upsert : Upsert α
  nodup : upsert.columns.Nodup
  filled : ∀ r, (upsert.values r).length = upsert.columns.length
  covered : ∀ name ∈ upsert.columns, name ∈ upsert.conflict ∨ name ∈ upsert.updates
  collides_iff : ∀ r r', upsert.collides (upsert.cells r) (upsert.cells r') = true ↔ key r = key r'

theorem lookup_of_mem {β : Type} {l : List (String × β)} (hl : (l.map Prod.fst).Nodup)
    {e : String × β} (he : e ∈ l) : l.lookup e.1 = some e.2 := by
  induction l with
  | nil => cases he
  | cons d rest ih =>
    obtain ⟨name, value⟩ := d
    obtain ⟨hfirst, hrest⟩ := List.nodup_cons.1 hl
    obtain rfl | hmem := List.mem_cons.1 he
    · exact List.lookup_cons_self
    · have hne : e.1 ≠ name := fun h => hfirst (List.mem_map.2 ⟨e, hmem, h⟩)
      rw [List.lookup_cons, beq_eq_false_iff_ne.2 hne]
      exact ih hrest hmem

namespace Upsert

theorem merge_eq {α : Type} {u : Upsert α} {a b : Cells} (hnames : a.map Prod.fst = b.map Prod.fst)
    (hnodup : (b.map Prod.fst).Nodup)
    (hkept : ∀ name ∈ b.map Prod.fst, name ∉ u.updates → a.lookup name = b.lookup name) :
    u.merge a b = b := by
  have hlength : a.length = b.length := by simpa using congrArg List.length hnames
  refine List.ext_getElem (by simp [merge, hlength]) fun i hi hb => ?_
  have ha : i < a.length := hlength ▸ hb
  have hname : a[i].1 = b[i].1 := by
    have hmap := List.getElem_of_eq hnames (i := i) (by simpa using ha)
    rwa [List.getElem_map, List.getElem_map] at hmap
  have hfrom := lookup_of_mem (hnames ▸ hnodup) (List.getElem_mem ha)
  have hto := lookup_of_mem hnodup (List.getElem_mem hb)
  simp only [merge, List.getElem_map]
  by_cases hupdated : a[i].1 ∈ u.updates
  · rw [if_pos hupdated, hname, hto]
    rfl
  · have hmem : a[i].1 ∈ b.map Prod.fst := hname ▸ List.mem_map_of_mem (List.getElem_mem hb)
    have hsame := hkept _ hmem hupdated
    rw [hfrom, hname, hto] at hsame
    rw [if_neg hupdated, hname, Option.some.inj hsame]

variable {α κ : Type} {key : α → κ} [Upserted key]

theorem map_fst_cells (r : α) :
    ((Upserted.upsert key).cells r).map Prod.fst = (Upserted.upsert key).columns := by
  have hlength : ((Upserted.upsert key).values r).length = (Upserted.upsert key).columns.length :=
    Upserted.filled r
  simp [cells, offer, Store.cells, Function.comp_def, List.map_fst_zip, hlength]

theorem merge_cells {r r' : α} (h : key r = key r') :
    (Upserted.upsert key).merge ((Upserted.upsert key).cells r) ((Upserted.upsert key).cells r') =
      (Upserted.upsert key).cells r' := by
  have hcollides := (Upserted.collides_iff r r').2 h
  refine merge_eq ((map_fst_cells r).trans (map_fst_cells r').symm) ?_ fun name hname hkept => ?_
  · rw [map_fst_cells]
    exact Upserted.nodup
  · rw [map_fst_cells] at hname
    have hconflict := (Upserted.covered name hname).resolve_right hkept
    exact beq_iff_eq.1 (List.all_eq_true.1 hcollides name hconflict)

end Upsert

end QaLake.Store
