import QaLake.Proofs.Store.Cell
import QaLake.Store.ToolTables

namespace QaLake

namespace Store

@[simp]
theorem ofCell?_int (n : Int) : OfCell.ofCell? (Cell.ofColumn (.int n)) = some n := rfl

@[simp]
theorem ofCell?_flag (b : Bool) : OfCell.ofCell? (Cell.ofColumn (.flag b)) = some b := by
  cases b <;> rfl

@[simp]
theorem ofCell?_text (s : String) : OfCell.ofCell? (Cell.ofColumn (.text s)) = some s := rfl

@[simp]
theorem ofCell?_optInt (n : Option Int) : OfCell.ofCell? (Cell.ofColumn (.optInt n)) = some n := by
  cases n <;> rfl

@[simp]
theorem ofCell?_optText (s : Option String) :
    OfCell.ofCell? (Cell.ofColumn (.optText s)) = some s := by
  cases s <;> rfl

@[simp]
theorem ofCell?_some_text (s : String) :
    OfCell.ofCell? (Cell.ofColumn (.text s)) = some (some s) := rfl

theorem ofCell?_json {j : Json} (hj : j.isNumber = false) :
    OfCell.ofCell? (Cell.ofColumn (.json j .null)) = some j.text := by
  have hcell : Cell.ofColumn (.json j .null) = some (Cell.ofText j.text) := by
    cases j <;> rfl
  rw [hcell, Cell.ofText_text hj]
  rfl

@[simp]
theorem get?_cells {α β : Type} [OfCell β] (u : Upsert α) (r : α) (name : String) :
    (u.cells r).get? name =
      ((u.offer r).lookup name).bind fun c => (OfCell.ofCell? (Cell.ofColumn c) : Option β) := by
  have hlookup : (u.cells r).lookup name = ((u.offer r).lookup name).map Cell.ofColumn := by
    rw [Upsert.cells, Store.cells]
    induction u.offer r with
    | nil => rfl
    | cons c rest ih =>
      rw [List.map_cons, List.lookup_cons, ih, List.lookup_cons]
      cases name == c.1 <;> rfl
  rw [Cells.get?, hlookup, Option.bind_map]
  rfl

theorem mapM_eq_self {α : Type} {f : α → Option α} {l : List α} (h : ∀ a ∈ l, f a = some a) :
    l.mapM f = some l := by
  induction l with
  | nil => rfl
  | cons a rest ih =>
    rw [List.mapM_cons, h a List.mem_cons_self, ih fun b hb => h b (List.mem_cons_of_mem _ hb)]
    rfl

end Store

namespace Tool

open Store

theorem PlanEntry.ofCells?_cells (r : PlanEntry) :
    PlanEntry.ofCells? (PlanEntry.upsert.cells r) = some r := by
  simp [ofCells?, Counts.ofCells?, upsert, Upsert.offer, List.lookup_cons]

theorem Project.ofCells?_cells (r : Project) :
    Project.ofCells? (Project.upsert.cells r) = some r := by
  simp [ofCells?, upsert, Upsert.offer, List.lookup_cons]

theorem Suite.ofCells?_cells (r : Suite) : Suite.ofCells? (Suite.upsert.cells r) = some r := by
  simp [ofCells?, upsert, Upsert.offer, List.lookup_cons]

theorem Run.ofCells?_cells (r : Run) : Run.ofCells? (Run.upsert.cells r) = some r := by
  simp [ofCells?, Counts.ofCells?, upsert, Upsert.offer, List.lookup_cons]

theorem Result.ofCells?_cells (r : Result) : Result.ofCells? (Result.upsert.cells r) = some r := by
  simp [ofCells?, upsert, Upsert.offer, List.lookup_cons]

theorem Case.ofCells?_cells (r : Case) : Case.ofCells? (Case.upsert.cells r) = some r.reread := by
  have hfields : OfCell.ofCell? (Cell.ofColumn (.json (.obj r.customFields) .null)) =
      some (Json.obj r.customFields).text := ofCell?_json rfl
  simp [ofCells?, upsert, Upsert.offer, List.lookup_cons, hfields, reread]

end Tool

end QaLake
