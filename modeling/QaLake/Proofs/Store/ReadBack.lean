import QaLake.Proofs.Store.Columns
import QaLake.Proofs.Store.Rows
import QaLake.Proofs.Time.Texts
import QaLake.Store.Database

namespace QaLake

namespace Instant

def dated (t : Instant) : Instant :=
  if t.HasFourDigitYear then t else epoch

theorem dated_eq_self_iff {t : Instant} : t.dated = t ↔ t.HasFourDigitYear := by
  rw [dated]
  by_cases h : t.HasFourDigitYear
  · simp [h]
  · have hepoch : epoch.HasFourDigitYear := by decide
    rw [if_neg h]
    refine ⟨fun he => he ▸ hepoch, fun h' => absurd h' h⟩

theorem instantOf_text {t : Instant} (h : t.IsRegular) : Domain.instantOf t.text = t.dated := by
  rw [Domain.instantOf, strict?_text h, dated]
  by_cases hyear : t.HasFourDigitYear
  · rw [if_pos hyear, if_pos hyear, Option.getD_some]
  · rw [if_neg hyear, if_neg hyear, Option.getD_none]

theorem isRegular_ofUnix (seconds : Int) : (ofUnix seconds).IsRegular := by
  rw [ofUnix]
  by_cases h : inRange seconds = true
  · rw [if_pos h]
    exact ⟨h, .inl (Nat.zero_lt_succ _)⟩
  · rw [if_neg h]
    exact ⟨by decide, .inl (Nat.zero_lt_succ _)⟩

end Instant

namespace Domain

namespace Row

def instants : Row → List Instant
  | project _ => []
  | testCase r => [r.createTime]
  | testRun r => r.startTime :: r.finishTime.toList
  | execution r => [r.createTime, r.startTime, r.finishTime]

/-- The attributes of a test case; other rows have none. -/
def attributes : Row → Json
  | testCase r => r.customAttributes
  | _ => .obj []

def attributesReread (d : Row) : Json :=
  (Json.parse? d.attributes.text).getD (.obj [])

/-- A row as it is read back: instants whose years have not four digits become the epoch, and
attributes become what their text says. -/
def reread (d : Row) : Row :=
  match d with
  | project r => project r
  | testCase r => testCase { r with
      createTime := r.createTime.dated, customAttributes := d.attributesReread }
  | testRun r => testRun { r with
      startTime := r.startTime.dated, finishTime := r.finishTime.map Instant.dated }
  | execution r => execution { r with
      createTime := r.createTime.dated, startTime := r.startTime.dated
      finishTime := r.finishTime.dated }

theorem reread_eq_self_iff {d : Row} : d.reread = d ↔
    (∀ i ∈ d.instants, i.HasFourDigitYear) ∧ d.attributesReread = d.attributes := by
  have hempty : (Json.parse? (Json.obj []).text).getD (.obj []) = .obj [] := by
    rw [Json.parse?_text (.obj []) ⟨List.Pairwise.nil, trivial⟩ (by decide), Option.getD_some]
  cases d with
  | project r => simp [reread, instants, attributesReread, attributes, hempty]
  | testCase r =>
    obtain ⟨id, name, projectId, createTime⟩ := r
    simp [reread, instants, attributesReread, attributes, Instant.dated_eq_self_iff]
  | testRun r =>
    obtain ⟨id, projectId, name, description, startTime, finishTime⟩ := r
    cases finishTime with
    | none =>
      simp [reread, instants, attributesReread, attributes, hempty, Instant.dated_eq_self_iff]
    | some finish =>
      simp [reread, instants, attributesReread, attributes, hempty, Instant.dated_eq_self_iff]
  | execution r =>
    obtain ⟨id, projectId, testCaseId, testRunId, createTime, startTime, finishTime⟩ := r
    simp [reread, instants, attributesReread, attributes, hempty, Instant.dated_eq_self_iff]

end Row

open Store

theorem Project.ofCells?_cells (r : Project) : ofCells? (upsert.cells r) = some r := by
  simp [ofCells?, upsert, Upsert.offer, List.lookup_cons]

theorem TestCase.ofCells?_cells {r : TestCase} (htime : r.createTime.IsRegular)
    (hnumber : r.customAttributes.isNumber = false) :
    (ofCells? (upsert.cells r)).map Row.testCase = some (Row.testCase r).reread := by
  have hattributes : OfCell.ofCell? (Cell.ofColumn (.json r.customAttributes .null)) =
      some r.customAttributes.text := ofCell?_json hnumber
  simp only [ofCells?, upsert, Upsert.offer, get?_cells]
  simp [List.lookup_cons, hattributes, Instant.instantOf_text htime,
    Row.reread, Row.attributesReread, Row.attributes]

theorem TestRun.ofCells?_cells {r : TestRun} (hstart : r.startTime.IsRegular)
    (hfinish : ∀ t ∈ r.finishTime, t.IsRegular) :
    ofCells? (upsert.cells r) = some { r with
      startTime := r.startTime.dated, finishTime := r.finishTime.map Instant.dated } := by
  have hmap : (r.finishTime.map Instant.text).map instantOf = r.finishTime.map Instant.dated := by
    cases hcase : r.finishTime with
    | none => rfl
    | some t =>
      have ht : t.IsRegular := hfinish t (by rw [hcase]; rfl)
      rw [Option.map_some, Option.map_some, Option.map_some, Instant.instantOf_text ht]
  simp only [ofCells?, upsert, Upsert.offer, get?_cells]
  simp [List.lookup_cons, Instant.instantOf_text hstart, hmap, RunStatus.ofWord?_word]

theorem Execution.ofCells?_cells {r : Execution} (hcreate : r.createTime.IsRegular)
    (hstart : r.startTime.IsRegular) (hfinish : r.finishTime.IsRegular) :
    ofCells? (upsert.cells r) = some { r with
      createTime := r.createTime.dated, startTime := r.startTime.dated
      finishTime := r.finishTime.dated } := by
  simp [ofCells?, upsert, Upsert.offer, List.lookup_cons, Instant.instantOf_text hcreate,
    Instant.instantOf_text hstart, Instant.instantOf_text hfinish]

end Domain

namespace Database

open Store

section Row

variable {κ α β : Type} [KeyOrder κ] [DecidableEq κ] {key : α → κ} [Upserted key] {t : Tables}
  {table : Tables → RowTable key} {k : κ}

theorem read_row {r : α} (hget : (table t).get? k = some r) {ofCells? : Cells → Option β} {d : β}
    (hcells : ofCells? ((Upserted.upsert key).cells r) = some d) :
    (migrated t).read (fun t => (table t).read? ofCells? k) = .ok (some d) := by
  refine read_of_some ?_
  rw [RowTable.read?_of_get? hget, hcells]
  rfl

theorem read_row_of_none (hget : (table t).get? k = none) (ofCells? : Cells → Option β) :
    (migrated t).read (fun t => (table t).read? ofCells? k) = .ok none :=
  read_of_some (RowTable.read?_of_none hget ofCells?)

end Row

theorem domainRow?_of_find? {t : Tables} {d : Domain.Row}
    (hfind : t.domain.find? (d.kind, d.id) = some d) (hregular : ∀ i ∈ d.instants, i.IsRegular)
    (hnumber : d.attributes.isNumber = false) :
    (Database.migrated t).domainRow? d.kind d.id = .ok (some d.reread) := by
  cases d with
  | project r =>
    have hget : t.domain.projects.get? r.id = some r :=
      Option.map_injective (fun _ _ => Domain.Row.project.inj) hfind
    exact congrArg (Except.map _) (read_row hget r.ofCells?_cells)
  | testCase r =>
    have hget : t.domain.testCases.get? r.id = some r :=
      Option.map_injective (fun _ _ => Domain.Row.testCase.inj) hfind
    obtain ⟨r', hcells, hreread⟩ := Option.map_eq_some_iff.1
      (Domain.TestCase.ofCells?_cells (hregular _ List.mem_cons_self) hnumber)
    rw [← hreread]
    exact congrArg (Except.map _) (read_row hget hcells)
  | testRun r =>
    have hget : t.domain.testRuns.get? r.id = some r :=
      Option.map_injective (fun _ _ => Domain.Row.testRun.inj) hfind
    have hcells := Domain.TestRun.ofCells?_cells (hregular _ List.mem_cons_self)
      fun finish hfinish => hregular finish (List.mem_cons_of_mem _ (Option.mem_toList.2 hfinish))
    exact congrArg (Except.map _) (read_row hget hcells)
  | execution r =>
    have hget : t.domain.executions.get? r.id = some r :=
      Option.map_injective (fun _ _ => Domain.Row.execution.inj) hfind
    have hcells := Domain.Execution.ofCells?_cells (r := r)
      (hregular _ (by simp [Domain.Row.instants])) (hregular _ (by simp [Domain.Row.instants]))
      (hregular _ (by simp [Domain.Row.instants]))
    exact congrArg (Except.map _) (read_row hget hcells)

theorem domainRow?_of_find?_none {t : Tables} {kind : Domain.Kind} {id : String}
    (h : t.domain.find? (kind, id) = none) : (migrated t).domainRow? kind id = .ok none := by
  cases kind with
  | project =>
    have hget : t.domain.projects.get? id = none := Option.map_eq_none_iff.1 h
    exact congrArg (Except.map _) (read_row_of_none hget _)
  | testCase =>
    have hget : t.domain.testCases.get? id = none := Option.map_eq_none_iff.1 h
    exact congrArg (Except.map _) (read_row_of_none hget _)
  | testRun =>
    have hget : t.domain.testRuns.get? id = none := Option.map_eq_none_iff.1 h
    exact congrArg (Except.map _) (read_row_of_none hget _)
  | execution =>
    have hget : t.domain.executions.get? id = none := Option.map_eq_none_iff.1 h
    exact congrArg (Except.map _) (read_row_of_none hget _)

end Database

end QaLake
