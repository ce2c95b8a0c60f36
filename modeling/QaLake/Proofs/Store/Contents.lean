import QaLake.Proofs.Store.Cell
import QaLake.Proofs.Store.Sources

namespace QaLake.Store

/-- A staged record without its id and its marks. -/
structure Entry where
  data : Cell
  url : String
  input : Option Cell
  deriving DecidableEq, Repr

namespace Entry

def texts? (e : Entry) : Option (String × Option String) := do
  let data ← e.data.text?
  match e.input with
  | none => return (data, none)
  | some cell => return (data, some (← cell.text?))

def ofRecord (url : String) (input : Option Json) (record : Json) : Entry :=
  ⟨Cell.ofText record.text, url, input.map fun j => Cell.ofText j.text⟩

theorem texts?_ofRecord {record : Json} {input : Option Json} (url : String)
    (hrecord : record.isNumber = false) (hinput : ∀ j ∈ input, j.isNumber = false) :
    (ofRecord url input record).texts? = some (record.text, input.map Json.text) := by
  rw [ofRecord, Cell.ofText_text hrecord]
  cases input with
  | none => rfl
  | some j =>
    rw [Option.map_some, Cell.ofText_text (hinput j rfl)]
    rfl

end Entry

namespace StagedRow

def entry (r : StagedRow) : Entry :=
  ⟨r.data, r.url, r.input⟩

theorem record?_texts (r : StagedRow) :
    r.record?.map (fun x => (x.data, x.input)) = r.entry.texts? := by
  obtain ⟨id, table, tag, data, url, input⟩ := r
  cases data with
  | text s =>
    cases input with
    | none => rfl
    | some cell => cases cell <;> rfl
  | int n => rfl
  | real x => rfl
  | infinite negative => rfl

end StagedRow

namespace Staging

/-- What is staged for a table and a scope, in the order of arrival. -/
def contents (s : Staging) (table tag : String) : List Entry :=
  (s.rowsOf table tag).map StagedRow.entry

theorem belongs_iff {table tag : String} {r : StagedRow} :
    belongs table tag r = true ↔ r.table = table ∧ r.tag = tag := by
  simp [belongs]

theorem rowsOf_insertPage_of_ne (s : Staging) {table tag table' tag' : String}
    (h : ¬(table = table' ∧ tag = tag')) (url : String) (input : Option Json)
    (records : List Json) :
    (s.insertPage table tag url input records).rowsOf table' tag' = s.rowsOf table' tag' := by
  rw [insertPage]
  induction records generalizing s with
  | nil => rfl
  | cons record records ih =>
    rw [List.foldl_cons, ih, rowsOf_push, if_neg h, List.append_nil]

theorem contents_insertPage (s : Staging) (table tag url : String) (input : Option Json)
    (records : List Json) :
    (s.insertPage table tag url input records).contents table tag =
      s.contents table tag ++ records.map (Entry.ofRecord url input) := by
  rw [insertPage]
  induction records generalizing s with
  | nil => simp
  | cons record records ih =>
    rw [List.foldl_cons, ih, contents, rowsOf_push, if_pos ⟨rfl, rfl⟩, List.map_append,
      List.append_assoc]
    rfl

theorem rowsOf_delete_of_ne (s : Staging) {table tag table' tag' : String}
    (h : ¬(table = table' ∧ tag = tag')) :
    (s.delete table tag).rowsOf table' tag' = s.rowsOf table' tag' := by
  rw [rowsOf_delete, if_neg h]

theorem filter_rows_delete (s : Staging) {table tag : String} {p : StagedRow → Bool}
    (hp : ∀ r, belongs table tag r = true → p r = false) :
    (s.delete table tag).rows.filter p = s.rows.filter p := by
  change (s.rows.filter _).filter p = _
  rw [List.filter_filter]
  refine List.filter_congr fun r _ => ?_
  cases hr : belongs table tag r with
  | false => rw [Bool.not_false, Bool.and_true]
  | true => rw [hp r hr, Bool.false_and]

theorem contents_delete (s : Staging) (table tag : String) :
    (s.delete table tag).contents table tag = [] := by
  rw [contents, rowsOf_delete, if_pos ⟨rfl, rfl⟩]
  rfl

theorem records?_texts (s : Staging) (table tag : String) :
    (s.records? table tag).map (List.map fun r => (r.data, r.input)) =
      (s.contents table tag).mapM Entry.texts? := by
  rw [records?, contents]
  induction s.rowsOf table tag with
  | nil => rfl
  | cons r rows ih =>
    rw [List.mapM_cons, List.map_cons, List.mapM_cons, ← ih, ← r.record?_texts]
    cases r.record? with
    | none => rfl
    | some x => cases rows.mapM StagedRow.record? <;> rfl

/-- A staging with records of a table and a scope behind those of another, under ids that were not
given before. -/
def Appends (s s' : Staging) (table tag : String) (entries : List Entry) : Prop :=
  s.lastId ≤ s'.lastId ∧ ∃ rows, s'.rows = s.rows ++ rows ∧ rows.map StagedRow.entry = entries ∧
    ∀ r ∈ rows, r.table = table ∧ r.tag = tag ∧ s.lastId < r.id

theorem Appends.refl (s : Staging) (table tag : String) : s.Appends s table tag [] :=
  ⟨Nat.le_refl _, [], (List.append_nil _).symm, rfl, fun _ hr => absurd hr List.not_mem_nil⟩

theorem Appends.trans {s u v : Staging} {table tag : String} {entries more : List Entry}
    (h : s.Appends u table tag entries) (h' : u.Appends v table tag more) :
    s.Appends v table tag (entries ++ more) := by
  obtain ⟨hid, rows, hu, rfl, hrows⟩ := h
  obtain ⟨hid', rows', hv, rfl, hrows'⟩ := h'
  refine ⟨Nat.le_trans hid hid', rows ++ rows', ?_, List.map_append, fun r hr => ?_⟩
  · rw [hv, hu, List.append_assoc]
  · obtain hr | hr := List.mem_append.1 hr
    · exact hrows r hr
    · obtain ⟨htable, htag, hnew⟩ := hrows' r hr
      exact ⟨htable, htag, Nat.lt_of_le_of_lt hid hnew⟩

theorem appends_push (s : Staging) (table tag : String) (data : Cell) (url : String)
    (input : Option Cell) :
    s.Appends (s.push table tag data url input) table tag [⟨data, url, input⟩] := by
  refine ⟨Nat.le_succ _, _, rfl, rfl, fun r hr => ?_⟩
  obtain rfl := List.mem_singleton.1 hr
  exact ⟨rfl, rfl, Nat.lt_succ_self _⟩

theorem appends_insertPage (s : Staging) (table tag url : String) (input : Option Json)
    (records : List Json) :
    s.Appends (s.insertPage table tag url input records) table tag
      (records.map (Entry.ofRecord url input)) := by
  rw [insertPage]
  induction records generalizing s with
  | nil => exact Appends.refl s table tag
  | cons record records ih => exact (s.appends_push table tag _ url _).trans (ih _)

section Appends

variable {s s' : Staging} {table tag : String} {entries : List Entry}

/-- What is staged behind a deletion is all that there is for the table and the scope. -/
theorem Appends.contents_of_delete (h : (s.delete table tag).Appends s' table tag entries) :
    s'.contents table tag = entries ∧ ∀ r ∈ s'.rowsOf table tag, r ∉ s.rows := by
  obtain ⟨-, rows, hs', rfl, hrows⟩ := h
  have hnew : rows.filter (belongs table tag) = rows := by
    refine List.filter_eq_self.2 fun r hr => ?_
    obtain ⟨htable, htag, -⟩ := hrows r hr
    exact belongs_iff.2 ⟨htable, htag⟩
  have hold : (s.delete table tag).rowsOf table tag = [] := by
    rw [rowsOf_delete, if_pos ⟨rfl, rfl⟩]
  have hall : s'.rowsOf table tag = rows := by
    rw [rowsOf, hs', List.filter_append, hnew]
    exact congrArg (· ++ rows) hold
  refine ⟨congrArg (List.map StagedRow.entry) hall, fun r hr hmem => ?_⟩
  rw [hall] at hr
  exact absurd (s.bounded r hmem).2 (Nat.not_le.2 (hrows r hr).2.2)

theorem Appends.filter_rows (h : s.Appends s' table tag entries) {p : StagedRow → Bool}
    (hp : ∀ r, belongs table tag r = true → p r = false) :
    s'.rows.filter p = s.rows.filter p := by
  obtain ⟨-, rows, hs', -, hrows⟩ := h
  have hnone : rows.filter p = [] := by
    refine List.filter_eq_nil_iff.2 fun r hr => ?_
    obtain ⟨htable, htag, -⟩ := hrows r hr
    rw [hp r (belongs_iff.2 ⟨htable, htag⟩)]
    exact Bool.false_ne_true
  rw [hs', List.filter_append, hnone, List.append_nil]

theorem Appends.others (h : s.Appends s' table tag entries) :
    (s'.rows.filter fun r => !belongs table tag r) =
      s.rows.filter fun r => !belongs table tag r :=
  h.filter_rows fun r hr => by rw [hr, Bool.not_true]

theorem Appends.length_rows (h : s.Appends s' table tag entries) :
    s'.rows.length = s.rows.length + entries.length := by
  obtain ⟨-, rows, hs', rfl, -⟩ := h
  rw [hs', List.length_append, List.length_map]

end Appends

end Staging

end QaLake.Store
