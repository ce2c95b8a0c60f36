import QaLake.Json.Printer
import QaLake.Store.Cell

namespace QaLake.Store

structure StagedRow where
  id : Nat
  table : String
  tag : String
  data : Cell
  url : String
  input : Option Cell
  deriving DecidableEq, Repr

structure StagedRecord where
  id : Nat
  table : String
  tag : String
  data : String
  url : String
  input : Option String
  deriving DecidableEq, Repr

namespace StagedRow

def record? (r : StagedRow) : Option StagedRecord := do
  let data ← r.data.text?
  match r.input with
  | none => return ⟨r.id, r.table, r.tag, data, r.url, none⟩
  | some cell => return ⟨r.id, r.table, r.tag, data, r.url, some (← cell.text?)⟩

def cells (r : StagedRow) : Cells :=
  [("id", some (.int r.id)), ("table_name", some (.text r.table)), ("params", some (.text r.tag)),
    ("data", some r.data), ("url", some (.text r.url)), ("input", r.input)]

end StagedRow

/-- All staged records, and the last id that was given. -/
structure Staging where
  rows : List StagedRow
  lastId : Nat
  ascending : rows.Pairwise fun a b => a.id < b.id
  bounded : ∀ r ∈ rows, 0 < r.id ∧ r.id ≤ lastId

namespace Staging

def empty : Staging :=
  ⟨[], 0, List.Pairwise.nil, fun _ h => nomatch h⟩

instance : Inhabited Staging := ⟨empty⟩

def belongs (table tag : String) (r : StagedRow) : Bool :=
  r.table == table && r.tag == tag

def rowsOf (s : Staging) (table tag : String) : List StagedRow :=
  s.rows.filter (belongs table tag)

def push (s : Staging) (table tag : String) (data : Cell) (url : String) (input : Option Cell) :
    Staging where
  rows := s.rows ++ [⟨s.lastId + 1, table, tag, data, url, input⟩]
  lastId := s.lastId + 1
  ascending := by
    refine List.pairwise_append.2 ⟨s.ascending, List.pairwise_singleton _ _, fun a ha b hb => ?_⟩
    have hb : b = _ := List.mem_singleton.1 hb
    have := (s.bounded a ha).2
    subst hb
    show a.id < s.lastId + 1
    omega
  bounded := by
    intro r hr
    rcases List.mem_append.1 hr with hr | hr
    · have := s.bounded r hr
      omega
    · have hr : r = _ := List.mem_singleton.1 hr
      subst hr
      show 0 < s.lastId + 1 ∧ s.lastId + 1 ≤ s.lastId + 1
      omega

def insertPage (s : Staging) (table tag url : String) (input : Option Json) (records : List Json) :
    Staging :=
  let input := input.map fun j => Cell.ofText j.text
  records.foldl (fun s r => s.push table tag (Cell.ofText r.text) url input) s

def delete (s : Staging) (table tag : String) : Staging where
  rows := s.rows.filter fun r => !belongs table tag r
  lastId := s.lastId
  ascending := s.ascending.filter _
  bounded := fun r hr => s.bounded r (List.mem_filter.1 hr).1

/-- The first records of a table and a scope behind an id, at most `limit` of them, if all of them
can be read. -/
def batch? (s : Staging) (table tag : String) (after : Int) (limit : Nat) :
    Option (List StagedRecord) :=
  (((s.rowsOf table tag).filter fun r => after < r.id).take limit).mapM StagedRow.record?

theorem rowsOf_push (s : Staging) (table tag table' tag' : String) (data : Cell) (url : String)
    (input : Option Cell) :
    (s.push table tag data url input).rowsOf table' tag' =
      s.rowsOf table' tag' ++
        if table = table' ∧ tag = tag' then [⟨s.lastId + 1, table, tag, data, url, input⟩]
        else [] := by
  simp only [rowsOf, push, List.filter_append, List.filter_cons, List.filter_nil, belongs,
    Bool.and_eq_true, beq_iff_eq]

theorem rowsOf_delete (s : Staging) (table tag table' tag' : String) :
    (s.delete table tag).rowsOf table' tag' =
      if table = table' ∧ tag = tag' then [] else s.rowsOf table' tag' := by
  simp only [rowsOf, delete, List.filter_filter]
  split
  · rename_i h
    obtain ⟨rfl, rfl⟩ := h
    simp
  · rename_i h
    refine List.filter_congr fun r _ => ?_
    simp only [belongs]
    grind

end Staging

end QaLake.Store
