import QaLake.Proofs.Store.ReadBack
import QaLake.Proofs.Store.Upserts
import QaLake.Proofs.Text.Utf8

namespace QaLake

open Store

namespace Domain.Row

def key (d : Row) : Kind × String :=
  (d.kind, d.id)

/-- A row that can be kept without loss: its instants are in years of four digits, and its
attributes are an object without floating-point numbers that is not nested too deep. -/
structure IsLossless (d : Row) : Prop where
  instants : ∀ i ∈ d.instants, i.IsRegular ∧ i.HasFourDigitYear
  object : ∃ members, d.attributes = .obj members
  plain : d.attributes.IsPlain
  depth : d.attributes.depth ≤ Json.Document.maxDepth

theorem IsLossless.isNumber {d : Row} (h : d.IsLossless) : d.attributes.isNumber = false := by
  obtain ⟨members, hmembers⟩ := h.object
  rw [hmembers]
  rfl

theorem IsLossless.reread {d : Row} (h : d.IsLossless) : d.reread = d := by
  refine reread_eq_self_iff.2 ⟨fun i hi => (h.instants i hi).2, ?_⟩
  rw [attributesReread, Json.parse?_text _ h.plain h.depth, Option.getD_some]

end Domain.Row

namespace Store.DomainTables

theorem kind_of_mem_rows {t : DomainTables} {kind : Domain.Kind} {d : Domain.Row}
    (h : d ∈ t.rows kind) : d.kind = kind := by
  cases kind <;>
    · obtain ⟨x, -, rfl⟩ := List.mem_map.1 h
      rfl

theorem mem_rows_iff (t : DomainTables) (d : Domain.Row) :
    d ∈ t.rows d.kind ↔ t.find? d.key = some d := by
  cases d <;>
    simp [rows, find?, Domain.Row.key, Domain.Row.kind, Domain.Row.id, RowTable.mem_rows_iff]

theorem length_stored (t : DomainTables) (kind : Domain.Kind) :
    (t.stored kind).length = (t.rows kind).length := by
  cases kind <;>
    · rw [rows, List.length_map]
      exact (congrArg List.length (RowTable.rows_stored _)).trans (List.length_map _)

theorem nodup_rows (t : DomainTables) (kind : Domain.Kind) : (t.rows kind).Nodup := by
  cases kind <;>
    · refine (RowTable.nodup_rows _).map fun a b h => ?_
      cases h
      rfl

/-- Tables in which the last of some rows is found under each key, where all rows can be kept
without loss. -/
structure Keeps (t : DomainTables) (rows : List Domain.Row) : Prop where
  find? : ∀ n, t.find? n = lastUnder Domain.Row.key rows n
  lossless : ∀ d ∈ rows, d.IsLossless

namespace Keeps

variable {t : DomainTables} {rows : List Domain.Row}

theorem lossless_of_last (h : t.Keeps rows) {n : Domain.Kind × String} {d : Domain.Row}
    (hd : lastUnder Domain.Row.key rows n = some d) : d.IsLossless :=
  h.lossless d (mem_of_lastUnder hd).1

theorem count (h : t.Keeps rows) (kind : Domain.Kind) :
    (t.stored kind).length =
      ((rows.filter fun d => d.kind = kind).map Domain.Row.id).dedup.length := by
  rw [length_stored]
  refine length_of_last Domain.Row.key (t.nodup_rows kind) (fun d => ?_) (fun a b he => ?_)
    fun a b ha hb => ⟨fun he => congrArg Prod.snd he, fun he => ?_⟩
  · rw [decide_eq_true_iff, ← h.find?, ← t.mem_rows_iff]
    constructor
    · intro hd
      have hkind := kind_of_mem_rows hd
      exact ⟨hkind, hkind.symm ▸ hd⟩
    · rintro ⟨rfl, hd⟩
      exact hd
  · have hkind : a.kind = b.kind := congrArg Prod.fst he
    rw [hkind]
  · have hkind : a.kind = b.kind := (of_decide_eq_true ha).trans (of_decide_eq_true hb).symm
    exact Prod.ext hkind he

theorem mem_testRuns_iff (h : t.Keeps rows) (r : Domain.TestRun) :
    r ∈ t.testRuns.rows ↔
      lastUnder Domain.Row.key rows (.testRun, r.id) = some (.testRun r) := by
  rw [t.testRuns.mem_rows_iff_map fun _ _ => Domain.Row.testRun.inj, ← h.find?]
  rfl

theorem mem_executions_iff (h : t.Keeps rows) (r : Domain.Execution) :
    r ∈ t.executions.rows ↔
      lastUnder Domain.Row.key rows (.execution, r.id) = some (.execution r) := by
  rw [t.executions.mem_rows_iff_map fun _ _ => Domain.Row.execution.inj, ← h.find?]
  rfl

theorem ofCells?_testRun (h : t.Keeps rows) {r : Domain.TestRun} (hr : r ∈ t.testRuns.rows) :
    Domain.TestRun.ofCells? (Domain.TestRun.upsert.cells r) = some r := by
  have hlossless := h.lossless_of_last ((h.mem_testRuns_iff r).1 hr)
  have hread := Domain.TestRun.ofCells?_cells (hlossless.instants _ List.mem_cons_self).1
    fun finish hfinish =>
      (hlossless.instants finish (List.mem_cons_of_mem _ (Option.mem_toList.2 hfinish))).1
  rw [hread]
  exact congrArg some (Domain.Row.testRun.inj hlossless.reread)

theorem ofCells?_execution (h : t.Keeps rows) {r : Domain.Execution}
    (hr : r ∈ t.executions.rows) :
    Domain.Execution.ofCells? (Domain.Execution.upsert.cells r) = some r := by
  have hlossless := h.lossless_of_last ((h.mem_executions_iff r).1 hr)
  have hregular : ∀ i ∈ [r.createTime, r.startTime, r.finishTime], i.IsRegular := fun i hi =>
    (hlossless.instants i hi).1
  have hread := Domain.Execution.ofCells?_cells (hregular r.createTime (by simp))
    (hregular r.startTime (by simp)) (hregular r.finishTime (by simp))
  rw [hread]
  exact congrArg some (Domain.Row.execution.inj hlossless.reread)

end Keeps

end Store.DomainTables

/-- A query lists the rows of a table that have a property, if they are read back as they are. -/
theorem RowTable.listing {α : Type} {id : α → String} [Upserted id] (t : RowTable id)
    (query : Cells → Bool) (keep : α → Bool) {ofCells? : Cells → Option α}
    (hquery : ∀ r, query ((Upserted.upsert id).cells r) = keep r)
    (hread : ∀ r ∈ t.rows, ofCells? ((Upserted.upsert id).cells r) = some r) :
    ∃ listed, (t.stored.rows.filter query).mapM ofCells? = some listed ∧
      listed.Pairwise (fun a b => Text.utf8 (id a) < Text.utf8 (id b)) ∧
      ∀ r, r ∈ listed ↔ r ∈ t.rows ∧ keep r = true := by
  refine ⟨t.rows.filter keep, ?_, (t.rows_ascending.filter _).imp Text.utf8_lt_of_before,
    fun r => List.mem_filter⟩
  have hkeep : query ∘ (Upserted.upsert id).cells = keep := funext hquery
  rw [t.rows_stored, List.filter_map, hkeep, List.mapM_map]
  exact mapM_eq_self fun r hr => hread r (List.mem_filter.1 hr).1

namespace Database

open Domain (Row)

theorem foldlM_putDomain (rows : List Row) (t : Tables) :
    rows.foldlM (fun db d => db.putDomain d) (migrated t) =
      .ok (migrated { t with domain := rows.foldl DomainTables.insert t.domain }) := by
  have hfold : rows.foldl (fun u d => { u with domain := u.domain.insert d }) t =
      { t with domain := rows.foldl DomainTables.insert t.domain } :=
    List.foldl_hom (fun domain => { t with domain := domain }) fun _ _ => rfl
  rw [← hfold]
  exact foldlM_write (fun d t => { t with domain := t.domain.insert d }) rows t

/-- The domain tables keep the last row of each identifier. -/
theorem keeps_last_domain_rows {rows : List Row} (hrows : ∀ d ∈ rows, d.IsLossless) :
    ∃ db, rows.foldlM (fun db d => db.putDomain d) unmigrated.migrate = .ok db ∧
      (∀ kind id, db.domainRow? kind id = .ok (lastUnder Row.key rows (kind, id))) ∧
      (∀ project, ∃ runs, db.testRunsOf project = .ok runs ∧
        runs.Pairwise (fun a b => Text.utf8 a.id < Text.utf8 b.id) ∧
        ∀ r, r ∈ runs ↔ lastUnder Row.key rows (.testRun, r.id) = some (.testRun r) ∧
          r.projectId = project) ∧
      (∀ project, ∃ executions, db.executionsOf project = .ok executions ∧
        executions.Pairwise (fun a b => Text.utf8 a.id < Text.utf8 b.id) ∧
        ∀ r, r ∈ executions ↔ lastUnder Row.key rows (.execution, r.id) = some (.execution r) ∧
          r.projectId = project) ∧
      ∀ kind, db.countDomain kind =
        .ok ((rows.filter fun d => d.kind = kind).map Row.id).dedup.length := by
  have hkeeps : (rows.foldl DomainTables.insert DomainTables.empty).Keeps rows := by
    refine ⟨fun n => ?_, hrows⟩
    rw [DomainTables.overwriting.get_foldl, DomainTables.find?_empty, Option.or_none]
    rfl
  refine ⟨_, foldlM_putDomain rows .empty, fun kind id => ?_, fun project => ?_,
    fun project => ?_, fun kind => congrArg Except.ok (hkeeps.count kind)⟩
  · cases hlast : lastUnder Row.key rows (kind, id) with
    | none => exact domainRow?_of_find?_none ((hkeeps.find? _).trans hlast)
    | some d =>
      have hlossless := hkeeps.lossless_of_last hlast
      obtain ⟨-, hkey⟩ := mem_of_lastUnder hlast
      obtain ⟨rfl, rfl⟩ := Prod.mk.inj hkey
      rw [domainRow?_of_find? ((hkeeps.find? _).trans hlast)
        (fun i hi => (hlossless.instants i hi).1) hlossless.isNumber, hlossless.reread]
  · obtain ⟨runs, hruns, hascending, hmem⟩ := RowTable.listing _ (ofProject project)
      (fun r => r.projectId == project) (fun _ => rfl) fun r hr => hkeeps.ofCells?_testRun hr
    refine ⟨runs, read_of_some hruns, hascending, fun r => (hmem r).trans ?_⟩
    rw [hkeeps.mem_testRuns_iff, beq_iff_eq]
  · obtain ⟨executions, hexecutions, hascending, hmem⟩ := RowTable.listing _ (ofProject project)
      (fun r => r.projectId == project) (fun _ => rfl) fun r hr => hkeeps.ofCells?_execution hr
    refine ⟨executions, read_of_some hexecutions, hascending,
      fun r => (hmem r).trans ?_⟩
    rw [hkeeps.mem_executions_iff, beq_iff_eq]

/-- A run in a leap second before the year 2017, and a test case with nested attributes. -/
def leapRun (project : String) : Domain.TestRun :=
  { id := "b", projectId := project, startTime := ⟨1483228799, 1500000000⟩ }

def nestedCase : Domain.TestCase :=
  { id := "c", customAttributes := .obj [("tags", .arr [.str "slow", .int 3])] }

def movedRun : List Row :=
  [.testRun (leapRun "p"), .testCase nestedCase, .testRun (leapRun "q")]

theorem keeps_last_domain_rows_moved :
    ∃ db, movedRun.foldlM (fun db d => db.putDomain d) unmigrated.migrate = .ok db ∧
      db.domainRow? .testRun "b" = .ok (some (.testRun (leapRun "q"))) ∧
      db.domainRow? .testCase "c" = .ok (some (.testCase nestedCase)) ∧
      db.domainRow? .execution "b" = .ok none ∧
      db.testRunsOf "p" = .ok [] ∧ db.countDomain .testRun = .ok 1 := by
  have hempty : (Json.obj []).IsPlain := ⟨List.Pairwise.nil, trivial⟩
  have hrun : ∀ project, (Row.testRun (leapRun project)).IsLossless := by
    intro project
    have hdepth : (Json.obj []).depth ≤ Json.Document.maxDepth := by decide
    refine ⟨fun i hi => ?_, ⟨[], rfl⟩, hempty, hdepth⟩
    obtain rfl : i = ⟨1483228799, 1500000000⟩ := List.mem_singleton.1 hi
    exact ⟨⟨by decide, .inr (by decide)⟩, by decide⟩
  have hcase : (Row.testCase nestedCase).IsLossless := by
    refine ⟨fun i hi => ?_, ⟨_, rfl⟩, ?_, by decide⟩
    · obtain rfl : i = .epoch := List.mem_singleton.1 hi
      exact ⟨⟨by decide, .inl (by decide)⟩, by decide⟩
    · exact ⟨List.pairwise_singleton _ _, ⟨trivial, ⟨by decide, by decide⟩, trivial⟩, trivial⟩
  have hrows : ∀ d ∈ movedRun, d.IsLossless := by
    intro d hd
    simp only [movedRun, List.mem_cons, List.not_mem_nil, or_false] at hd
    obtain rfl | rfl | rfl := hd
    · exact hrun "p"
    · exact hcase
    · exact hrun "q"
  obtain ⟨db, hwrites, hread, hruns, -, hcount⟩ := keeps_last_domain_rows hrows
  obtain ⟨runs, hlist, -, hmem⟩ := hruns "p"
  have hnone : runs = [] := by
    rw [List.eq_nil_iff_forall_not_mem]
    intro r hr
    obtain ⟨hlast, hproject⟩ := (hmem r).1 hr
    have hwritten : Row.testRun r ∈ movedRun := (mem_of_lastUnder hlast).1
    simp only [movedRun, List.mem_cons, List.not_mem_nil, or_false, Row.testRun.injEq] at hwritten
    obtain rfl | hr | rfl := hwritten
    · have hmoved : lastUnder Row.key movedRun (.testRun, "b") =
          some (.testRun (leapRun "q")) := rfl
      have hsame := hlast.symm.trans hmoved
      simp [leapRun] at hsame
    · cases hr
    · simp [leapRun] at hproject
  exact ⟨db, hwrites, hread .testRun "b", hread .testCase "c", hread .execution "b",
    hnone ▸ hlist, hcount .testRun⟩

end Database

end QaLake
