import QaLake.Proofs.Service.Facts
import QaLake.Proofs.Sync.Filled

namespace QaLake

open Store

theorem flatMap_toList_map {α β γ : Type} (f : α → Option β) (wrap : β → γ) (l : List α) :
    (l.flatMap fun a => ((f a).map wrap).toList) = (l.filterMap f).map wrap := by
  induction l with
  | nil => rfl
  | cons a l ih =>
    rw [List.flatMap_cons, ih, List.filterMap_cons]
    cases f a <;> rfl

theorem eq_insertionSort {l m : List Int} (h : l.Perm m) (hl : l.Pairwise (· < ·)) :
    l = m.insertionSort (· ≤ ·) := by
  refine List.Perm.eq_of_pairwise (fun a b _ _ => Int.le_antisymm) (hl.imp Int.le_of_lt)
    (List.pairwise_insertionSort _ _) (h.trans (List.perm_insertionSort _ _).symm)

namespace RunContext

variable {σ : Type} {cat : Catalogue} {ctx : RunContext} {gives : Request → Json → Prop}
  {order : List Visit → List Visit → Prop} {url : Request → String} {t₀ t : Tables}

theorem suiteIds_eq (h : (t.tool.streamed Tool.Suite ctx.scope).Perm (cat.suites ctx.scope)) :
    ctx.suiteIds t.tool = cat.selectedSuites ctx.scope ctx.config := by
  refine eq_insertionSort ((h.filter _).map _) (List.pairwise_map.2 ?_)
  exact (streamed_ascending t.tool ctx.scope).filter _

theorem runIds_eq (h : (t.tool.streamed Tool.Run ctx.scope).Perm (cat.runs ctx.scope)) :
    ctx.runIds t.tool = cat.selectedRuns ctx.scope ctx.config := by
  refine eq_insertionSort ((h.filter _).map _) (List.pairwise_map.2 ?_)
  exact (streamed_ascending t.tool ctx.scope).filter _

section Described

variable {ρ : Type} {kind : EntityKind} {wrap : ρ → Tool.Row}

theorem describedRows_map {records : List Json} {input : Option Json} {read : Json → Option ρ}
    (h : ∀ j ∈ records, ctx.describedRows kind (j, input) = ((read j).map wrap).toList) :
    (records.map fun r => (r, input)).flatMap (ctx.describedRows kind) =
      (records.filterMap read).map wrap := by
  rw [List.flatMap_map, ← flatMap_toList_map]
  exact List.flatMap_congr h

theorem describedRows_flatMap {ids : List Int} {records : Int → List Json}
    {read : Int → Json → Option ρ}
    (h : ∀ id ∈ ids, ∀ j ∈ records id,
      ctx.describedRows kind (j, some (inputOf (.int id))) = ((read id j).map wrap).toList) :
    (ids.flatMap fun id => (records id).map fun r => (r, some (inputOf (.int id)))).flatMap
        (ctx.describedRows kind) =
      (ids.flatMap fun id => (records id).filterMap (read id)).map wrap := by
  rw [List.flatMap_assoc, List.map_flatMap]
  exact List.flatMap_congr fun id hid => describedRows_map (h id hid)

end Described

theorem isSigned_of_mem_selectedRuns {id : Int}
    (h : id ∈ cat.selectedRuns ctx.scope ctx.config) : Word.IsSigned id := by
  rw [Catalogue.selectedRuns, List.mem_insertionSort] at h
  obtain ⟨r, hr, rfl⟩ := List.mem_map.1 h
  obtain ⟨j, -, hj⟩ := List.mem_filterMap.1 (mem_of_mem_lastPer (List.mem_filter.1 hr).1)
  exact Tool.Run.isSigned_of_ofJson? hj

section Tool

variable (hserved : ∀ r j, gives r j → cat.Answers r j)
  (hplain : ∀ path, ∀ j ∈ cat.under path,
    j.IsPlain ∧ j.isNumber = false ∧ j.depth ≤ Json.Document.maxDepth)
  (hids : cat.HasPositiveIds ctx.scope ctx.config) (ht₀ : t₀.tool = .empty)
  (hholds : ∀ s : Subtask, ∃ o n, ctx.Holds gives Eq url t₀ s t o n)

include hserved hplain hids ht₀ hholds

theorem streamed_suites :
    (t.tool.streamed Tool.Suite ctx.scope).Perm (cat.suites ctx.scope) := by
  refine streamed_perm (fun n hn => ?_) (fun r hr => ?_) hids.suites
  · have hkind : n.kind ∈ EntityKind.described .suite := hn ▸ List.mem_singleton_self _
    rw [find?_of_all hserved (fun path j hj => (hplain path j hj).2.1) ht₀ hholds (by decide) hkind]
    exact congrArg (lastUnder Tool.Row.name · n) (describedRows_map fun j hj =>
      Tool.rowsOfRecord_suite _ (hplain _ j hj).1 (hplain _ j hj).2.2)
  · obtain ⟨j, -, hj⟩ := List.mem_filterMap.1 hr
    obtain ⟨payload, -, rfl⟩ := Option.map_eq_some_iff.1 hj
    exact ⟨rfl, rfl, rfl⟩

theorem streamed_runs : (t.tool.streamed Tool.Run ctx.scope).Perm (cat.runs ctx.scope) := by
  refine streamed_perm (fun n hn => ?_) (fun r hr => ?_) hids.runs
  · have hkind : n.kind ∈ EntityKind.described .run := hn ▸ List.mem_singleton_self _
    rw [find?_of_all hserved (fun path j hj => (hplain path j hj).2.1) ht₀ hholds (by decide) hkind]
    exact congrArg (lastUnder Tool.Row.name · n) (describedRows_map fun j hj =>
      Tool.rowsOfRecord_run _ (hplain _ j hj).1 (hplain _ j hj).2.2)
  · obtain ⟨j, -, hj⟩ := List.mem_filterMap.1 hr
    obtain ⟨payload, -, hj⟩ := Option.bind_eq_some_iff.1 hj
    obtain ⟨counts, -, hj⟩ := Option.bind_eq_some_iff.1 hj
    cases hj
    exact ⟨rfl, rfl, rfl⟩

theorem streamed_cases :
    (t.tool.streamed Tool.Case ctx.scope).Perm (cat.cases ctx.scope ctx.config) := by
  have hsuites := suiteIds_eq (streamed_suites hserved hplain hids ht₀ hholds)
  refine streamed_perm (fun n hn => ?_) (fun r hr => ?_) hids.cases
  · have hkind : n.kind ∈ EntityKind.described .case := hn ▸ List.mem_singleton_self _
    rw [find?_of_all hserved (fun path j hj => (hplain path j hj).2.1) ht₀ hholds (by decide) hkind,
      ← hsuites]
    exact congrArg (lastUnder Tool.Row.name · n) (describedRows_flatMap fun id hid j hj =>
      Tool.rowsOfRecord_case _ (hplain _ j hj).1 (hplain _ j hj).2.2)
  · obtain ⟨id, -, hr⟩ := List.mem_flatMap.1 hr
    obtain ⟨j, hj, hr⟩ := List.mem_filterMap.1 hr
    have hreread := Tool.Case.reread_of_ofJson? (hplain _ j hj).1 (hplain _ j hj).2.2 hr
    cases j with
    | obj members =>
      obtain ⟨payload, -, rfl⟩ := Option.map_eq_some_iff.1 hr
      exact ⟨rfl, rfl, hreread⟩
    | _ => cases hr

theorem streamed_results :
    (t.tool.streamed Tool.Result ctx.scope).Perm (cat.results ctx.scope ctx.config) := by
  have hruns := runIds_eq (streamed_runs hserved hplain hids ht₀ hholds)
  refine streamed_perm (fun n hn => ?_) (fun r hr => ?_) hids.results
  · have hkind : n.kind ∈ EntityKind.described .result := hn ▸ List.mem_singleton_self _
    rw [find?_of_all hserved (fun path j hj => (hplain path j hj).2.1) ht₀ hholds (by decide) hkind,
      ← hruns]
    refine congrArg (lastUnder Tool.Row.name · n) (describedRows_flatMap fun id hid j hj => ?_)
    have hsigned : Word.IsSigned id := isSigned_of_mem_selectedRuns (hruns ▸ hid)
    have hrun : Tool.inputId (some (inputOf (.int id)).text) = id := Tool.inputId_text hsigned
    have hrows : ctx.describedRows .result (j, some (inputOf (.int id))) =
        ((Tool.Result.ofJson? ctx.scope (Tool.inputId (some (inputOf (.int id)).text)) j).map
          Tool.Row.result).toList :=
      Tool.rowsOfRecord_result _ (hplain _ j hj).1 (hplain _ j hj).2.2
    rw [hrun] at hrows
    exact hrows
  · obtain ⟨id, -, hr⟩ := List.mem_flatMap.1 hr
    obtain ⟨j, -, hr⟩ := List.mem_filterMap.1 hr
    obtain ⟨payload, -, rfl⟩ := Option.map_eq_some_iff.1 hr
    exact ⟨rfl, rfl, rfl⟩

end Tool

section Domain

variable (ht₀ : t₀.domain = .empty)
  (hholds : ∀ s : Subtask, ∃ o n, ctx.Holds gives order url t₀ s t o n)

include ht₀ hholds

theorem testCases_perm : t.domain.testCases.rows.Perm
    ((t.tool.streamed Tool.Case ctx.scope).filterMap (Domain.TestCase.ofTool? ctx.config)) := by
  refine domain_perm ht₀ hholds rfl (List.mem_singleton_self _) rfl (fun c => ?_)
    (fun _ _ => Domain.Row.testCase.inj) (fun _ => rfl) (fun _ => rfl) (fun c d hd => ?_)
  · change (Domain.Outcome.ofOption ((Domain.TestCase.ofTool? ctx.config c).map .testCase)).row? = _
    cases Domain.TestCase.ofTool? ctx.config c <;> rfl
  · exact (Domain.TestCase.ids_of_ofTool? hd).1

theorem testRuns_perm : t.domain.testRuns.rows.Perm
    ((t.tool.streamed Tool.Run ctx.scope).filterMap (Domain.TestRun.ofTool? ctx.config)) := by
  refine domain_perm ht₀ hholds rfl (List.mem_singleton_self _) rfl (fun r => ?_)
    (fun _ _ => Domain.Row.testRun.inj) (fun _ => rfl) (fun _ => rfl) (fun r d hd => ?_)
  · change (Domain.Outcome.ofOption ((Domain.TestRun.ofTool? ctx.config r).map .testRun)).row? = _
    cases Domain.TestRun.ofTool? ctx.config r <;> rfl
  · exact (Domain.TestRun.ids_of_ofTool? hd).1

theorem executions_perm : t.domain.executions.rows.Perm
    ((t.tool.streamed Tool.Result ctx.scope).map (Domain.Execution.ofTool ctx.config)) := by
  have hsome : (t.tool.streamed Tool.Result ctx.scope).map (Domain.Execution.ofTool ctx.config) =
      (t.tool.streamed Tool.Result ctx.scope).filterMap fun r =>
        some (Domain.Execution.ofTool ctx.config r) := (congrFun List.filterMap_eq_map' _).symm
  rw [hsome]
  refine domain_perm ht₀ hholds rfl (List.mem_singleton_self _) rfl (fun _ => rfl)
    (fun _ _ => Domain.Row.execution.inj) (fun _ => rfl) (fun _ => rfl) (fun r d hd => ?_)
  cases hd
  rfl

theorem projects_perm : t.domain.projects.rows.Perm
    ((t.tool.streamed Tool.Project ctx.scope).filterMap fun p =>
      some (Domain.Project.ofTool p)) := by
  refine domain_perm ht₀ hholds rfl (List.mem_singleton_self _) rfl (fun _ => rfl)
    (fun _ _ => Domain.Row.project.inj) (fun _ => rfl) (fun _ => rfl) (fun p d hd => ?_)
  cases hd
  rfl

end Domain

def withoutSuite5 : RunContext :=
  { inPagesOf 2 1 with config := some { ScopeConfig.empty with excludedSuites := [5] } }

end RunContext

end QaLake
