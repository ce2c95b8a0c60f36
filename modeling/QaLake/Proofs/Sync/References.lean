import QaLake.Proofs.Sync.Context
import QaLake.Proofs.Sync.Refinement
import QaLake.Proofs.Sync.Writes

namespace QaLake

open Store

variable {σ : Type}

namespace Tool.Row

def run? : Row → Option Int
  | .result r => some r.runId
  | _ => none

def suite? : Row → Option Int
  | .case c => c.suiteId
  | _ => none

end Tool.Row

namespace RunContext

variable {ctx : RunContext} {gives : Request → Json → Prop} {url : Request → String}
  {t₀ t : Tables} {kind : EntityKind} {x : RecordTexts}

section Origins

variable (hholds : ∀ s : Subtask, ∃ o n, ctx.Holds gives List.Perm url t₀ s t o n)

include hholds

theorem exists_input {e : Endpoint} {parents : Parents} (hendpoint : Endpoint.of? kind = some e)
    (hparents : e.parents = some parents) (hkind : kind.hasPhase .collect = true)
    (hx : x ∈ ctx.stagedTexts t kind) :
    ∃ j ∈ ctx.parentInputs t.tool parents, x.2 = some j.text := by
  obtain ⟨o, requests, hcollect⟩ := hholds ⟨.collect, kind, hkind⟩
  cases hcollect with
  | extract hphase => cases hphase
  | convert hphase => cases hphase
  | @collect table listing visits hphase htable hvisits hcontents =>
    unfold Collects at hvisits
    simp only [hendpoint] at hvisits
    simp only [stagedTexts, htable, hcontents] at hx
    obtain ⟨entry, hentry, htexts⟩ := List.mem_filterMap.1 hx
    obtain ⟨v, hv, hentry⟩ := List.mem_flatMap.1 hentry
    obtain ⟨record, -, rfl⟩ := List.mem_map.1 hentry
    obtain ⟨-, walked, hwalks, hperm⟩ := hvisits
    have hinput := hwalks.input_mem v (hperm.mem_iff.2 hv)
    have hinputs : (ctx.endpointCollector table e t.tool).inputs =
        some (ctx.parentInputs t.tool parents) := by
      rw [endpointCollector, Endpoint.collector, hparents]
      rfl
    rw [Collector.walkInputs, hinputs] at hinput
    obtain ⟨j, hj, hjv⟩ := List.mem_map.1 hinput
    obtain ⟨id, rfl⟩ := ctx.inputs_of_parentInputs t.tool parents j hj
    refine ⟨_, hj, ?_⟩
    rw [Entry.ofRecord, ← hjv] at htexts
    obtain ⟨data, -, htexts⟩ := Option.bind_eq_some_iff.1 htexts
    obtain ⟨text, htext, htexts⟩ := Option.bind_eq_some_iff.1 htexts
    cases htexts
    have hcell : (Cell.ofText (inputOf id).text).text? = some text := htext
    rw [Cell.ofText_text (j := inputOf id) rfl] at hcell
    exact hcell.symm

variable (ht₀ : t₀.tool = .empty)

include ht₀

theorem exists_of_mem_streamed {ρ : Type} [Streamed ρ] [LawfulStreamed ρ]
    (hkind : (Streamed.kind ρ).hasPhase .extract = true) {r : ρ}
    (hr : r ∈ t.tool.streamed ρ ctx.scope) :
    ∃ a : ρ, Streamed.reread a = r ∧ ∃ x ∈ ctx.stagedTexts t (Streamed.kind ρ),
      Streamed.toRow a ∈ ctx.rowsRead (Streamed.kind ρ) x := by
  obtain ⟨a, ha, rfl⟩ := List.mem_map.1 hr
  have hrow : a ∈ (Streamed.table (ρ := ρ) t.tool).rows :=
    (List.mem_filter.1 (List.mem_filter.1 ha).1).1
  have hfind : t.tool.find? ⟨Streamed.kind ρ, (Streamed.key a).connection,
      .inl (Streamed.key a).id⟩ = some (Streamed.toRow a) := by
    rw [LawfulStreamed.find?_eq, (RowTable.mem_rows_iff _ a).1 hrow]
    rfl
  rw [find?_of_staged ht₀ hholds hkind (Streamed.kind ρ).mem_described] at hfind
  obtain ⟨x, hx, hread⟩ := List.mem_flatMap.1 (mem_of_lastUnder hfind).1
  exact ⟨a, rfl, x, hx, hread⟩

end Origins

/-- Whether no staged result names a run. Without an input the run of a result is the one that its
record names. -/
def ResultsNameNoRun (ctx : RunContext) (t : Tables) : Prop :=
  ∀ x ∈ ctx.stagedTexts t .result, ∀ r ∈ ctx.rowsRead .result (x.1, none), r.run? = some 0

instance (ctx : RunContext) (t : Tables) : Decidable (ctx.ResultsNameNoRun t) :=
  inferInstanceAs (Decidable (∀ x ∈ ctx.stagedTexts t .result,
    ∀ r ∈ ctx.rowsRead .result (x.1, none), r.run? = some 0))

/-- Whether every staged case names the suite that it was fetched for. -/
def CasesNameSuites (ctx : RunContext) (t : Tables) : Prop :=
  ∀ x ∈ ctx.stagedTexts t .case, ∀ suite ∈ t.tool.streamed Tool.Suite ctx.scope,
    x.2 = some (inputOf (.int suite.id)).text →
      ∀ r ∈ ctx.rowsRead .case x, r.suite? = some suite.id

instance (ctx : RunContext) (t : Tables) : Decidable (ctx.CasesNameSuites t) :=
  inferInstanceAs (Decidable (∀ x ∈ ctx.stagedTexts t .case,
    ∀ suite ∈ t.tool.streamed Tool.Suite ctx.scope,
      x.2 = some (inputOf (.int suite.id)).text →
        ∀ r ∈ ctx.rowsRead .case x, r.suite? = some suite.id))

/-- Whether a staged record of a project is read as the project of the run. -/
def ProjectIsStaged (ctx : RunContext) (t : Tables) : Prop :=
  ∃ x ∈ ctx.stagedTexts t .project, ∃ r ∈ ctx.rowsRead .project x,
    r.name = ⟨.project, ctx.scope.connection, .inl ctx.scope.project⟩

instance (ctx : RunContext) (t : Tables) : Decidable (ctx.ProjectIsStaged t) :=
  inferInstanceAs (Decidable (∃ x ∈ ctx.stagedTexts t .project, ∃ r ∈ ctx.rowsRead .project x,
    r.name = ⟨.project, ctx.scope.connection, .inl ctx.scope.project⟩))

def projectId (ctx : RunContext) : String :=
  Domain.idOf .project ctx.scope.connection ctx.scope.project

section ToolRows

variable (hholds : ∀ s : Subtask, ∃ o n, ctx.Holds gives List.Perm url t₀ s t o n)
  (ht₀ : t₀.tool = .empty)

include hholds ht₀

theorem isSigned_of_mem_streamed {r : Tool.Run} (hr : r ∈ t.tool.streamed Tool.Run ctx.scope) :
    Word.IsSigned r.id := by
  obtain ⟨a, rfl, x, -, hread⟩ := exists_of_mem_streamed hholds ht₀ rfl hr
  obtain ⟨rows, hrows, hmem⟩ := mem_rowsRead hread
  exact Tool.Run.isSigned_of_rowsOfRecord hrows hmem

theorem exists_run (hresults : ctx.ResultsNameNoRun t) {r : Tool.Result}
    (hr : r ∈ t.tool.streamed Tool.Result ctx.scope) :
    ∃ run ∈ t.tool.streamed Tool.Run ctx.scope, ctx.allowsRun run = true ∧ r.runId = run.id := by
  obtain ⟨a, rfl, x, hx, hread⟩ := exists_of_mem_streamed hholds ht₀ rfl hr
  obtain ⟨j, hj, hinput⟩ := exists_input hholds (e := (Endpoint.of? .result).get rfl) rfl rfl rfl hx
  obtain ⟨run, hrun, rfl⟩ := List.mem_map.1 hj
  obtain ⟨hstreamed, hallowed⟩ := List.mem_filter.1 hrun
  obtain ⟨rows, hrows, hmem⟩ := mem_rowsRead hread
  obtain ⟨own, hown, hrunId⟩ := Tool.Result.runId_of_rowsOfRecord hrows hmem
  have hnone : own.runId = 0 := by
    have hread : Tool.Row.result own ∈ ctx.rowsRead .result (x.1, none) := by
      rw [rowsRead, hown]
      exact List.mem_singleton_self _
    exact Option.some.inj (hresults x hx _ hread)
  refine ⟨run, hstreamed, hallowed, ?_⟩
  -- The id of the run went through the text of the input, which holds signed words only.
  rw [if_pos hnone, hinput] at hrunId
  exact hrunId.trans (Tool.inputId_text (isSigned_of_mem_streamed hholds ht₀ hstreamed))

/-- A case that names the suite it was fetched for is one of a suite that takes part. -/
theorem exists_suite (hcases : ctx.CasesNameSuites t) {c : Tool.Case}
    (hc : c ∈ t.tool.streamed Tool.Case ctx.scope) :
    ∃ suite ∈ t.tool.streamed Tool.Suite ctx.scope, ctx.allowsSuite suite = true ∧
      c.suiteId = some suite.id := by
  obtain ⟨a, rfl, x, hx, hread⟩ := exists_of_mem_streamed hholds ht₀ rfl hc
  obtain ⟨j, hj, hinput⟩ := exists_input hholds (e := (Endpoint.of? .case).get rfl) rfl rfl rfl hx
  obtain ⟨suite, hsuite, rfl⟩ := List.mem_map.1 hj
  obtain ⟨hstreamed, hallowed⟩ := List.mem_filter.1 hsuite
  -- Reading a case back may change its custom fields, but not its suite.
  have hkeep : (Tool.Case.reread a).suiteId = a.suiteId := rfl
  exact ⟨suite, hstreamed, hallowed, hkeep.trans (hcases x hx suite hstreamed hinput _ hread)⟩

theorem exists_project (hproject : ctx.ProjectIsStaged t) (hpositive : 0 < ctx.scope.project) :
    ∃ p, p ∈ t.tool.streamed Tool.Project ctx.scope := by
  obtain ⟨x, hx, r, hr, hname⟩ := hproject
  -- Later records may have overwritten the row, but only with one of the same name.
  have hsome := isSome_lastUnder.2 (List.mem_map.2 ⟨r, List.mem_flatMap.2 ⟨x, hx, hr⟩, hname⟩)
  obtain ⟨row, hrow⟩ := Option.isSome_iff_exists.1 hsome
  have hnamed := (mem_of_lastUnder hrow).2
  rw [← find?_of_staged ht₀ hholds rfl (List.mem_singleton_self _)] at hrow
  obtain ⟨p, hget, rfl⟩ := Option.map_eq_some_iff.1 hrow
  have hconnection : p.connectionId = ctx.scope.connection :=
    congrArg Tool.RowName.connection hnamed
  have hid : p.id = ctx.scope.project := Sum.inl.inj (congrArg Tool.RowName.id hnamed)
  have hmem : p ∈ t.tool.projects.rows := by
    rw [RowTable.mem_rows_iff, Tool.Project.key, hconnection, hid]
    exact hget
  refine ⟨p, List.mem_map.2 ⟨p, List.mem_filter.2 ⟨List.mem_filter.2 ⟨hmem, ?_⟩, ?_⟩, rfl⟩⟩
  · change (p.connectionId == ctx.scope.connection && p.id == ctx.scope.project) = true
    simp [hconnection, hid]
  · change decide (0 < p.id) = true
    simpa [hid] using hpositive

end ToolRows

theorem idOf_of_mem_streamed {ρ : Type} [Streamed ρ] [LawfulStreamed ρ] {r : ρ}
    (hr : r ∈ t.tool.streamed ρ ctx.scope) :
    Domain.idOf .project (Streamed.key r).connection (Streamed.project r) = ctx.projectId := by
  rw [(scope_of_mem_streamed hr).1, (scope_of_mem_streamed hr).2, projectId]

section DomainRows

variable (hholds : ∀ s : Subtask, ∃ o n, ctx.Holds gives List.Perm url t₀ s t o n)
  (hdomain : t₀.domain = .empty)

include hholds hdomain

theorem project_of_testCase {c : Domain.TestCase} (hc : c ∈ t.domain.testCases.rows) :
    c.projectId = ctx.projectId := by
  obtain ⟨r, hr, hconvert⟩ := List.mem_filterMap.1 ((testCases_perm hdomain hholds).mem_iff.1 hc)
  rw [(Domain.TestCase.ids_of_ofTool? hconvert).2]
  have hid := idOf_of_mem_streamed hr
  exact hid

theorem project_of_testRun {x : Domain.TestRun} (hx : x ∈ t.domain.testRuns.rows) :
    x.projectId = ctx.projectId := by
  obtain ⟨r, hr, hconvert⟩ := List.mem_filterMap.1 ((testRuns_perm hdomain hholds).mem_iff.1 hx)
  rw [(Domain.TestRun.ids_of_ofTool? hconvert).2]
  have hid := idOf_of_mem_streamed hr
  exact hid

theorem project_of_execution {e : Domain.Execution} (he : e ∈ t.domain.executions.rows) :
    e.projectId = ctx.projectId := by
  obtain ⟨r, hr, rfl⟩ := List.mem_map.1 ((executions_perm hdomain hholds).mem_iff.1 he)
  have hid := idOf_of_mem_streamed hr
  exact hid

theorem exists_testRun {run : Tool.Run} (hrun : run ∈ t.tool.streamed Tool.Run ctx.scope)
    (hallowed : ctx.allowsRun run = true) :
    ∃ r ∈ t.domain.testRuns.rows, r.id = Domain.idOf .run ctx.scope.connection run.id := by
  have hconnection : run.connectionId = ctx.scope.connection := (scope_of_mem_streamed hrun).1
  have hconvert : ∃ r, Domain.TestRun.ofTool? ctx.config run = some r ∧
      r.id = Domain.idOf .run run.connectionId run.id :=
    ⟨_, if_pos hallowed, rfl⟩
  obtain ⟨r, hr, hid⟩ := hconvert
  refine ⟨r, (testRuns_perm hdomain hholds).mem_iff.2 (List.mem_filterMap.2 ⟨run, hrun, hr⟩), ?_⟩
  rw [hid, hconnection]

variable (htool : t₀.tool = .empty)

include htool

theorem run_of_execution (hresults : ctx.ResultsNameNoRun t) {e : Domain.Execution}
    (he : e ∈ t.domain.executions.rows) : ∃ r ∈ t.domain.testRuns.rows, e.testRunId = r.id := by
  obtain ⟨x, hx, rfl⟩ := List.mem_map.1 ((executions_perm hdomain hholds).mem_iff.1 he)
  obtain ⟨run, hrun, hallowed, hid⟩ := exists_run hholds htool hresults hx
  obtain ⟨r, hr, hrid⟩ := exists_testRun hholds hdomain hrun hallowed
  have hconnection : x.connectionId = ctx.scope.connection := (scope_of_mem_streamed hx).1
  refine ⟨r, hr, ?_⟩
  rw [hrid, ← hid, ← hconnection]
  rfl

theorem exists_domain_project (hproject : ctx.ProjectIsStaged t)
    (hpositive : 0 < ctx.scope.project) :
    ∃ p ∈ t.domain.projects.rows, p.id = ctx.projectId := by
  obtain ⟨p, hp⟩ := exists_project hholds htool hproject hpositive
  have hid := idOf_of_mem_streamed hp
  exact ⟨_, (projects_perm hdomain hholds).mem_iff.2 (List.mem_filterMap.2 ⟨p, hp, rfl⟩), hid⟩

omit hdomain in
theorem filtered_of_cases (hcases : ctx.CasesNameSuites t) :
    (ConvertStats.of (ctx.outcomes t.tool .case)).filtered = 0 := by
  apply List.countP_eq_zero.2
  intro o ho
  obtain ⟨r, hr, rfl⟩ := List.mem_map.1 ho
  obtain ⟨c, hc, rfl⟩ := List.mem_map.1 hr
  obtain ⟨suite, -, hallowed, hsuite⟩ := exists_suite hholds htool hcases hc
  have hconvert : (Domain.TestCase.ofTool? ctx.config c).isSome = true := by
    have hallows : ctx.config.all (·.allowsSuite (c.suiteId.getD 0)) = true := by
      rw [hsuite]
      exact hallowed
    rw [Domain.TestCase.ofTool?, if_pos hallows]
    rfl
  obtain ⟨d, hd⟩ := Option.isSome_iff_exists.1 hconvert
  rw [Domain.convert, hd]
  exact Bool.false_ne_true

end DomainRows

/-- The project of two suites, where the record of the project names it and a case names its suite.
-/
def linkedProject : Catalogue where
  object _ := [("id", .int 7)]
  records path :=
    if path = "get_cases/7&suite_id=3" then [.obj [("id", .int 11), ("suite_id", .int 3)]]
    else smallProject.records path

def excludingSuite5 : RunContext :=
  { withoutSuite5 with
    options := { withoutSuite5.options with scopeConfig := withoutSuite5.config } }

def linkedRun : RunReport × World Unit :=
  (excludingSuite5.runSelection (linkedProject.service id true) Subtask.all).run
    ⟨.migrated .empty, (), [], 100, false⟩

end RunContext

end QaLake
