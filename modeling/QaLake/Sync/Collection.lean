import QaLake.Sync.Collector
import QaLake.Sync.Context

namespace QaLake

/-- What the requests of an endpoint are made for. -/
inductive Parents
  | suites
  | runs
  deriving DecidableEq, Repr

/-- An endpoint: its path, the form of its answers, whether they come in pages, whether they can be
limited to what was created after an instant, and what they are requested for one by one. -/
structure Endpoint where
  path : String
  form : ResponseForm
  paged : Bool := false
  byCreation : Bool := false
  parents : Option Parents := none
  deriving DecidableEq, Repr

namespace Endpoint

/-- The endpoint of a kind. Plans take two endpoints, and entries of plans have none. -/
def of? : EntityKind → Option Endpoint
  | .status => some { path := "get_statuses", form := .listUnder "statuses" }
  | .priority => some { path := "get_priorities", form := .listUnder "priorities" }
  | .caseType => some { path := "get_case_types", form := .listUnder "case_types" }
  | .caseField => some { path := "get_case_fields", form := .listUnder "case_fields" }
  | .user => some { path := "get_users", form := .listUnder "users" }
  | .suite => some { path := "get_suites/\x7bprojectId\x7d", form := .listUnder "suites" }
  | .project => some { path := "get_project/\x7bprojectId\x7d", form := .single }
  | .milestone => some {
      path := "get_milestones/\x7bprojectId\x7d", form := .listUnder "milestones", paged := true }
  | .run => some {
      path := "get_runs/\x7bprojectId\x7d", form := .listUnder "runs", paged := true,
      byCreation := true }
  | .testSection => some {
      path := "get_sections/\x7bprojectId\x7d&suite_id=\x7binput.id\x7d",
      form := .listUnder "sections", paged := true, parents := some .suites }
  | .case => some {
      path := "get_cases/\x7bprojectId\x7d&suite_id=\x7binput.id\x7d",
      form := .listUnder "cases", paged := true, byCreation := true, parents := some .suites }
  | .result => some {
      path := "get_results_for_run/\x7binput.id\x7d", form := .listUnder "results", paged := true,
      parents := some .runs }
  | .plan => none
  | .planEntry => none

def planListing : Endpoint where
  path := "get_plans/\x7bprojectId\x7d"
  form := .listUnder "plans"
  paged := true

def singlePlan : Endpoint where
  path := "get_plan/\x7binput.id\x7d"
  form := .single

def collector (e : Endpoint) (ctx : RunContext) (table : String) (inputs : Option (List Json)) :
    Collector where
  table := table
  scope := ctx.scope
  path := ⟨e.path⟩
  pageSize := if e.paged then some ctx.pageSize else none
  query :=
    match ctx.options.createdAfter with
    | some t => if e.byCreation then [("created_after", toString t.seconds)] else []
    | none => []
  inputs := inputs
  form := e.form
  concurrency := ctx.settings.concurrency

end Endpoint

namespace RunContext

variable {σ : Type} (ctx : RunContext)

def inputOf (id : Json) : Json :=
  .obj [("id", id)]

def inputsOf : Parents → Action σ (List Json)
  | .suites => do
    let cursor := Store.Cursor.start (Store.toolSource Tool.Suite ctx.scope) ctx.settings.batchSize
    let suites ← Action.query cursor.toList
    return (suites.filter ctx.allowsSuite).map fun s => inputOf (.int s.id)
  | .runs => do
    let cursor := Store.Cursor.start (Store.toolSource Tool.Run ctx.scope) ctx.settings.batchSize
    let runs ← Action.query cursor.toList
    return (runs.filter ctx.allowsRun).map fun r => inputOf (.int r.id)

def collectEndpoint (client : Client σ) (table : String) (e : Endpoint) :
    Action σ CollectStats := do
  let inputs ← match e.parents with
    | none => pure none
    | some parents => some <$> ctx.inputsOf parents
  (e.collector ctx table inputs).execute client

/-- Collects the plans that the listing names. A plan without an id is passed over. -/
def collectPlans (client : Client σ) (table : String) : Action σ CollectStats := do
  let listed ← (Endpoint.planListing.collector ctx table none).fetchAll client
  let inputs := listed.filterMap fun plan => (plan.get? "id").map inputOf
  (Endpoint.singlePlan.collector ctx table (some inputs)).execute client

/-- Sections and cases are collected suite by suite, and results run by run, over those that the
configuration lets take part. The listing of plans leaves out their entries, so plans are listed
first and then fetched one by one. -/
def collect (client : Client σ) (kind : EntityKind) : Action σ CollectStats :=
  match kind.stagingName with
  | none => return ⟨0, 0⟩
  | some table =>
    match Endpoint.of? kind with
    | some e => ctx.collectEndpoint client table e
    | none => ctx.collectPlans client table

end RunContext

end QaLake
