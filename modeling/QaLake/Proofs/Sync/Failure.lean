import QaLake.Proofs.Sync.Collection
import QaLake.Proofs.Sync.Course
import QaLake.Service.Scripted

namespace QaLake

open Store

variable {σ : Type}

/-- How the walk for an input fails in a world, behind the pages of some visits: a request is
refused or its answer has not the right form, or else the run is cancelled or the input gives no
path, and there is no request. -/
inductive Collector.Fails (c : Collector) (service : Service σ) (input : Option Json)
    (w : World σ) (walked : List Visit) (e : Error) : List Request → Prop
  | refused {path : String} {request : Request} (hpath : c.path.render c.scope input = .ok path)
      (hcourse : c.Course service input path w 0 walked (.refused request e))
      (hread : c.pageIn service (w.asked service (walked.map Visit.request)) request = .error e) :
      Collector.Fails c service input w walked e [request]
  | cancelled {path : String} (hpath : c.path.render c.scope input = .ok path)
      (hcourse : c.Course service input path w 0 walked (.stopped e)) (he : e = .cancelled)
      (hcancelled : (w.asked service (walked.map Visit.request)).cancelled = true) :
      Collector.Fails c service input w walked e []
  | pathless (hpath : c.path.render c.scope input = .error e) (hwalked : walked = []) :
      Collector.Fails c service input w walked e []

/-- Courses that are not through fail in the walk for one of the inputs, behind the courses for all
those before it. -/
theorem Collector.Courses.exists_fails {c : Collector} {service : Service σ} {w : World σ}
    {inputs : List (Option Json)} {visits : List Visit} {ending : Ending} {α : Type} {x : α}
    {e : Error} (h : c.Courses service w inputs visits ending)
    (houtcome : ending.outcome x = .error e) :
    ∃ before input after done walked, inputs = before ++ input :: after ∧
      visits = done ++ walked ∧ c.Courses service w before done .through ∧
      c.Fails service input (w.asked service (done.map Visit.request)) walked e
        ending.requests := by
  have hending : ending ≠ .through := by
    rintro rfl
    cases houtcome
  obtain ⟨before, input, after, done, walked, hinputs, hvisits, hdone, hbroken⟩ :=
    h.exists_broken hending
  refine ⟨before, input, after, done, walked, hinputs, hvisits, hdone, ?_⟩
  obtain ⟨e', hpath, hwalked, rfl⟩ | ⟨path, hpath, hcourse⟩ := hbroken
  · cases houtcome
    exact .pathless hpath hwalked
  · cases ending with
    | through => exact absurd rfl hending
    | refused request e' =>
      cases houtcome
      exact .refused hpath hcourse hcourse.ends_refused
    | stopped e' =>
      cases houtcome
      obtain ⟨he, hcancelled⟩ := hcourse.ends_stopped
      exact .cancelled hpath hcourse he hcancelled

/-- A collection that fails makes no further request and leaves the pages of the walks before the
failure and those that came before it in its own walk, and nothing else is changed but that what was
staged is gone. A collection of plans that fails while they are listed changes nothing. -/
theorem failure_leaves (service : Service σ) :
    (∀ (c : Collector) (t : Tables) (w w' : World σ) (e : Error), w.database = .migrated t →
      (c.execute service).runIn w = (.error e, w') →
      ∃ before input after done walked last,
        c.walkInputs = before ++ input :: after ∧
        c.Courses service w before done .through ∧
        c.Fails service input (w.asked service (done.map Visit.request)) walked e last ∧
        w'.calls = w.calls ++ (done ++ walked).map Visit.request ++ last ∧
        ∃ t', w'.database = .migrated t' ∧ { t' with staging := t.staging } = t ∧
          t'.staging.contents c.table c.scope.tag =
            (done ++ walked).flatMap (Visit.entries (Collector.stagedUrl service)) ∧
          (∀ r ∈ t'.staging.rowsOf c.table c.scope.tag, r ∉ t.staging.rows) ∧
          (t'.staging.rows.filter fun r => !Staging.belongs c.table c.scope.tag r) =
            t.staging.rows.filter fun r => !Staging.belongs c.table c.scope.tag r) ∧
    ∀ (ctx : RunContext) (table : String) (w w' : World σ) (e : Error),
      ((ctx.listingCollector table).fetchAll service).runIn w = (.error e, w') →
      (ctx.collectPlans service table).runIn w = (.error e, w') ∧ w'.database = w.database := by
  refine ⟨fun c t w w' e hw h => ?_, fun ctx table w w' e h => ⟨?_, ?_⟩⟩
  · obtain ⟨visits, ending, hcourses⟩ := c.exists_courses service w c.walkInputs
    rw [c.runIn_execute hw hcourses] at h
    obtain ⟨houtcome, rfl⟩ := Prod.mk.inj h
    obtain ⟨before, input, after, done, walked, hinputs, rfl, hdone, hfails⟩ :=
      hcourses.exists_fails houtcome
    have happends := (t.staging.delete c.table c.scope.tag).appends_stageVisits c.table c.scope.tag
      (Collector.stagedUrl service) (done ++ walked)
    obtain ⟨hcontents, hnew⟩ := happends.contents_of_delete
    refine ⟨before, input, after, done, walked, ending.requests, hinputs, hdone, hfails, ?_, _, rfl,
      rfl, hcontents, hnew, ?_⟩
    · exact (w.calls_asked service _).trans (List.append_assoc _ _ _).symm
    · rw [Tables.collected, happends.others, Staging.delete, List.filter_filter]
      simp only [Bool.and_self]
  · rw [RunContext.collectPlans]
    exact Action.runIn_bind_of_error h
  · obtain ⟨visits, ending, hcourses⟩ := (ctx.listingCollector table).exists_courses service w _
    rw [Collector.runIn_fetchAll _ hcourses] at h
    obtain ⟨-, rfl⟩ := Prod.mk.inj h
    rfl

def casesOfSuites : Collector where
  table := "testrail_cases"
  scope := ⟨1, 7⟩
  path := ⟨"get_cases/\x7bprojectId\x7d&suite_id=\x7binput.id\x7d"⟩
  pageSize := some 2
  query := []
  inputs := some [.obj [("id", .num (.int 5))], .obj [("id", .num (.int 3))]]
  form := .listUnder "cases"

/-- The second page of the second suite is no list, and plans cannot be listed. -/
def brokenPages : Script where
  routes := [("get_cases/7&suite_id=5", .records [.str "a", .str "b", .str "c"] none),
    ("get_cases/7&suite_id=3", .sequence [.body (.arr [.str "d", .str "e"]), .body (.str "f")]),
    ("get_plans/7", .http 503 "down")]
  cancelAt := none

def stagedBefore : World ScriptState where
  database := .migrated { Tables.empty with
    staging := (Staging.empty.insertPage "testrail_cases" (RunScope.tag ⟨1, 7⟩) "" none
      [.str "x", .str "y"]).insertPage "testrail_runs" (RunScope.tag ⟨1, 7⟩) "" none [.str "z"] }
  remote := ⟨[]⟩
  calls := []
  budget := 10
  cancelled := false

def projectSeven : RunContext where
  options := { connection := 1, project := 7 }
  settings := { pageSize := 2 }
  config := none

theorem failure_leaves_brokenPages :
    (∃ e w' t', ∃ done walked : List Visit,
      (casesOfSuites.execute (brokenPages.service id)).runIn stagedBefore = (.error e, w') ∧
      w'.database = .migrated t' ∧
      t'.staging.contents "testrail_cases" (RunScope.tag ⟨1, 7⟩) =
        (done ++ walked).flatMap (Visit.entries (Collector.stagedUrl (brokenPages.service id)))) ∧
    ∃ e w', (projectSeven.collectPlans (brokenPages.service id) "testrail_plans").runIn
        stagedBefore = (.error e, w') ∧ w'.database = stagedBefore.database := by
  obtain ⟨hcases, hplans⟩ := failure_leaves (brokenPages.service id)
  have hbroken : ((casesOfSuites.execute (brokenPages.service id)).runIn
      stagedBefore).1.toOption.isNone = true := by decide +kernel
  have hlisting : (((projectSeven.listingCollector "testrail_plans").fetchAll
      (brokenPages.service id)).runIn stagedBefore).1.toOption.isNone = true := by
    decide +kernel
  obtain ⟨e, w', hrun⟩ := Action.runIn_of_isNone hbroken
  obtain ⟨e', v, hlist⟩ := Action.runIn_of_isNone hlisting
  obtain ⟨-, -, -, done, walked, -, -, -, -, -, t', hdb, -, hcontents, -⟩ :=
    hcases casesOfSuites _ _ w' e rfl hrun
  exact ⟨⟨e, w', t', done, walked, hrun, hdb, hcontents⟩,
    e', v, hplans projectSeven "testrail_plans" stagedBefore v e' hlist⟩

/-- What is left are the cases that came, in their order, and the run. -/
example :
    (((casesOfSuites.execute (brokenPages.service id)).runIn
      stagedBefore).2.database.tables.toOption.map fun t => t.staging.rows.map StagedRow.data) =
        some [.text "\"z\"", .text "\"a\"", .text "\"b\"", .text "\"c\"", .text "\"d\"",
          .text "\"e\""] := by
  decide +kernel

end QaLake
