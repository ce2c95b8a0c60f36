import QaLake.Proofs.Service.Catalogue
import QaLake.Sync.Collection

namespace QaLake.Catalogue

/-- The path of the records of a kind, for a project and, where they are requested for parents, the
id of a parent. -/
def pathOf (project parent : Int) : EntityKind → String
  | .status => "get_statuses"
  | .priority => "get_priorities"
  | .caseType => "get_case_types"
  | .caseField => "get_case_fields"
  | .user => "get_users"
  | .project => "get_project/" ++ toString project
  | .suite => "get_suites/" ++ toString project
  | .milestone => "get_milestones/" ++ toString project
  | .run => "get_runs/" ++ toString project
  | .plan => "get_plans/" ++ toString project
  | .testSection => "get_sections/" ++ toString project ++ "&suite_id=" ++ toString parent
  | .case => "get_cases/" ++ toString project ++ "&suite_id=" ++ toString parent
  | .result => "get_results_for_run/" ++ toString parent
  | .planEntry => ""

def planPath (id : Json) : String :=
  "get_plan/" ++ Text.percentEncode ((PathTemplate.fieldText? id).getD "")

theorem form?_pathOf {kind : EntityKind} {e : Endpoint} (he : Endpoint.of? kind = some e)
    (project parent : Int) : form? (pathOf project parent kind) = some e.form := by
  cases kind with
  | status =>
    cases he
    change form? "get_statuses" = some (.listUnder "statuses")
    decide +kernel
  | priority =>
    cases he
    change form? "get_priorities" = some (.listUnder "priorities")
    decide +kernel
  | caseType =>
    cases he
    change form? "get_case_types" = some (.listUnder "case_types")
    decide +kernel
  | caseField =>
    cases he
    change form? "get_case_fields" = some (.listUnder "case_fields")
    decide +kernel
  | user =>
    cases he
    change form? "get_users" = some (.listUnder "users")
    decide +kernel
  | project =>
    cases he
    exact form?_prefix "get_project/" _ (by decide +kernel) (by decide +kernel)
  | suite =>
    cases he
    exact form?_prefix "get_suites/" _ (by decide +kernel) (by decide +kernel)
  | milestone =>
    cases he
    exact form?_prefix "get_milestones/" _ (by decide +kernel) (by decide +kernel)
  | run =>
    cases he
    exact form?_prefix "get_runs/" _ (by decide +kernel) (by decide +kernel)
  | result =>
    cases he
    exact form?_prefix "get_results_for_run/" _ (by decide +kernel) (by decide +kernel)
  | testSection =>
    cases he
    change form? ("get_sections/" ++ toString project ++ "&suite_id=" ++ toString parent) = _
    rw [String.append_assoc, String.append_assoc]
    exact form?_prefix "get_sections/" _ (by decide +kernel) (by decide +kernel)
  | case =>
    cases he
    change form? ("get_cases/" ++ toString project ++ "&suite_id=" ++ toString parent) = _
    rw [String.append_assoc, String.append_assoc]
    exact form?_prefix "get_cases/" _ (by decide +kernel) (by decide +kernel)
  | plan | planEntry => cases he

theorem render_endpoint {kind : EntityKind} {e : Endpoint} (he : Endpoint.of? kind = some e)
    (scope : RunScope) {input : Option Json} {parent : Int}
    (hinput : e.parents = none ∨ input = some (RunContext.inputOf (.int parent))) :
    (PathTemplate.mk e.path).render scope input = .ok (pathOf scope.project parent kind) := by
  have hid : PathTemplate.fieldText? (.int parent) = some (toString parent) :=
    congrArg some (Json.text_int parent)
  have hencode := Json.percentEncode_int parent
  cases kind with
  | status =>
    cases he
    exact PathTemplate.render_literal "get_statuses" (by decide +kernel)
  | priority =>
    cases he
    exact PathTemplate.render_literal "get_priorities" (by decide +kernel)
  | caseType =>
    cases he
    exact PathTemplate.render_literal "get_case_types" (by decide +kernel)
  | caseField =>
    cases he
    exact PathTemplate.render_literal "get_case_fields" (by decide +kernel)
  | user =>
    cases he
    exact PathTemplate.render_literal "get_users" (by decide +kernel)
  | project =>
    cases he
    exact PathTemplate.render_project "get_project/" (by decide +kernel)
  | suite =>
    cases he
    exact PathTemplate.render_project "get_suites/" (by decide +kernel)
  | milestone =>
    cases he
    exact PathTemplate.render_project "get_milestones/" (by decide +kernel)
  | run =>
    cases he
    exact PathTemplate.render_project "get_runs/" (by decide +kernel)
  | testSection =>
    cases he
    obtain hnone | hinput := hinput
    · cases hnone
    · change _ = Except.ok ("get_sections/" ++ toString scope.project ++ "&suite_id=" ++
        toString parent)
      rw [← hencode]
      exact PathTemplate.render_project_id "get_sections/" "&suite_id=" hid hinput
        (by decide +kernel)
  | case =>
    cases he
    obtain hnone | hinput := hinput
    · cases hnone
    · change _ = Except.ok ("get_cases/" ++ toString scope.project ++ "&suite_id=" ++
        toString parent)
      rw [← hencode]
      exact PathTemplate.render_project_id "get_cases/" "&suite_id=" hid hinput
        (by decide +kernel)
  | result =>
    cases he
    obtain hnone | hinput := hinput
    · cases hnone
    · change _ = Except.ok ("get_results_for_run/" ++ toString parent)
      rw [← hencode]
      exact PathTemplate.render_id "get_results_for_run/" hid hinput (by decide +kernel)
  | plan | planEntry => cases he

theorem form?_planPath (id : Json) : form? (planPath id) = some .single :=
  form?_prefix "get_plan/" _ (by decide +kernel) (by decide +kernel)

theorem render_listing (scope : RunScope) (input : Option Json) :
    (PathTemplate.mk Endpoint.planListing.path).render scope input =
      .ok (pathOf scope.project 0 .plan) :=
  PathTemplate.render_project "get_plans/" (by decide +kernel)

theorem form?_listing (project : Int) :
    form? (pathOf project 0 .plan) = some Endpoint.planListing.form :=
  form?_prefix "get_plans/" _ (by decide +kernel) (by decide +kernel)

theorem eq_of_render_plan {scope : RunScope} {id : Json} {path : String}
    (h : (PathTemplate.mk Endpoint.singlePlan.path).render scope (some (RunContext.inputOf id)) =
      .ok path) : path = planPath id := by
  have hpieces : PathTemplate.pieces (PathTemplate.mk Endpoint.singlePlan.path).text.toList =
      "get_plan/".toList.map PathTemplate.Piece.char ++ [.placeholder "input.id"] := by
    decide +kernel
  have hinput : some (RunContext.inputOf id) = some (.obj [("id", id)]) := rfl
  rw [planPath]
  cases hid : PathTemplate.fieldText? id with
  | some s =>
    rw [PathTemplate.render_id "get_plan/" hid hinput hpieces] at h
    exact (Except.ok.inj h).symm
  | none =>
    rw [PathTemplate.render_eq_renderPieces, hpieces, PathTemplate.renderPieces_chars] at h
    obtain ⟨e, he⟩ := PathTemplate.renderPieces_no_id hid hinput []
    rw [he] at h
    cases h

end QaLake.Catalogue
