import QaLake.Proofs.Keyed.Overwriting
import QaLake.Store.DomainTables
import QaLake.Store.ToolTables

namespace QaLake

namespace Tool

/-- What a tool row is found under. Entries of plans have texts for ids. -/
structure RowName where
  kind : EntityKind
  connection : Int
  id : Int ⊕ String
  deriving DecidableEq, Repr

def Row.name : Row → RowName
  | .project r => ⟨.project, r.connectionId, .inl r.id⟩
  | .suite r => ⟨.suite, r.connectionId, .inl r.id⟩
  | .testSection r => ⟨.testSection, r.connectionId, .inl r.id⟩
  | .milestone r => ⟨.milestone, r.connectionId, .inl r.id⟩
  | .plan r => ⟨.plan, r.connectionId, .inl r.id⟩
  | .planEntry r => ⟨.planEntry, r.connectionId, .inr r.id⟩
  | .run r => ⟨.run, r.connectionId, .inl r.id⟩
  | .result r => ⟨.result, r.connectionId, .inl r.id⟩
  | .case r => ⟨.case, r.connectionId, .inl r.id⟩
  | .user r => ⟨.user, r.connectionId, .inl r.id⟩
  | .caseField r => ⟨.caseField, r.connectionId, .inl r.id⟩
  | .caseType r => ⟨.caseType, r.connectionId, .inl r.id⟩
  | .priority r => ⟨.priority, r.connectionId, .inl r.id⟩
  | .status r => ⟨.status, r.connectionId, .inl r.id⟩

theorem Row.kind_name (r : Row) : r.name.kind = r.kind := by
  cases r <;> rfl

theorem Row.connection_name (r : Row) : r.name.connection = r.connectionId := by
  cases r <;> rfl

end Tool

theorem RowTable.map_get?_insert {κ α β : Type} [KeyOrder κ] [DecidableEq κ] {key : α → κ}
    [Store.Upserted key] (t : RowTable key) (wrap : α → β) (r : α) (k : κ) :
    ((t.insert r).get? k).map wrap = if k = key r then some (wrap r) else (t.get? k).map wrap := by
  rw [RowTable.get?_insert]
  by_cases h : k = key r
  · rw [if_pos h, if_pos h, Option.map_some]
  · rw [if_neg h, if_neg h]

theorem RowTable.ext_map {κ α β : Type} [KeyOrder κ] [DecidableEq κ] {key : α → κ}
    [Store.Upserted key] {t u : RowTable key} {wrap : α → β}
    (hwrap : ∀ a b, wrap a = wrap b → a = b)
    (h : ∀ k, (t.get? k).map wrap = (u.get? k).map wrap) : t = u := by
  refine RowTable.ext_get? fun k => ?_
  exact Option.map_injective (fun a b => hwrap a b) (h k)

namespace Store

namespace ToolTables

def find? (t : ToolTables) (n : Tool.RowName) : Option Tool.Row :=
  match n.kind, n.id with
  | .project, .inl id => (t.projects.get? ⟨n.connection, id⟩).map .project
  | .suite, .inl id => (t.suites.get? ⟨n.connection, id⟩).map .suite
  | .testSection, .inl id => (t.sections.get? ⟨n.connection, id⟩).map .testSection
  | .milestone, .inl id => (t.milestones.get? ⟨n.connection, id⟩).map .milestone
  | .plan, .inl id => (t.plans.get? ⟨n.connection, id⟩).map .plan
  | .planEntry, .inr id => (t.planEntries.get? ⟨n.connection, id⟩).map .planEntry
  | .run, .inl id => (t.runs.get? ⟨n.connection, id⟩).map .run
  | .result, .inl id => (t.results.get? ⟨n.connection, id⟩).map .result
  | .case, .inl id => (t.cases.get? ⟨n.connection, id⟩).map .case
  | .user, .inl id => (t.users.get? ⟨n.connection, id⟩).map .user
  | .caseField, .inl id => (t.caseFields.get? ⟨n.connection, id⟩).map .caseField
  | .caseType, .inl id => (t.caseTypes.get? ⟨n.connection, id⟩).map .caseType
  | .priority, .inl id => (t.priorities.get? ⟨n.connection, id⟩).map .priority
  | .status, .inl id => (t.statuses.get? ⟨n.connection, id⟩).map .status
  | _, _ => none

theorem find?_insert (t : ToolTables) (r : Tool.Row) (n : Tool.RowName) :
    (t.insert r).find? n = if n = r.name then some r else t.find? n := by
  obtain ⟨kind, connection, id⟩ := n
  by_cases hkind : kind = r.kind
  · subst hkind
    cases r <;> cases id <;>
      simp [find?, insert, Tool.Row.name, Tool.Row.kind, RowTable.map_get?_insert,
        Tool.Project.key, Tool.Suite.key, Tool.Section.key, Tool.Milestone.key, Tool.Plan.key,
        Tool.PlanEntry.key, Tool.Run.key, Tool.Result.key, Tool.Case.key, Tool.User.key,
        Tool.CaseField.key, Tool.CaseType.key, Tool.Priority.key, Tool.Status.key]
  · have hname : (⟨kind, connection, id⟩ : Tool.RowName) ≠ r.name := by
      intro h
      exact hkind ((congrArg Tool.RowName.kind h).trans r.kind_name)
    rw [if_neg hname]
    cases r <;> cases kind <;> cases id <;> first | rfl | exact absurd rfl hkind

theorem find?_empty (n : Tool.RowName) : ToolTables.empty.find? n = none := by
  obtain ⟨kind, connection, id⟩ := n
  cases kind <;> cases id <;> rfl

theorem ext_find? {t u : ToolTables} (h : ∀ n, t.find? n = u.find? n) : t = u := by
  have hid : ∀ kind (k : RowKey Int), t.find? ⟨kind, k.connection, .inl k.id⟩ =
      u.find? ⟨kind, k.connection, .inl k.id⟩ := fun kind k => h _
  have hprojects : t.projects = u.projects :=
    RowTable.ext_map (fun _ _ => Tool.Row.project.inj) (hid .project)
  have hsuites : t.suites = u.suites :=
    RowTable.ext_map (fun _ _ => Tool.Row.suite.inj) (hid .suite)
  have hsections : t.sections = u.sections :=
    RowTable.ext_map (fun _ _ => Tool.Row.testSection.inj) (hid .testSection)
  have hmilestones : t.milestones = u.milestones :=
    RowTable.ext_map (fun _ _ => Tool.Row.milestone.inj) (hid .milestone)
  have hplans : t.plans = u.plans :=
    RowTable.ext_map (fun _ _ => Tool.Row.plan.inj) (hid .plan)
  have hentries : t.planEntries = u.planEntries :=
    RowTable.ext_map (fun _ _ => Tool.Row.planEntry.inj)
      fun k => h ⟨.planEntry, k.connection, .inr k.id⟩
  have hruns : t.runs = u.runs :=
    RowTable.ext_map (fun _ _ => Tool.Row.run.inj) (hid .run)
  have hresults : t.results = u.results :=
    RowTable.ext_map (fun _ _ => Tool.Row.result.inj) (hid .result)
  have hcases : t.cases = u.cases :=
    RowTable.ext_map (fun _ _ => Tool.Row.case.inj) (hid .case)
  have husers : t.users = u.users :=
    RowTable.ext_map (fun _ _ => Tool.Row.user.inj) (hid .user)
  have hfields : t.caseFields = u.caseFields :=
    RowTable.ext_map (fun _ _ => Tool.Row.caseField.inj) (hid .caseField)
  have htypes : t.caseTypes = u.caseTypes :=
    RowTable.ext_map (fun _ _ => Tool.Row.caseType.inj) (hid .caseType)
  have hpriorities : t.priorities = u.priorities :=
    RowTable.ext_map (fun _ _ => Tool.Row.priority.inj) (hid .priority)
  have hstatuses : t.statuses = u.statuses :=
    RowTable.ext_map (fun _ _ => Tool.Row.status.inj) (hid .status)
  cases t
  cases u
  simp_all

theorem overwriting : Overwriting find? insert Tool.Row.name where
  get_put := find?_insert
  ext _ _ := ext_find?

end ToolTables

namespace DomainTables

def find? (t : DomainTables) (n : Domain.Kind × String) : Option Domain.Row :=
  match n.1 with
  | .project => (t.projects.get? n.2).map .project
  | .testCase => (t.testCases.get? n.2).map .testCase
  | .testRun => (t.testRuns.get? n.2).map .testRun
  | .execution => (t.executions.get? n.2).map .execution

theorem find?_insert (t : DomainTables) (r : Domain.Row) (n : Domain.Kind × String) :
    (t.insert r).find? n = if n = (r.kind, r.id) then some r else t.find? n := by
  obtain ⟨kind, id⟩ := n
  cases r <;> cases kind <;>
    simp [find?, insert, Domain.Row.kind, Domain.Row.id, RowTable.map_get?_insert]

theorem find?_empty (n : Domain.Kind × String) : DomainTables.empty.find? n = none := by
  obtain ⟨kind, id⟩ := n
  cases kind <;> rfl

theorem ext_find? {t u : DomainTables} (h : ∀ n, t.find? n = u.find? n) : t = u := by
  have hprojects : t.projects = u.projects :=
    RowTable.ext_map (fun _ _ => Domain.Row.project.inj) fun k => h (.project, k)
  have hcases : t.testCases = u.testCases :=
    RowTable.ext_map (fun _ _ => Domain.Row.testCase.inj) fun k => h (.testCase, k)
  have hruns : t.testRuns = u.testRuns :=
    RowTable.ext_map (fun _ _ => Domain.Row.testRun.inj) fun k => h (.testRun, k)
  have hexecutions : t.executions = u.executions :=
    RowTable.ext_map (fun _ _ => Domain.Row.execution.inj) fun k => h (.execution, k)
  cases t
  cases u
  simp_all

theorem overwriting : Overwriting find? insert fun r => (r.kind, r.id) where
  get_put := find?_insert
  ext _ _ := ext_find?

end DomainTables

end Store

end QaLake
