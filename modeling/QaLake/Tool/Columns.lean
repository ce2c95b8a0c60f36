import QaLake.Json.Document
import QaLake.Store.Upsert
import QaLake.Tool.Row

namespace QaLake.Tool

open Store

def Project.upsert : Upsert Project where
  columns :=
    ["connection_id", "id", "name", "announcement", "show_announcement", "is_completed",
     "completed_on", "suite_mode", "url"]
  values r :=
    [.int r.connectionId, .int r.id, .text r.name, .optText r.announcement,
     .flag r.showAnnouncement, .flag r.isCompleted, .optInt r.completedOn, .int r.suiteMode,
     .text r.url]
  conflict := ["connection_id", "id"]
  updates :=
    ["name", "announcement", "show_announcement", "is_completed", "completed_on", "suite_mode",
     "url"]

def Suite.upsert : Upsert Suite where
  columns :=
    ["connection_id", "id", "project_id", "name", "description", "url", "is_baseline", "is_master",
     "is_completed", "completed_on"]
  values r :=
    [.int r.connectionId, .int r.id, .int r.projectId, .text r.name, .optText r.description,
     .text r.url, .flag r.isBaseline, .flag r.isMaster, .flag r.isCompleted, .optInt r.completedOn]
  conflict := ["connection_id", "id"]
  updates :=
    ["project_id", "name", "description", "url", "is_baseline", "is_master", "is_completed",
     "completed_on"]

def Section.upsert : Upsert Section where
  columns :=
    ["connection_id", "id", "project_id", "suite_id", "parent_id", "name", "description",
     "display_order", "depth"]
  values r :=
    [.int r.connectionId, .int r.id, .int r.projectId, .optInt r.suiteId, .optInt r.parentId,
     .text r.name, .optText r.description, .int r.displayOrder, .int r.depth]
  conflict := ["connection_id", "id"]
  updates :=
    ["project_id", "suite_id", "parent_id", "name", "description", "display_order", "depth"]

def Milestone.upsert : Upsert Milestone where
  columns :=
    ["connection_id", "id", "project_id", "parent_id", "name", "description", "refs", "url",
     "start_on", "started_on", "due_on", "is_started", "is_completed", "completed_on"]
  values r :=
    [.int r.connectionId, .int r.id, .int r.projectId, .optInt r.parentId, .text r.name,
     .optText r.description, .optText r.refs, .text r.url, .optInt r.startOn, .optInt r.startedOn,
     .optInt r.dueOn, .flag r.isStarted, .flag r.isCompleted, .optInt r.completedOn]
  conflict := ["connection_id", "id"]
  updates :=
    ["project_id", "parent_id", "name", "description", "refs", "url", "start_on", "started_on",
     "due_on", "is_started", "is_completed", "completed_on"]

def Plan.upsert : Upsert Plan where
  columns :=
    ["connection_id", "id", "project_id", "name", "description", "milestone_id", "assignedto_id",
     "is_completed", "completed_on", "created_on", "created_by", "url", "passed_count",
     "blocked_count", "untested_count", "retest_count", "failed_count"]
  values r :=
    [.int r.connectionId, .int r.id, .int r.projectId, .text r.name, .optText r.description,
     .optInt r.milestoneId, .optInt r.assignedtoId, .flag r.isCompleted, .optInt r.completedOn,
     .int r.createdOn, .optInt r.createdBy, .text r.url, .int r.counts.passed,
     .int r.counts.blocked, .int r.counts.untested, .int r.counts.retest, .int r.counts.failed]
  conflict := ["connection_id", "id"]
  updates :=
    ["project_id", "name", "description", "milestone_id", "assignedto_id", "is_completed",
     "completed_on", "created_on", "created_by", "url", "passed_count", "blocked_count",
     "untested_count", "retest_count", "failed_count"]

def PlanEntry.upsert : Upsert PlanEntry where
  columns :=
    ["connection_id", "id", "plan_id", "project_id", "suite_id", "name", "description",
     "assignedto_id", "include_all", "passed_count", "blocked_count", "untested_count",
     "retest_count", "failed_count"]
  values r :=
    [.int r.connectionId, .text r.id, .int r.planId, .int r.projectId, .optInt r.suiteId,
     .text r.name, .optText r.description, .optInt r.assignedtoId, .flag r.includeAll,
     .int r.counts.passed, .int r.counts.blocked, .int r.counts.untested, .int r.counts.retest,
     .int r.counts.failed]
  conflict := ["connection_id", "id"]
  updates :=
    ["plan_id", "project_id", "suite_id", "name", "description", "assignedto_id", "include_all",
     "passed_count", "blocked_count", "untested_count", "retest_count", "failed_count"]

def Run.upsert : Upsert Run where
  columns :=
    ["connection_id", "id", "project_id", "suite_id", "name", "description", "milestone_id",
     "plan_id", "assignedto_id", "is_completed", "completed_on", "passed_count", "blocked_count",
     "untested_count", "retest_count", "failed_count", "created_on", "created_by", "url"]
  values r :=
    [.int r.connectionId, .int r.id, .int r.projectId, .optInt r.suiteId, .text r.name,
     .optText r.description, .optInt r.milestoneId, .optInt r.planId, .optInt r.assignedtoId,
     .flag r.isCompleted, .optInt r.completedOn, .int r.counts.passed, .int r.counts.blocked,
     .int r.counts.untested, .int r.counts.retest, .int r.counts.failed, .int r.createdOn,
     .optInt r.createdBy, .text r.url]
  conflict := ["connection_id", "id"]
  updates :=
    ["project_id", "suite_id", "name", "description", "milestone_id", "plan_id", "assignedto_id",
     "is_completed", "completed_on", "passed_count", "blocked_count", "untested_count",
     "retest_count", "failed_count", "created_on", "created_by", "url"]

def Result.upsert : Upsert Result where
  columns :=
    ["connection_id", "id", "project_id", "run_id", "case_id", "test_id", "status_id", "created_by",
     "created_on", "elapsed", "comment", "version", "defects"]
  values r :=
    [.int r.connectionId, .int r.id, .int r.projectId, .int r.runId, .optInt r.caseId,
     .optInt r.testId, .optInt r.statusId, .optInt r.createdBy, .int r.createdOn,
     .optText r.elapsed, .optText r.comment, .optText r.version, .optText r.defects]
  conflict := ["connection_id", "id"]
  updates :=
    ["project_id", "run_id", "case_id", "test_id", "status_id", "created_by", "created_on",
     "elapsed", "comment", "version", "defects"]

def Case.upsert : Upsert Case where
  columns :=
    ["connection_id", "id", "project_id", "suite_id", "section_id", "title", "type_id",
     "priority_id", "template_id", "milestone_id", "refs", "estimate", "estimate_forecast",
     "created_by", "created_on", "updated_by", "updated_on", "custom_fields"]
  values r :=
    [.int r.connectionId, .int r.id, .int r.projectId, .optInt r.suiteId, .optInt r.sectionId,
     .text r.title, .optInt r.typeId, .optInt r.priorityId, .optInt r.templateId,
     .optInt r.milestoneId, .optText r.refs, .optText r.estimate, .optText r.estimateForecast,
     .optInt r.createdBy, .int r.createdOn, .optInt r.updatedBy, .int r.updatedOn,
     .json (.obj r.customFields) .null]
  conflict := ["connection_id", "id"]
  updates :=
    ["project_id", "suite_id", "section_id", "title", "type_id", "priority_id", "template_id",
     "milestone_id", "refs", "estimate", "estimate_forecast", "created_by", "created_on",
     "updated_by", "updated_on", "custom_fields"]

def User.upsert : Upsert User where
  columns := ["connection_id", "id", "name", "email", "is_active", "role_id", "role"]
  values r :=
    [.int r.connectionId, .int r.id, .text r.name, .text r.email, .flag r.isActive,
     .optInt r.roleId, .optText r.role]
  conflict := ["connection_id", "id"]
  updates := ["name", "email", "is_active", "role_id", "role"]

def CaseField.upsert : Upsert CaseField where
  columns :=
    ["connection_id", "id", "system_name", "label", "name", "description", "type_id", "is_global",
     "is_active", "display_order", "include_all", "template_ids", "configs"]
  values r :=
    [.int r.connectionId, .int r.id, .text r.systemName, .text r.label, .text r.name,
     .optText r.description, .int r.typeId, .flag r.isGlobal, .flag r.isActive, .int r.displayOrder,
     .flag r.includeAll, .json (.arr (r.templateIds.map .int)) .null, .json r.configs (.arr [])]
  conflict := ["connection_id", "id"]
  updates :=
    ["system_name", "label", "name", "description", "type_id", "is_global", "is_active",
     "display_order", "include_all", "template_ids", "configs"]

def CaseType.upsert : Upsert CaseType where
  columns := ["connection_id", "id", "name", "is_default"]
  values r := [.int r.connectionId, .int r.id, .text r.name, .flag r.isDefault]
  conflict := ["connection_id", "id"]
  updates := ["name", "is_default"]

def Priority.upsert : Upsert Priority where
  columns := ["connection_id", "id", "name", "short_name", "priority", "is_default"]
  values r :=
    [.int r.connectionId, .int r.id, .text r.name, .text r.shortName, .int r.priority,
     .flag r.isDefault]
  conflict := ["connection_id", "id"]
  updates := ["name", "short_name", "priority", "is_default"]

def Status.upsert : Upsert Status where
  columns :=
    ["connection_id", "id", "name", "label", "color_dark", "color_medium", "color_bright",
     "is_final", "is_system", "is_untested"]
  values r :=
    [.int r.connectionId, .int r.id, .text r.name, .text r.label, .int r.colorDark,
     .int r.colorMedium, .int r.colorBright, .flag r.isFinal, .flag r.isSystem, .flag r.isUntested]
  conflict := ["connection_id", "id"]
  updates :=
    ["name", "label", "color_dark", "color_medium", "color_bright", "is_final", "is_system",
     "is_untested"]

namespace Row

def columns : Row → Columns
  | project r => Project.upsert.offer r
  | suite r => Suite.upsert.offer r
  | testSection r => Section.upsert.offer r
  | milestone r => Milestone.upsert.offer r
  | plan r => Plan.upsert.offer r
  | planEntry r => PlanEntry.upsert.offer r
  | run r => Run.upsert.offer r
  | result r => Result.upsert.offer r
  | case r => Case.upsert.offer r
  | user r => User.upsert.offer r
  | caseField r => CaseField.upsert.offer r
  | caseType r => CaseType.upsert.offer r
  | priority r => Priority.upsert.offer r
  | status r => Status.upsert.offer r

def cells (r : Row) : Cells :=
  Store.cells r.columns

def counts? : Row → Option Counts
  | plan r => some r.counts
  | planEntry r => some r.counts
  | run r => some r.counts
  | _ => none

end Row

def Counts.ofCells? (c : Cells) : Option Counts := do
  return {
    passed := ← c.get? "passed_count", blocked := ← c.get? "blocked_count",
    untested := ← c.get? "untested_count", retest := ← c.get? "retest_count",
    failed := ← c.get? "failed_count" }

def PlanEntry.ofCells? (c : Cells) : Option PlanEntry := do
  return {
    connectionId := ← c.get? "connection_id", id := ← c.get? "id", planId := ← c.get? "plan_id",
    projectId := ← c.get? "project_id", suiteId := ← c.get? "suite_id", name := ← c.get? "name",
    description := ← c.get? "description", assignedtoId := ← c.get? "assignedto_id",
    includeAll := ← c.get? "include_all", counts := ← Counts.ofCells? c }

def Project.ofCells? (c : Cells) : Option Project := do
  return {
    connectionId := ← c.get? "connection_id", id := ← c.get? "id", name := ← c.get? "name",
    announcement := ← c.get? "announcement", showAnnouncement := ← c.get? "show_announcement",
    isCompleted := ← c.get? "is_completed", completedOn := ← c.get? "completed_on",
    suiteMode := ← c.get? "suite_mode", url := (← c.get? "url" : Option String).getD "" }

def Suite.ofCells? (c : Cells) : Option Suite := do
  return {
    connectionId := ← c.get? "connection_id", id := ← c.get? "id",
    projectId := ← c.get? "project_id", name := ← c.get? "name",
    description := ← c.get? "description", url := (← c.get? "url" : Option String).getD "",
    isBaseline := ← c.get? "is_baseline", isMaster := ← c.get? "is_master",
    isCompleted := ← c.get? "is_completed", completedOn := ← c.get? "completed_on" }

def Run.ofCells? (c : Cells) : Option Run := do
  return {
    connectionId := ← c.get? "connection_id", id := ← c.get? "id",
    projectId := ← c.get? "project_id", suiteId := ← c.get? "suite_id", name := ← c.get? "name",
    description := ← c.get? "description", milestoneId := ← c.get? "milestone_id",
    planId := ← c.get? "plan_id", assignedtoId := ← c.get? "assignedto_id",
    isCompleted := ← c.get? "is_completed", completedOn := ← c.get? "completed_on",
    counts := ← Counts.ofCells? c, createdOn := ← c.get? "created_on",
    createdBy := ← c.get? "created_by", url := (← c.get? "url" : Option String).getD "" }

def Result.ofCells? (c : Cells) : Option Result := do
  return {
    connectionId := ← c.get? "connection_id", id := ← c.get? "id",
    projectId := ← c.get? "project_id", runId := ← c.get? "run_id", caseId := ← c.get? "case_id",
    testId := ← c.get? "test_id", statusId := ← c.get? "status_id",
    createdBy := ← c.get? "created_by", createdOn := ← c.get? "created_on",
    elapsed := ← c.get? "elapsed", comment := ← c.get? "comment", version := ← c.get? "version",
    defects := ← c.get? "defects" }

def fieldsOf (text : String) : List (String × Json) :=
  match Json.parse? text with
  | some (.obj members) => members
  | _ => []

def Case.ofCells? (c : Cells) : Option Case := do
  let text : String ← c.get? "custom_fields"
  return {
    connectionId := ← c.get? "connection_id", id := ← c.get? "id",
    projectId := ← c.get? "project_id", suiteId := ← c.get? "suite_id",
    sectionId := ← c.get? "section_id", title := ← c.get? "title", typeId := ← c.get? "type_id",
    priorityId := ← c.get? "priority_id", templateId := ← c.get? "template_id",
    milestoneId := ← c.get? "milestone_id", refs := ← c.get? "refs",
    estimate := ← c.get? "estimate", estimateForecast := ← c.get? "estimate_forecast",
    createdBy := ← c.get? "created_by", createdOn := ← c.get? "created_on",
    updatedBy := ← c.get? "updated_by", updatedOn := ← c.get? "updated_on",
    customFields := fieldsOf text }

end QaLake.Tool
