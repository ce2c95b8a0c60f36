import QaLake.Json.Decode
import QaLake.Tool.Row

namespace QaLake.Tool

open Json

def payloadField {σ α : Type} (name : String) (dec : Decoder α) (put : α → σ → σ) :
    RecordField σ :=
  .of name dec put .default

def countsShape : Shape Counts where
  name := "StatusCounts"
  blank := {}
  fields := [
    payloadField "passed_count" Decoder.int64 (fun v r => { r with passed := v }),
    payloadField "blocked_count" Decoder.int64 (fun v r => { r with blocked := v }),
    payloadField "untested_count" Decoder.int64 (fun v r => { r with untested := v }),
    payloadField "retest_count" Decoder.int64 (fun v r => { r with retest := v }),
    payloadField "failed_count" Decoder.int64 (fun v r => { r with failed := v })]

def projectShape : Shape Project where
  name := "TestrailProject"
  blank := {}
  fields := [
    payloadField "id" Decoder.int64 (fun v r => { r with id := v }),
    payloadField "name" Decoder.string (fun v r => { r with name := v }),
    payloadField "announcement" (Decoder.optional Decoder.string)
      (fun v r => { r with announcement := v }),
    payloadField "show_announcement" Decoder.boolean (fun v r => { r with showAnnouncement := v }),
    payloadField "is_completed" Decoder.boolean (fun v r => { r with isCompleted := v }),
    payloadField "completed_on" (Decoder.optional Decoder.int64)
      (fun v r => { r with completedOn := v }),
    payloadField "suite_mode" Decoder.int64 (fun v r => { r with suiteMode := v }),
    payloadField "url" Decoder.string (fun v r => { r with url := v })]

def suiteShape : Shape Suite where
  name := "TestrailSuite"
  blank := {}
  fields := [
    payloadField "id" Decoder.int64 (fun v r => { r with id := v }),
    payloadField "project_id" Decoder.int64 (fun v r => { r with projectId := v }),
    payloadField "name" Decoder.string (fun v r => { r with name := v }),
    payloadField "description" (Decoder.optional Decoder.string)
      (fun v r => { r with description := v }),
    payloadField "url" Decoder.string (fun v r => { r with url := v }),
    payloadField "is_baseline" Decoder.boolean (fun v r => { r with isBaseline := v }),
    payloadField "is_master" Decoder.boolean (fun v r => { r with isMaster := v }),
    payloadField "is_completed" Decoder.boolean (fun v r => { r with isCompleted := v }),
    payloadField "completed_on" (Decoder.optional Decoder.int64)
      (fun v r => { r with completedOn := v })]

def sectionShape : Shape Section where
  name := "TestrailSection"
  blank := {}
  fields := [
    payloadField "id" Decoder.int64 (fun v r => { r with id := v }),
    payloadField "suite_id" (Decoder.optional Decoder.int64) (fun v r => { r with suiteId := v }),
    payloadField "parent_id" (Decoder.optional Decoder.int64) (fun v r => { r with parentId := v }),
    payloadField "name" Decoder.string (fun v r => { r with name := v }),
    payloadField "description" (Decoder.optional Decoder.string)
      (fun v r => { r with description := v }),
    payloadField "display_order" Decoder.int64 (fun v r => { r with displayOrder := v }),
    payloadField "depth" Decoder.int64 (fun v r => { r with depth := v })]

def milestoneShape : Shape Milestone where
  name := "TestrailMilestone"
  blank := {}
  fields := [
    payloadField "id" Decoder.int64 (fun v r => { r with id := v }),
    payloadField "project_id" Decoder.int64 (fun v r => { r with projectId := v }),
    payloadField "parent_id" (Decoder.optional Decoder.int64) (fun v r => { r with parentId := v }),
    payloadField "name" Decoder.string (fun v r => { r with name := v }),
    payloadField "description" (Decoder.optional Decoder.string)
      (fun v r => { r with description := v }),
    payloadField "refs" (Decoder.optional Decoder.string) (fun v r => { r with refs := v }),
    payloadField "url" Decoder.string (fun v r => { r with url := v }),
    payloadField "start_on" (Decoder.optional Decoder.int64) (fun v r => { r with startOn := v }),
    payloadField "started_on" (Decoder.optional Decoder.int64)
      (fun v r => { r with startedOn := v }),
    payloadField "due_on" (Decoder.optional Decoder.int64) (fun v r => { r with dueOn := v }),
    payloadField "is_started" Decoder.boolean (fun v r => { r with isStarted := v }),
    payloadField "is_completed" Decoder.boolean (fun v r => { r with isCompleted := v }),
    payloadField "completed_on" (Decoder.optional Decoder.int64)
      (fun v r => { r with completedOn := v })]

def planShape : Shape Plan where
  name := "TestrailPlan"
  blank := {}
  fields := [
    payloadField "id" Decoder.int64 (fun v r => { r with id := v }),
    payloadField "project_id" Decoder.int64 (fun v r => { r with projectId := v }),
    payloadField "name" Decoder.string (fun v r => { r with name := v }),
    payloadField "description" (Decoder.optional Decoder.string)
      (fun v r => { r with description := v }),
    payloadField "milestone_id" (Decoder.optional Decoder.int64)
      (fun v r => { r with milestoneId := v }),
    payloadField "assignedto_id" (Decoder.optional Decoder.int64)
      (fun v r => { r with assignedtoId := v }),
    payloadField "is_completed" Decoder.boolean (fun v r => { r with isCompleted := v }),
    payloadField "completed_on" (Decoder.optional Decoder.int64)
      (fun v r => { r with completedOn := v }),
    payloadField "created_on" Decoder.int64 (fun v r => { r with createdOn := v }),
    payloadField "created_by" (Decoder.optional Decoder.int64)
      (fun v r => { r with createdBy := v }),
    payloadField "url" Decoder.string (fun v r => { r with url := v })]

def runShape : Shape Run where
  name := "TestrailRun"
  blank := {}
  fields := [
    payloadField "id" Decoder.int64 (fun v r => { r with id := v }),
    payloadField "project_id" Decoder.int64 (fun v r => { r with projectId := v }),
    payloadField "suite_id" (Decoder.optional Decoder.int64) (fun v r => { r with suiteId := v }),
    payloadField "name" Decoder.string (fun v r => { r with name := v }),
    payloadField "description" (Decoder.optional Decoder.string)
      (fun v r => { r with description := v }),
    payloadField "milestone_id" (Decoder.optional Decoder.int64)
      (fun v r => { r with milestoneId := v }),
    payloadField "plan_id" (Decoder.optional Decoder.int64) (fun v r => { r with planId := v }),
    payloadField "assignedto_id" (Decoder.optional Decoder.int64)
      (fun v r => { r with assignedtoId := v }),
    payloadField "is_completed" Decoder.boolean (fun v r => { r with isCompleted := v }),
    payloadField "completed_on" (Decoder.optional Decoder.int64)
      (fun v r => { r with completedOn := v }),
    payloadField "created_on" Decoder.int64 (fun v r => { r with createdOn := v }),
    payloadField "created_by" (Decoder.optional Decoder.int64)
      (fun v r => { r with createdBy := v }),
    payloadField "url" Decoder.string (fun v r => { r with url := v })]

def resultShape : Shape Result where
  name := "TestrailResult"
  blank := {}
  fields := [
    payloadField "id" Decoder.int64 (fun v r => { r with id := v }),
    payloadField "run_id" Decoder.int64 (fun v r => { r with runId := v }),
    payloadField "case_id" (Decoder.optional Decoder.int64) (fun v r => { r with caseId := v }),
    payloadField "test_id" (Decoder.optional Decoder.int64) (fun v r => { r with testId := v }),
    payloadField "status_id" (Decoder.optional Decoder.int64) (fun v r => { r with statusId := v }),
    payloadField "created_by" (Decoder.optional Decoder.int64)
      (fun v r => { r with createdBy := v }),
    payloadField "created_on" Decoder.int64 (fun v r => { r with createdOn := v }),
    payloadField "elapsed" (Decoder.optional Decoder.string) (fun v r => { r with elapsed := v }),
    payloadField "comment" (Decoder.optional Decoder.string) (fun v r => { r with comment := v }),
    payloadField "version" (Decoder.optional Decoder.string) (fun v r => { r with version := v }),
    payloadField "defects" (Decoder.optional Decoder.string) (fun v r => { r with defects := v })]

def caseShape : Shape Case where
  name := "TestrailCase"
  blank := {}
  fields := [
    payloadField "id" Decoder.int64 (fun v r => { r with id := v }),
    payloadField "suite_id" (Decoder.optional Decoder.int64) (fun v r => { r with suiteId := v }),
    payloadField "section_id" (Decoder.optional Decoder.int64)
      (fun v r => { r with sectionId := v }),
    payloadField "title" Decoder.string (fun v r => { r with title := v }),
    payloadField "type_id" (Decoder.optional Decoder.int64) (fun v r => { r with typeId := v }),
    payloadField "priority_id" (Decoder.optional Decoder.int64)
      (fun v r => { r with priorityId := v }),
    payloadField "template_id" (Decoder.optional Decoder.int64)
      (fun v r => { r with templateId := v }),
    payloadField "milestone_id" (Decoder.optional Decoder.int64)
      (fun v r => { r with milestoneId := v }),
    payloadField "refs" (Decoder.optional Decoder.string) (fun v r => { r with refs := v }),
    payloadField "estimate" (Decoder.optional Decoder.string) (fun v r => { r with estimate := v }),
    payloadField "estimate_forecast" (Decoder.optional Decoder.string)
      (fun v r => { r with estimateForecast := v }),
    payloadField "created_by" (Decoder.optional Decoder.int64)
      (fun v r => { r with createdBy := v }),
    payloadField "created_on" Decoder.int64 (fun v r => { r with createdOn := v }),
    payloadField "updated_by" (Decoder.optional Decoder.int64)
      (fun v r => { r with updatedBy := v }),
    payloadField "updated_on" Decoder.int64 (fun v r => { r with updatedOn := v })]

def userShape : Shape User where
  name := "TestrailUser"
  blank := {}
  fields := [
    payloadField "id" Decoder.int64 (fun v r => { r with id := v }),
    payloadField "name" Decoder.string (fun v r => { r with name := v }),
    payloadField "email" Decoder.string (fun v r => { r with email := v }),
    payloadField "is_active" Decoder.boolean (fun v r => { r with isActive := v }),
    payloadField "role_id" (Decoder.optional Decoder.int64) (fun v r => { r with roleId := v }),
    payloadField "role" (Decoder.optional Decoder.string) (fun v r => { r with role := v })]

def caseFieldShape : Shape CaseField where
  name := "TestrailCaseField"
  blank := {}
  fields := [
    payloadField "id" Decoder.int64 (fun v r => { r with id := v }),
    payloadField "system_name" Decoder.string (fun v r => { r with systemName := v }),
    payloadField "label" Decoder.string (fun v r => { r with label := v }),
    payloadField "name" Decoder.string (fun v r => { r with name := v }),
    payloadField "description" (Decoder.optional Decoder.string)
      (fun v r => { r with description := v }),
    payloadField "type_id" Decoder.int64 (fun v r => { r with typeId := v }),
    payloadField "is_active" Decoder.boolean (fun v r => { r with isActive := v }),
    payloadField "display_order" Decoder.int64 (fun v r => { r with displayOrder := v }),
    payloadField "include_all" Decoder.boolean (fun v r => { r with includeAll := v }),
    payloadField "template_ids" (Decoder.list Decoder.int64)
      (fun v r => { r with templateIds := v }),
    payloadField "configs" Decoder.value (fun v r => { r with configs := v })]

def caseTypeShape : Shape CaseType where
  name := "TestrailCaseType"
  blank := {}
  fields := [
    payloadField "id" Decoder.int64 (fun v r => { r with id := v }),
    payloadField "name" Decoder.string (fun v r => { r with name := v }),
    payloadField "is_default" Decoder.boolean (fun v r => { r with isDefault := v })]

def priorityShape : Shape Priority where
  name := "TestrailPriority"
  blank := {}
  fields := [
    payloadField "id" Decoder.int64 (fun v r => { r with id := v }),
    payloadField "name" Decoder.string (fun v r => { r with name := v }),
    payloadField "short_name" Decoder.string (fun v r => { r with shortName := v }),
    payloadField "priority" Decoder.int64 (fun v r => { r with priority := v }),
    payloadField "is_default" Decoder.boolean (fun v r => { r with isDefault := v })]

def statusShape : Shape Status where
  name := "TestrailStatus"
  blank := {}
  fields := [
    payloadField "id" Decoder.int64 (fun v r => { r with id := v }),
    payloadField "name" Decoder.string (fun v r => { r with name := v }),
    payloadField "label" Decoder.string (fun v r => { r with label := v }),
    payloadField "color_dark" Decoder.int64 (fun v r => { r with colorDark := v }),
    payloadField "color_medium" Decoder.int64 (fun v r => { r with colorMedium := v }),
    payloadField "color_bright" Decoder.int64 (fun v r => { r with colorBright := v }),
    payloadField "is_final" Decoder.boolean (fun v r => { r with isFinal := v }),
    payloadField "is_system" Decoder.boolean (fun v r => { r with isSystem := v }),
    payloadField "is_untested" Decoder.boolean (fun v r => { r with isUntested := v })]

/-- An entry of a plan as the plan's payload has it. -/
structure EntryPayload where
  id : String := ""
  suiteId : Option Int := none
  name : String := ""
  description : Option String := none
  assignedtoId : Option Int := none
  includeAll : Bool := false
  runs : Option (List Counts) := none
  deriving DecidableEq, Repr

def entryShape (medium : Medium) : Shape EntryPayload where
  name := "PlanEntryPayload"
  blank := {}
  fields := [
    payloadField "id" Decoder.string (fun v r => { r with id := v }),
    payloadField "suite_id" (Decoder.optional Decoder.int64) (fun v r => { r with suiteId := v }),
    payloadField "name" Decoder.string (fun v r => { r with name := v }),
    payloadField "description" (Decoder.optional Decoder.string)
      (fun v r => { r with description := v }),
    payloadField "assignedto_id" (Decoder.optional Decoder.int64)
      (fun v r => { r with assignedtoId := v }),
    payloadField "include_all" Decoder.boolean (fun v r => { r with includeAll := v }),
    payloadField "runs" (Decoder.optional (Decoder.list (countsShape.decode medium)))
      (fun v r => { r with runs := v })]

def entriesShape (medium : Medium) : Shape (Option (List EntryPayload)) where
  name := "PlanEntries"
  blank := none
  fields := [
    payloadField "entries" (Decoder.optional (Decoder.list ((entryShape medium).decode medium)))
      (fun v _ => v)]

end QaLake.Tool
