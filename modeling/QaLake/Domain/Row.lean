import QaLake.Json.Decode
import QaLake.Store.Upsert

namespace QaLake.Domain

open Json Store

structure Project where
  id : String := ""
  name : String := ""
  deriving DecidableEq, Repr

structure TestCase where
  id : String := ""
  name : String := ""
  projectId : String := ""
  createTime : Instant := .epoch
  creatorId : Option String := none
  testType : String := ""
  priority : String := ""
  isAutomated : Bool := false
  customAttributes : Json := .null
  deriving Repr

inductive RunStatus
  | completed
  | inProgress
  deriving DecidableEq, Repr

namespace RunStatus

def word : RunStatus → String
  | completed => "COMPLETED"
  | inProgress => "IN_PROGRESS"

def ofWord? (s : String) : Option RunStatus :=
  if s = "COMPLETED" then some completed
  else if s = "IN_PROGRESS" then some inProgress
  else none

theorem ofWord?_word (s : RunStatus) : ofWord? s.word = some s := by
  cases s <;> rfl

end RunStatus

/-- A test run. Blocked tests count as skipped. -/
structure TestRun where
  id : String := ""
  projectId : String := ""
  name : String := ""
  description : Option String := none
  startTime : Instant := .epoch
  finishTime : Option Instant := none
  status : RunStatus := .completed
  passedCount : Int := 0
  failedCount : Int := 0
  skippedCount : Int := 0
  totalCount : Int := 0
  deriving DecidableEq, Repr

/-- The execution of a test case in a test run. -/
structure Execution where
  id : String := ""
  projectId : String := ""
  testCaseId : String := ""
  testRunId : String := ""
  createTime : Instant := .epoch
  startTime : Instant := .epoch
  finishTime : Instant := .epoch
  creatorId : Option String := none
  status : String := ""
  deriving DecidableEq, Repr

inductive Row
  | project (r : Project)
  | testCase (r : TestCase)
  | testRun (r : TestRun)
  | execution (r : Execution)
  deriving Repr

def needed {σ α : Type} (name : String) (dec : Decoder α) (put : α → σ → σ) : RecordField σ :=
  .of name dec put .required

def nullable {σ α : Type} (name : String) (dec : Decoder α) (put : Option α → σ → σ) :
    RecordField σ :=
  .of name (Decoder.optional dec) put .defaultInObject

def projectShape : Shape Project where
  name := "QaProject"
  blank := {}
  fields := [
    needed "id" Decoder.string (fun v r => { r with id := v }),
    needed "name" Decoder.string (fun v r => { r with name := v })]

def testCaseShape : Shape TestCase where
  name := "QaTestCase"
  blank := {}
  fields := [
    needed "id" Decoder.string (fun v r => { r with id := v }),
    needed "name" Decoder.string (fun v r => { r with name := v }),
    needed "qa_project_id" Decoder.string (fun v r => { r with projectId := v }),
    needed "create_time" Decoder.instant (fun v r => { r with createTime := v }),
    nullable "creator_id" Decoder.string (fun v r => { r with creatorId := v }),
    needed "test_type" Decoder.string (fun v r => { r with testType := v }),
    needed "priority" Decoder.string (fun v r => { r with priority := v }),
    needed "is_automated" Decoder.boolean (fun v r => { r with isAutomated := v }),
    needed "custom_attributes" Decoder.value (fun v r => { r with customAttributes := v })]

def statusDecoder : Medium → Decoder RunStatus :=
  Decoder.constant [("COMPLETED", .completed), ("IN_PROGRESS", .inProgress)]

def testRunShape (medium : Medium) : Shape TestRun where
  name := "QaTestRun"
  blank := {}
  fields := [
    needed "id" Decoder.string (fun v r => { r with id := v }),
    needed "qa_project_id" Decoder.string (fun v r => { r with projectId := v }),
    needed "name" Decoder.string (fun v r => { r with name := v }),
    nullable "description" Decoder.string (fun v r => { r with description := v }),
    needed "start_time" Decoder.instant (fun v r => { r with startTime := v }),
    nullable "finish_time" Decoder.instant (fun v r => { r with finishTime := v }),
    needed "status" (statusDecoder medium) (fun v r => { r with status := v }),
    needed "passed_count" Decoder.int64 (fun v r => { r with passedCount := v }),
    needed "failed_count" Decoder.int64 (fun v r => { r with failedCount := v }),
    needed "skipped_count" Decoder.int64 (fun v r => { r with skippedCount := v }),
    needed "total_count" Decoder.int64 (fun v r => { r with totalCount := v })]

def testRunDecoder (medium : Medium) : Decoder TestRun :=
  (testRunShape medium).decode medium

def executionShape : Shape Execution where
  name := "QaTestCaseExecution"
  blank := {}
  fields := [
    needed "id" Decoder.string (fun v r => { r with id := v }),
    needed "qa_project_id" Decoder.string (fun v r => { r with projectId := v }),
    needed "qa_test_case_id" Decoder.string (fun v r => { r with testCaseId := v }),
    needed "qa_test_run_id" Decoder.string (fun v r => { r with testRunId := v }),
    needed "create_time" Decoder.instant (fun v r => { r with createTime := v }),
    needed "start_time" Decoder.instant (fun v r => { r with startTime := v }),
    needed "finish_time" Decoder.instant (fun v r => { r with finishTime := v }),
    nullable "creator_id" Decoder.string (fun v r => { r with creatorId := v }),
    needed "status" Decoder.string (fun v r => { r with status := v })]

def Project.toJson (r : Project) : Json :=
  Json.ofMembers [("id", .str r.id), ("name", .str r.name)]

def instantJson (t : Instant) : Json := .str t.zuluText

def TestCase.toJsonWith (r : TestCase) (attributes : Json) : Json :=
  Json.ofMembers [
    ("id", .str r.id), ("name", .str r.name), ("qa_project_id", .str r.projectId),
    ("create_time", instantJson r.createTime), ("creator_id", .ofOption .str r.creatorId),
    ("test_type", .str r.testType), ("priority", .str r.priority),
    ("is_automated", .bool r.isAutomated), ("custom_attributes", attributes)]

def TestCase.toJson (r : TestCase) : Json :=
  r.toJsonWith r.customAttributes

def TestRun.toJson (r : TestRun) : Json :=
  Json.ofMembers [
    ("id", .str r.id), ("qa_project_id", .str r.projectId), ("name", .str r.name),
    ("description", .ofOption .str r.description), ("start_time", instantJson r.startTime),
    ("finish_time", .ofOption instantJson r.finishTime), ("status", .str r.status.word),
    ("passed_count", .int r.passedCount), ("failed_count", .int r.failedCount),
    ("skipped_count", .int r.skippedCount), ("total_count", .int r.totalCount)]

def Execution.toJson (r : Execution) : Json :=
  Json.ofMembers [
    ("id", .str r.id), ("qa_project_id", .str r.projectId),
    ("qa_test_case_id", .str r.testCaseId), ("qa_test_run_id", .str r.testRunId),
    ("create_time", instantJson r.createTime), ("start_time", instantJson r.startTime),
    ("finish_time", instantJson r.finishTime), ("creator_id", .ofOption .str r.creatorId),
    ("status", .str r.status)]

def Project.upsert : Upsert Project where
  columns := ["id", "name"]
  values r := [.text r.id, .text r.name]
  conflict := ["id"]
  updates := ["name"]

def TestCase.upsert : Upsert TestCase where
  columns :=
    ["id", "name", "qa_project_id", "create_time", "creator_id", "type", "priority", "is_automated",
     "custom_attributes"]
  values r :=
    [.text r.id, .text r.name, .text r.projectId, .text r.createTime.text, .optText r.creatorId,
     .text r.testType, .text r.priority, .flag r.isAutomated, .json r.customAttributes .null]
  conflict := ["id"]
  updates :=
    ["name", "qa_project_id", "create_time", "creator_id", "type", "priority", "is_automated",
     "custom_attributes"]

def TestRun.upsert : Upsert TestRun where
  columns :=
    ["id", "qa_project_id", "name", "description", "start_time", "finish_time", "status",
     "passed_count", "failed_count", "skipped_count", "total_count"]
  values r :=
    [.text r.id, .text r.projectId, .text r.name, .optText r.description, .text r.startTime.text,
     .optText (r.finishTime.map Instant.text), .text r.status.word, .int r.passedCount,
     .int r.failedCount, .int r.skippedCount, .int r.totalCount]
  conflict := ["id"]
  updates :=
    ["qa_project_id", "name", "description", "start_time", "finish_time", "status", "passed_count",
     "failed_count", "skipped_count", "total_count"]

def Execution.upsert : Upsert Execution where
  columns :=
    ["id", "qa_project_id", "qa_test_case_id", "qa_test_run_id", "create_time", "start_time",
     "finish_time", "creator_id", "status"]
  values r :=
    [.text r.id, .text r.projectId, .text r.testCaseId, .text r.testRunId, .text r.createTime.text,
     .text r.startTime.text, .text r.finishTime.text, .optText r.creatorId, .text r.status]
  conflict := ["id"]
  updates :=
    ["qa_project_id", "qa_test_case_id", "qa_test_run_id", "create_time", "start_time",
     "finish_time", "creator_id", "status"]

/-- The instant in a text, the epoch if the text is not in the internet date format. -/
def instantOf (text : String) : Instant :=
  (Time.strict? text).getD .epoch

def Project.ofCells? (c : Cells) : Option Project := do
  return { id := ← c.get? "id", name := ← c.get? "name" }

def TestCase.ofCells? (c : Cells) : Option TestCase := do
  let create : String ← c.get? "create_time"
  let attributes : String ← c.get? "custom_attributes"
  return {
    id := ← c.get? "id", name := ← c.get? "name", projectId := ← c.get? "qa_project_id",
    createTime := instantOf create, creatorId := ← c.get? "creator_id",
    testType := ← c.get? "type", priority := ← c.get? "priority",
    isAutomated := ← c.get? "is_automated",
    customAttributes := (Json.parse? attributes).getD (.obj []) }

def TestRun.ofCells? (c : Cells) : Option TestRun := do
  let start : String ← c.get? "start_time"
  let finish : Option String ← c.get? "finish_time"
  let status : String ← c.get? "status"
  return {
    id := ← c.get? "id", projectId := ← c.get? "qa_project_id", name := ← c.get? "name",
    description := ← c.get? "description", startTime := instantOf start,
    finishTime := finish.map instantOf, status := (RunStatus.ofWord? status).getD .inProgress,
    passedCount := ← c.get? "passed_count", failedCount := ← c.get? "failed_count",
    skippedCount := ← c.get? "skipped_count", totalCount := ← c.get? "total_count" }

def Execution.ofCells? (c : Cells) : Option Execution := do
  let create : String ← c.get? "create_time"
  let start : String ← c.get? "start_time"
  let finish : String ← c.get? "finish_time"
  return {
    id := ← c.get? "id", projectId := ← c.get? "qa_project_id",
    testCaseId := ← c.get? "qa_test_case_id", testRunId := ← c.get? "qa_test_run_id",
    createTime := instantOf create, startTime := instantOf start, finishTime := instantOf finish,
    creatorId := ← c.get? "creator_id", status := ← c.get? "status" }

end QaLake.Domain
