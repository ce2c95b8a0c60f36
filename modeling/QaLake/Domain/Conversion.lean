import QaLake.Tool.Row
import QaLake.Domain.Row
import QaLake.Scope.Attributes

namespace QaLake.Domain

def idOf (kind : EntityKind) (connection id : Int) : String :=
  domainId kind connection (toString id)

def userId? (connection : Int) (user : Option Int) : Option String :=
  match user with
  | none => none
  | some id => if id = 0 then none else some (idOf .user connection id)

def Project.ofTool (p : Tool.Project) : Project where
  id := idOf .project p.connectionId p.id
  name := p.name

/-- The domain row of a case, unless its suite is filtered out. A case without a suite counts as one
of suite 0. -/
def TestCase.ofTool? (scope : Option ScopeConfig) (c : Tool.Case) : Option TestCase :=
  if scope.all (·.allowsSuite (c.suiteId.getD 0)) then
    some {
      id := idOf .case c.connectionId c.id
      name := c.title
      projectId := idOf .project c.connectionId c.projectId
      createTime := .ofUnix c.createdOn
      creatorId := userId? c.connectionId c.createdBy
      testType := Vocabulary.caseType.word scope (c.typeId.getD 0)
      priority := Vocabulary.priority.word scope (c.priorityId.getD 0)
      isAutomated := ScopeConfig.automated scope c.customFields
      customAttributes := ScopeConfig.attributesOf scope c.customFields }
  else none

def TestRun.ofTool? (scope : Option ScopeConfig) (r : Tool.Run) : Option TestRun :=
  if scope.all (·.allowsMilestone r.milestoneId) then
    some {
      id := idOf .run r.connectionId r.id
      projectId := idOf .project r.connectionId r.projectId
      name := r.name
      description := r.description
      startTime := .ofUnix r.createdOn
      finishTime := (r.completedOn.filter (0 < ·)).map .ofUnix
      status := if r.isCompleted then .completed else .inProgress
      passedCount := r.counts.passed
      failedCount := r.counts.failed
      skippedCount := r.counts.blocked
      totalCount := r.counts.total }
  else none

/-- The domain row of a result. A result without a case refers to case 0. -/
def Execution.ofTool (scope : Option ScopeConfig) (r : Tool.Result) : Execution :=
  let moment := Instant.ofUnix r.createdOn
  { id := idOf .result r.connectionId r.id
    projectId := idOf .project r.connectionId r.projectId
    testCaseId := idOf .case r.connectionId (r.caseId.getD 0)
    testRunId := idOf .run r.connectionId r.runId
    createTime := moment
    startTime := moment
    finishTime := moment
    creatorId := userId? r.connectionId r.createdBy
    status := Vocabulary.status.word scope (r.statusId.getD 0) }

inductive Outcome
  | row (r : Row)
  | filtered
  | noCounterpart
  deriving Repr

def Outcome.ofOption : Option Row → Outcome
  | some r => .row r
  | none => .filtered

def convert (scope : Option ScopeConfig) : Tool.Row → Outcome
  | .project p => .row (.project (.ofTool p))
  | .case c => .ofOption ((TestCase.ofTool? scope c).map .testCase)
  | .run r => .ofOption ((TestRun.ofTool? scope r).map .testRun)
  | .result r => .row (.execution (.ofTool scope r))
  | _ => .noCounterpart

end QaLake.Domain
