namespace QaLake

inductive EntityKind
  | project
  | suite
  | testSection
  | milestone
  | plan
  | planEntry
  | run
  | result
  | case
  | user
  | caseField
  | caseType
  | priority
  | status
  deriving DecidableEq, Repr

namespace EntityKind

def all : List EntityKind :=
  [.project, .suite, .testSection, .milestone, .plan, .planEntry, .run, .result, .case, .user,
    .caseField, .caseType, .priority, .status]

def name : EntityKind → String
  | project => "project"
  | suite => "suite"
  | testSection => "section"
  | milestone => "milestone"
  | plan => "plan"
  | planEntry => "plan_entry"
  | run => "run"
  | result => "result"
  | case => "case"
  | user => "user"
  | caseField => "case_field"
  | caseType => "case_type"
  | priority => "priority"
  | status => "status"

def typeName : EntityKind → String
  | project => "TestrailProject"
  | suite => "TestrailSuite"
  | testSection => "TestrailSection"
  | milestone => "TestrailMilestone"
  | plan => "TestrailPlan"
  | planEntry => "TestrailPlanEntry"
  | run => "TestrailRun"
  | result => "TestrailResult"
  | case => "TestrailCase"
  | user => "TestrailUser"
  | caseField => "TestrailCaseField"
  | caseType => "TestrailCaseType"
  | priority => "TestrailPriority"
  | status => "TestrailStatus"

def plural : EntityKind → String
  | project => "projects"
  | suite => "suites"
  | testSection => "sections"
  | milestone => "milestones"
  | plan => "plans"
  | planEntry => "plan_entries"
  | run => "runs"
  | result => "results"
  | case => "cases"
  | user => "users"
  | caseField => "case_fields"
  | caseType => "case_types"
  | priority => "priorities"
  | status => "statuses"

/-- The name under which records of the kind are staged. Entries of plans arrive inside their plans
and are not staged on their own. -/
def stagingName : EntityKind → Option String
  | planEntry => none
  | kind => some ("testrail_" ++ kind.plural)

def toolTable (kind : EntityKind) : String :=
  "_tool_testrail_" ++ kind.plural

def isProjectScoped : EntityKind → Bool
  | project | user | caseField | caseType | priority | status => false
  | _ => true

def ofName? (name : String) : Option EntityKind :=
  all.find? (·.name == name)

end EntityKind

def identifierPrefix : String := "testrail"

/-- The identifier of an entity in the domain tables, from its kind, its connection and its id at
the service. -/
def domainId (kind : EntityKind) (connection : Int) (remoteId : String) : String :=
  identifierPrefix ++ ":" ++ kind.typeName ++ ":" ++ toString connection ++ ":" ++ remoteId

end QaLake
