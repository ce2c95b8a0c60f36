import QaLake.Entity
import QaLake.Json.Basic

namespace QaLake.Tool

/-- How many tests of a run stand at each status. -/
structure Counts where
  passed : Int := 0
  blocked : Int := 0
  untested : Int := 0
  retest : Int := 0
  failed : Int := 0
  deriving DecidableEq, Repr

def Counts.total (c : Counts) : Int :=
  Word.add (Word.add (Word.add (Word.add c.passed c.failed) c.blocked) c.untested) c.retest

theorem Counts.total_eq (c : Counts) :
    c.total = Word.wrap (c.passed + c.blocked + c.untested + c.retest + c.failed) := by
  simp only [total, Word.add, Word.wrap_wrap_add]
  exact congrArg Word.wrap (by omega)

def Counts.add (a b : Counts) : Counts :=
  ⟨Word.add a.passed b.passed, Word.add a.blocked b.blocked, Word.add a.untested b.untested,
    Word.add a.retest b.retest, Word.add a.failed b.failed⟩

instance : Add Counts := ⟨Counts.add⟩

structure Project where
  connectionId : Int := 0
  id : Int := 0
  name : String := ""
  announcement : Option String := none
  showAnnouncement : Bool := false
  isCompleted : Bool := false
  completedOn : Option Int := none
  suiteMode : Int := 0
  url : String := ""
  deriving DecidableEq, Repr

structure Suite where
  connectionId : Int := 0
  id : Int := 0
  projectId : Int := 0
  name : String := ""
  description : Option String := none
  url : String := ""
  isBaseline : Bool := false
  isMaster : Bool := false
  isCompleted : Bool := false
  completedOn : Option Int := none
  deriving DecidableEq, Repr

structure Section where
  connectionId : Int := 0
  id : Int := 0
  projectId : Int := 0
  suiteId : Option Int := none
  parentId : Option Int := none
  name : String := ""
  description : Option String := none
  displayOrder : Int := 0
  depth : Int := 0
  deriving DecidableEq, Repr

structure Milestone where
  connectionId : Int := 0
  id : Int := 0
  projectId : Int := 0
  parentId : Option Int := none
  name : String := ""
  description : Option String := none
  refs : Option String := none
  url : String := ""
  startOn : Option Int := none
  startedOn : Option Int := none
  dueOn : Option Int := none
  isStarted : Bool := false
  isCompleted : Bool := false
  completedOn : Option Int := none
  deriving DecidableEq, Repr

structure Plan where
  connectionId : Int := 0
  id : Int := 0
  projectId : Int := 0
  name : String := ""
  description : Option String := none
  milestoneId : Option Int := none
  assignedtoId : Option Int := none
  isCompleted : Bool := false
  completedOn : Option Int := none
  createdOn : Int := 0
  createdBy : Option Int := none
  url : String := ""
  counts : Counts := {}
  deriving DecidableEq, Repr

structure PlanEntry where
  connectionId : Int := 0
  id : String := ""
  planId : Int := 0
  projectId : Int := 0
  suiteId : Option Int := none
  name : String := ""
  description : Option String := none
  assignedtoId : Option Int := none
  includeAll : Bool := false
  counts : Counts := {}
  deriving DecidableEq, Repr

structure Run where
  connectionId : Int := 0
  id : Int := 0
  projectId : Int := 0
  suiteId : Option Int := none
  name : String := ""
  description : Option String := none
  milestoneId : Option Int := none
  planId : Option Int := none
  assignedtoId : Option Int := none
  isCompleted : Bool := false
  completedOn : Option Int := none
  counts : Counts := {}
  createdOn : Int := 0
  createdBy : Option Int := none
  url : String := ""
  deriving DecidableEq, Repr

/-- The result of a test. The test is an instance of a case within a run. -/
structure Result where
  connectionId : Int := 0
  id : Int := 0
  projectId : Int := 0
  runId : Int := 0
  caseId : Option Int := none
  testId : Option Int := none
  statusId : Option Int := none
  createdBy : Option Int := none
  createdOn : Int := 0
  elapsed : Option String := none
  comment : Option String := none
  version : Option String := none
  defects : Option String := none
  deriving DecidableEq, Repr

/-- A test case, with every field of its payload whose name begins with `custom_`. -/
structure Case where
  connectionId : Int := 0
  id : Int := 0
  projectId : Int := 0
  suiteId : Option Int := none
  sectionId : Option Int := none
  title : String := ""
  typeId : Option Int := none
  priorityId : Option Int := none
  templateId : Option Int := none
  milestoneId : Option Int := none
  refs : Option String := none
  estimate : Option String := none
  estimateForecast : Option String := none
  createdBy : Option Int := none
  createdOn : Int := 0
  updatedBy : Option Int := none
  updatedOn : Int := 0
  customFields : List (String × Json) := []
  deriving Repr

structure User where
  connectionId : Int := 0
  id : Int := 0
  name : String := ""
  email : String := ""
  isActive : Bool := false
  roleId : Option Int := none
  role : Option String := none
  deriving DecidableEq, Repr

structure CaseField where
  connectionId : Int := 0
  id : Int := 0
  systemName : String := ""
  label : String := ""
  name : String := ""
  description : Option String := none
  typeId : Int := 0
  isGlobal : Bool := false
  isActive : Bool := false
  displayOrder : Int := 0
  includeAll : Bool := false
  templateIds : List Int := []
  configs : Json := .null
  deriving Repr

structure CaseType where
  connectionId : Int := 0
  id : Int := 0
  name : String := ""
  isDefault : Bool := false
  deriving DecidableEq, Repr

structure Priority where
  connectionId : Int := 0
  id : Int := 0
  name : String := ""
  shortName : String := ""
  priority : Int := 0
  isDefault : Bool := false
  deriving DecidableEq, Repr

structure Status where
  connectionId : Int := 0
  id : Int := 0
  name : String := ""
  label : String := ""
  colorDark : Int := 0
  colorMedium : Int := 0
  colorBright : Int := 0
  isFinal : Bool := false
  isSystem : Bool := false
  isUntested : Bool := false
  deriving DecidableEq, Repr

inductive Row
  | project (r : Project)
  | suite (r : Suite)
  | testSection (r : Section)
  | milestone (r : Milestone)
  | plan (r : Plan)
  | planEntry (r : PlanEntry)
  | run (r : Run)
  | result (r : Result)
  | case (r : Case)
  | user (r : User)
  | caseField (r : CaseField)
  | caseType (r : CaseType)
  | priority (r : Priority)
  | status (r : Status)
  deriving Repr

namespace Row

def kind : Row → EntityKind
  | project _ => .project
  | suite _ => .suite
  | testSection _ => .testSection
  | milestone _ => .milestone
  | plan _ => .plan
  | planEntry _ => .planEntry
  | run _ => .run
  | result _ => .result
  | case _ => .case
  | user _ => .user
  | caseField _ => .caseField
  | caseType _ => .caseType
  | priority _ => .priority
  | status _ => .status

def connectionId : Row → Int
  | project r => r.connectionId
  | suite r => r.connectionId
  | testSection r => r.connectionId
  | milestone r => r.connectionId
  | plan r => r.connectionId
  | planEntry r => r.connectionId
  | run r => r.connectionId
  | result r => r.connectionId
  | case r => r.connectionId
  | user r => r.connectionId
  | caseField r => r.connectionId
  | caseType r => r.connectionId
  | priority r => r.connectionId
  | status r => r.connectionId

end Row

end QaLake.Tool
