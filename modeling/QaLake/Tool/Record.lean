import QaLake.Error
import QaLake.RunScope
import QaLake.Tool.Payload

namespace QaLake.Tool

open Json

def customMembers (members : List (String × Json)) : List (String × Json) :=
  members.filter fun m => "custom_".toList.isPrefixOf m.1.toList

/-- Whether one of the configurations of a custom field applies to all projects. -/
def hasGlobalContext (configs : Json) : Bool :=
  (configs.items?.getD []).any fun config =>
    (((config.get? "context").bind (·.get? "is_global")).bind Json.bool?).getD false

/-- The run that the results of a fan-out belong to: the id of the record they were fetched for. -/
def inputId (input : Option String) : Int :=
  (((input.bind Json.parse?).bind (·.get? "id")).bind Json.int64?).getD 0

def decodePayload {σ : Type} (kind : EntityKind) (shape : Shape σ) (data : Json) : Except Error σ :=
  (decodeValue shape.decode data).mapError fun f => .parse kind (.undecodable f)

/-- The row of an entry of a plan, with the counters of its runs added up. -/
def PlanEntry.ofPayload (scope : RunScope) (plan : Plan) (e : EntryPayload) :
    Except Error PlanEntry :=
  if e.id.isEmpty then .error (.parse .planEntry (.entryWithoutId plan.id))
  else .ok {
    connectionId := scope.connection
    id := e.id
    planId := plan.id
    projectId := scope.project
    suiteId := e.suiteId
    name := e.name
    description := e.description
    assignedtoId := e.assignedtoId
    includeAll := e.includeAll
    counts := (e.runs.getD []).foldl (· + ·) {} }

/-- The rows of a plan: its own and those of its entries. The fields of the plan are checked before
its counters, and both before its entries. -/
def planRows (scope : RunScope) (data : Json) : Except Error (List Row) := do
  let plan ← decodePayload .plan planShape data
  let counts ← decodePayload .plan countsShape data
  let plan := { plan with
    connectionId := scope.connection, projectId := scope.project, counts := counts }
  let entries ← (decodeValue (fun s => (entriesShape s).decode s) data).mapError fun f =>
    Error.parse .planEntry (.undecodable f)
  let rows ← (entries.getD []).mapM (PlanEntry.ofPayload scope plan)
  return .plan plan :: rows.map .planEntry

def runRow (scope : RunScope) (data : Json) : Except Error Row := do
  let run ← decodePayload .run runShape data
  let counts ← decodePayload .run countsShape data
  return .run { run with
    connectionId := scope.connection, projectId := scope.project, counts := counts }

def rowsOfObject (kind : EntityKind) (scope : RunScope) (input : Option String)
    (members : List (String × Json)) : Except Error (List Row) :=
  let data := Json.obj members
  let c := scope.connection
  let p := scope.project
  match kind with
  | .project => do
    let r ← decodePayload kind projectShape data
    return [.project { r with connectionId := c }]
  | .suite => do
    let r ← decodePayload kind suiteShape data
    return [.suite { r with connectionId := c, projectId := p }]
  | .testSection => do
    let r ← decodePayload kind sectionShape data
    return [.testSection { r with connectionId := c, projectId := p }]
  | .milestone => do
    let r ← decodePayload kind milestoneShape data
    return [.milestone { r with connectionId := c, projectId := p }]
  | .plan => planRows scope data
  | .planEntry => .error (.parse kind .entryRecord)
  | .run => do return [← runRow scope data]
  | .result => do
    let r ← decodePayload kind resultShape data
    let runId := if r.runId = 0 then inputId input else r.runId
    return [.result { r with connectionId := c, projectId := p, runId := runId }]
  | .case => do
    let r ← decodePayload kind caseShape data
    return [.case { r with
      connectionId := c, projectId := p, customFields := customMembers members }]
  | .user => do
    let r ← decodePayload kind userShape data
    return [.user { r with connectionId := c }]
  | .caseField => do
    let r ← decodePayload kind caseFieldShape data
    return [.caseField { r with connectionId := c, isGlobal := hasGlobalContext r.configs }]
  | .caseType => do
    let r ← decodePayload kind caseTypeShape data
    return [.caseType { r with connectionId := c }]
  | .priority => do
    let r ← decodePayload kind priorityShape data
    return [.priority { r with connectionId := c }]
  | .status => do
    let r ← decodePayload kind statusShape data
    return [.status { r with connectionId := c }]

/-- The rows that a record describes, from its text and the text of the record it was fetched for.
-/
def rowsOfRecord (kind : EntityKind) (scope : RunScope) (data : String) (input : Option String) :
    Except Error (List Row) :=
  match Json.parse? data with
  | none => .error (.parse kind (.undecodable .malformed))
  | some (.obj members) => rowsOfObject kind scope input members
  | some _ => .error (.parse kind .notAnObject)

end QaLake.Tool
