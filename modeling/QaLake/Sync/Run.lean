import QaLake.Subtask
import QaLake.Sync.Collection
import QaLake.Sync.Conversion
import QaLake.Sync.Extraction

namespace QaLake

inductive StepOutcome
  | collected (stats : CollectStats)
  | extracted (stats : ExtractStats)
  | converted (stats : ConvertStats)
  deriving DecidableEq, Repr

def StepOutcome.rows : StepOutcome → Nat
  | collected s => s.records
  | extracted s => s.rows
  | converted s => s.rows

structure StepReport where
  subtask : Subtask
  outcome : StepOutcome
  deriving DecidableEq, Repr

/-- The steps that succeeded, in their order, and the one that failed, if any did. -/
structure RunReport where
  steps : List StepReport
  failure : Option (Subtask × Error)

namespace RunReport

def started (r : RunReport) : Nat :=
  r.steps.length + if r.failure.isSome then 1 else 0

def error? (r : RunReport) : Option Error :=
  r.failure.map fun (s, e) => .subtask s.name e

def report? (r : RunReport) (s : Subtask) : Option StepReport :=
  r.steps.find? (·.subtask == s)

def total (r : RunReport) (count : StepReport → Nat) : Nat :=
  r.steps.foldl (fun n s => n + count s) 0

def skipped (r : RunReport) : Nat :=
  r.total fun s => match s.outcome with
    | .extracted stats => stats.skipped
    | _ => 0

def domainRows (r : RunReport) : Nat :=
  r.total fun s => if s.subtask.phase = .convert then s.outcome.rows else 0

def lastProgress (r : RunReport) (total : Nat) : Option String :=
  r.steps.getLast?.map fun last =>
    toString (r.steps.length - 1) ++ "/" ++ toString total ++ " " ++ last.subtask.name

def cons (s : StepReport) (r : RunReport) : RunReport :=
  { r with steps := s :: r.steps }

end RunReport

namespace RunContext

variable {σ : Type} (ctx : RunContext)

def runStep (client : Client σ) (s : Subtask) : Action σ StepOutcome := do
  Action.checkCancelled
  match s.phase with
  | .collect => return .collected (← ctx.collect client s.entity)
  | .extract => return .extracted (← ctx.extract s.entity)
  | .convert => return .converted (← ctx.convert s.entity)

def runSteps (client : Client σ) : List Subtask → StateM (World σ) RunReport
  | [] => return ⟨[], none⟩
  | s :: rest => do
    match ← (ctx.runStep client s).run with
    | .error e => return ⟨[], some (s, e)⟩
    | .ok outcome => return (← runSteps client rest).cons ⟨s, outcome⟩

def runSelection (client : Client σ) (selection : List Subtask) :
    StateM (World σ) RunReport :=
  ctx.runSteps client (Subtask.inOrder selection)

end RunContext

end QaLake
