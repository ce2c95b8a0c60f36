import Mathlib.Data.List.Sort
import QaLake.Domain.Conversion
import QaLake.Proofs.Endpoint.Kinds
import QaLake.Proofs.Keyed.LastPer
import QaLake.Proofs.Service.Catalogue
import QaLake.Proofs.Tool.Reading

namespace QaLake.Catalogue

variable (cat : Catalogue) (scope : RunScope) (config : Option ScopeConfig)

def suites : List Tool.Suite :=
  lastPer Tool.Suite.id
    ((cat.under (pathOf scope.project 0 .suite)).filterMap (Tool.Suite.ofJson? scope))

def runs : List Tool.Run :=
  lastPer Tool.Run.id
    ((cat.under (pathOf scope.project 0 .run)).filterMap (Tool.Run.ofJson? scope))

def selectedSuites : List Int :=
  (((cat.suites scope).filter fun s => config.all (·.allowsSuite s.id)).map
    Tool.Suite.id).insertionSort (· ≤ ·)

def selectedRuns : List Int :=
  (((cat.runs scope).filter fun r => config.all (·.allowsMilestone r.milestoneId)).map
    Tool.Run.id).insertionSort (· ≤ ·)

def cases : List Tool.Case :=
  lastPer Tool.Case.id ((cat.selectedSuites scope config).flatMap fun suite =>
    (cat.under (pathOf scope.project suite .case)).filterMap (Tool.Case.ofJson? scope))

def results : List Tool.Result :=
  lastPer Tool.Result.id ((cat.selectedRuns scope config).flatMap fun run =>
    (cat.under (pathOf scope.project run .result)).filterMap (Tool.Result.ofJson? scope run))

def testCases : List Domain.TestCase :=
  (cat.cases scope config).filterMap (Domain.TestCase.ofTool? config)

def testRuns : List Domain.TestRun :=
  (cat.runs scope).filterMap (Domain.TestRun.ofTool? config)

def executions : List Domain.Execution :=
  (cat.results scope config).map (Domain.Execution.ofTool config)

/-- Whether every suite, run, case and result of the project has a positive id. -/
structure HasPositiveIds : Prop where
  suites : ∀ s ∈ cat.suites scope, 0 < s.id
  runs : ∀ r ∈ cat.runs scope, 0 < r.id
  cases : ∀ c ∈ cat.cases scope config, 0 < c.id
  results : ∀ r ∈ cat.results scope config, 0 < r.id

end QaLake.Catalogue
