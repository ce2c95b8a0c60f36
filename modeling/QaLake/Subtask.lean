import QaLake.Entity

namespace QaLake

inductive Phase
  | collect
  | extract
  | convert
  deriving DecidableEq, Repr

def Phase.word : Phase → String
  | collect => "collect"
  | extract => "extract"
  | convert => "convert"

namespace EntityKind

def isConverted : EntityKind → Bool
  | project | case | run | result => true
  | _ => false

/-- Whether a kind goes through a phase. Entries of plans are extracted together with their plans.
-/
def hasPhase (kind : EntityKind) : Phase → Bool
  | .collect | .extract => kind != planEntry
  | .convert => kind.isConverted

def dependencyOrder : List EntityKind :=
  [.status, .priority, .caseType, .caseField, .user, .project, .suite, .testSection, .milestone,
    .case, .plan, .run, .result]

def pluralWord : EntityKind → String
  | project => "Projects"
  | suite => "Suites"
  | testSection => "Sections"
  | milestone => "Milestones"
  | plan => "Plans"
  | planEntry => "PlanEntries"
  | run => "Runs"
  | result => "Results"
  | case => "Cases"
  | user => "Users"
  | caseField => "CaseFields"
  | caseType => "CaseTypes"
  | priority => "Priorities"
  | status => "Statuses"

end EntityKind

/-- A phase of a kind that goes through it. -/
structure Subtask where
  phase : Phase
  entity : EntityKind
  valid : entity.hasPhase phase = true
  deriving DecidableEq, Repr

namespace Subtask

def of? (entity : EntityKind) (phase : Phase) : Option Subtask :=
  if h : entity.hasPhase phase = true then some ⟨phase, entity, h⟩ else none

/-- Suites stand before the sections and cases that are collected suite by suite, and runs before
their results. -/
def all : List Subtask :=
  EntityKind.dependencyOrder.flatMap fun kind =>
    [Phase.collect, .extract, .convert].filterMap (of? kind)

def name (s : Subtask) : String :=
  s.phase.word ++ s.entity.pluralWord

def ofName? (name : String) : Option Subtask :=
  all.find? (·.name == name)

def index (s : Subtask) : Nat :=
  all.idxOf s

def inOrder (selection : List Subtask) : List Subtask :=
  all.filter selection.contains

/-- The steps of some names, and all steps for no names at all. Fails with the first name that no
step has. -/
def select (names : List String) : Except String (List Subtask) := do
  if names.isEmpty then return all
  let selection ← names.mapM fun n => (ofName? n).elim (.error n) .ok
  return inOrder selection

theorem mem_all (s : Subtask) : s ∈ all := by
  obtain ⟨phase, entity, valid⟩ := s
  revert valid
  cases entity <;> cases phase <;> decide

theorem pairwise_index : all.Pairwise fun a b => a.index < b.index := by
  decide +kernel

end Subtask

end QaLake
