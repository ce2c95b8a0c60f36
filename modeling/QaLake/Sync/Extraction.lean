import QaLake.Sync.Context
import QaLake.Tool.Record

namespace QaLake

/-- The counters of an extraction: records read, rows written and records skipped. -/
structure ExtractStats where
  records : Nat := 0
  rows : Nat := 0
  skipped : Nat := 0
  deriving DecidableEq, Repr

namespace RunContext

variable {σ : Type} (ctx : RunContext)

def putRows : List Tool.Row → Action σ Unit
  | [] => pure ()
  | r :: rest => do
    Action.update fun db => db.putTool r
    putRows rest

def extractRecord (kind : EntityKind) (stats : ExtractStats) (r : Store.StagedRecord) :
    Action σ ExtractStats := do
  match Tool.rowsOfRecord kind ctx.scope r.data r.input with
  | .ok rows =>
    putRows rows
    return { stats with records := stats.records + 1, rows := stats.rows + rows.length }
  | .error e =>
    match ctx.settings.onParseError with
    | .abort => throw e
    | .skip => return { stats with records := stats.records + 1, skipped := stats.skipped + 1 }

def extract (kind : EntityKind) : Action σ ExtractStats :=
  match kind.stagingName with
  | none => return {}
  | some table =>
    Action.foldSource (Store.stagedSource table ctx.scope) ctx.settings.batchSize
      (ctx.extractRecord kind) {}

end RunContext

end QaLake
