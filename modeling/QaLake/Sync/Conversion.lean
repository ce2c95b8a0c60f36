import QaLake.Domain.Conversion
import QaLake.Sync.Context

namespace QaLake

/-- The counters of a conversion: rows written and rows filtered out. -/
structure ConvertStats where
  rows : Nat := 0
  filtered : Nat := 0
  deriving DecidableEq, Repr

namespace RunContext

variable {σ : Type} (ctx : RunContext)

def convertRow (stats : ConvertStats) (r : Tool.Row) : Action σ ConvertStats := do
  match Domain.convert ctx.config r with
  | .row row =>
    Action.update fun db => db.putDomain row
    return { stats with rows := stats.rows + 1 }
  | .filtered => return { stats with filtered := stats.filtered + 1 }
  | .noCounterpart => return stats

def convertAll (ρ : Type) [Store.Streamed ρ] : Action σ ConvertStats :=
  Action.foldSource (Store.toolSource ρ ctx.scope) ctx.settings.batchSize
    (fun stats r => ctx.convertRow stats (Store.Streamed.toRow r)) {}

def convert : EntityKind → Action σ ConvertStats
  | .project => ctx.convertAll Tool.Project
  | .case => ctx.convertAll Tool.Case
  | .run => ctx.convertAll Tool.Run
  | .result => ctx.convertAll Tool.Result
  | _ => return {}

end RunContext

end QaLake
