import QaLake.RunOptions
import QaLake.Settings.Basic
import QaLake.Sync.Action

namespace QaLake

structure RunContext where
  options : RunOptions
  settings : PipelineSettings
  config : Option ScopeConfig

namespace RunContext

def scope (ctx : RunContext) : RunScope :=
  ctx.options.scope

/-- The context of valid options and settings. The configuration of the options comes before the one
that is stored. -/
def prepare {σ : Type} (options : RunOptions) (settings : PipelineSettings) :
    Action σ RunContext := do
  Action.ofExcept options.validate
  Action.ofExcept settings.validate
  match options.scopeConfig with
  | some config => return ⟨options, settings, some config⟩
  | none => return ⟨options, settings, ← Action.query (·.scopeConfig? options.scope)⟩

def pageSize (ctx : RunContext) : Nat :=
  min (max ctx.settings.pageSize 1) PipelineSettings.maxPageSize

def allowsSuite (ctx : RunContext) (suite : Tool.Suite) : Bool :=
  ctx.config.all (·.allowsSuite suite.id)

def allowsRun (ctx : RunContext) (run : Tool.Run) : Bool :=
  ctx.config.all (·.allowsMilestone run.milestoneId)

end RunContext

end QaLake
