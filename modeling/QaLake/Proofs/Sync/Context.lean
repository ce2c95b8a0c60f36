import QaLake.Proofs.Sync.Action
import QaLake.Sync.Context

namespace QaLake.RunContext

variable {σ : Type}

/-- The configuration in force: that of the options, or else the stored one. -/
def configIn (options : RunOptions) (db : Database) : Except Error (Option ScopeConfig) :=
  match options.scopeConfig with
  | some config => .ok (some config)
  | none => db.scopeConfig? options.scope

def contextOf (options : RunOptions) (settings : PipelineSettings) (db : Database) :
    Except Error RunContext := do
  options.validate
  settings.validate
  return ⟨options, settings, ← configIn options db⟩

theorem runIn_prepare (options : RunOptions) (settings : PipelineSettings) (w : World σ) :
    (prepare options settings).runIn w = (contextOf options settings w.database, w) := by
  rw [prepare, contextOf]
  cases hoptions : options.validate with
  | error e => rfl
  | ok _ =>
    cases hsettings : settings.validate with
    | error e => rfl
    | ok _ =>
      rw [configIn]
      cases options.scopeConfig with
      | some config => rfl
      | none =>
        have hquery : (Action.query (·.scopeConfig? options.scope) : Action σ _).runIn w =
            (w.database.scopeConfig? options.scope, w) := Action.runIn_query _ w
        simp only [Action.runIn_bind, Action.runIn_ofExcept, hquery]
        cases w.database.scopeConfig? options.scope <;> rfl

theorem contextOf_ok {options : RunOptions} {settings : PipelineSettings} {db : Database}
    {ctx : RunContext} (h : contextOf options settings db = .ok ctx) :
    options.validate = .ok () ∧ ctx.options = options ∧ ctx.settings = settings ∧
      configIn options db = .ok ctx.config := by
  rw [contextOf] at h
  cases hoptions : options.validate with
  | error e =>
    rw [hoptions] at h
    cases h
  | ok _ =>
    cases hsettings : settings.validate with
    | error e =>
      rw [hoptions, hsettings] at h
      cases h
    | ok _ =>
      cases hconfig : configIn options db with
      | error e =>
        rw [hoptions, hsettings, hconfig] at h
        cases h
      | ok config =>
        rw [hoptions, hsettings, hconfig] at h
        cases h
        exact ⟨rfl, rfl, rfl, rfl⟩

theorem project_pos {options : RunOptions} {settings : PipelineSettings} {db : Database}
    {ctx : RunContext} (h : contextOf options settings db = .ok ctx) : 0 < ctx.scope.project := by
  obtain ⟨hvalid, hoptions, -, -⟩ := contextOf_ok h
  rw [scope, hoptions, RunOptions.scope]
  rw [RunOptions.validate] at hvalid
  by_cases hconnection : options.connection ≤ 0
  · rw [if_pos hconnection] at hvalid
    cases hvalid
  · by_cases hproject : options.project ≤ 0
    · rw [if_neg hconnection, if_pos hproject] at hvalid
      cases hvalid
    · exact Int.not_le.1 hproject

theorem contextOf_congr (options : RunOptions) (settings : PipelineSettings) {t u : Store.Tables}
    (h : t.scopes = u.scopes) :
    contextOf options settings (.migrated t) = contextOf options settings (.migrated u) := by
  have hconfig : configIn options (.migrated t) = configIn options (.migrated u) := by
    rw [configIn, configIn]
    cases options.scopeConfig with
    | some config => rfl
    | none =>
      simp only [Database.scopeConfig?, Database.scopeText?, Database.read, h]
  rw [contextOf, contextOf, hconfig]

end QaLake.RunContext
