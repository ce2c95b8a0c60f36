import QaLake.Proofs.Store.Scopes
import QaLake.Proofs.Sync.Completeness
import QaLake.Proofs.Sync.Context
import QaLake.Proofs.Sync.Step

namespace QaLake

open Store

variable {σ α β ρ : Type}

def Store.Tables.withScopes (t : Tables) (scopes : ScopeTable) : Tables :=
  { t with scopes := scopes }

def Database.withScopes (db : Database) (scopes : ScopeTable) : Database :=
  match db with
  | .unmigrated => .unmigrated
  | .migrated t => .migrated (t.withScopes scopes)

def World.withScopes (w : World σ) (scopes : ScopeTable) : World σ :=
  { w with database := w.database.withScopes scopes }

/-- A source of rows that does not look at the configurations. -/
structure Store.Source.Disregards (source : Source ρ) : Prop where
  batch : ∀ db scopes, source.batch (db.withScopes scopes) = source.batch db
  bound : ∀ db scopes, source.bound (db.withScopes scopes) = source.bound db

theorem Store.stagedSource_disregards (table : String) (scope : RunScope) :
    (stagedSource table scope).Disregards where
  batch db _ := by cases db <;> rfl
  bound db _ := by cases db <;> rfl

theorem Store.toolSource_disregards (ρ : Type) [Streamed ρ] (scope : RunScope) :
    (toolSource ρ scope).Disregards where
  batch db _ := by cases db <;> rfl
  bound db _ := by cases db <;> rfl

namespace Store.Cursor

theorem next_withScopes {c : Cursor ρ} (h : c.source.Disregards) (db : Database)
    (scopes : ScopeTable) : c.next (db.withScopes scopes) = c.next db := by
  simp only [next, h.batch]

theorem source_next (c : Cursor ρ) (db : Database) : (c.next db).2.source = c.source := by
  rw [next]
  split
  · rfl
  · split
    · rfl
    · split <;> rfl

theorem take_withScopes {c : Cursor ρ} (h : c.source.Disregards) (db : Database)
    (scopes : ScopeTable) (n : Nat) : c.take (db.withScopes scopes) n = c.take db n := by
  induction n generalizing c with
  | zero => rfl
  | succ n ih =>
    have hsource := c.source_next db
    rw [take, take, next_withScopes h]
    rcases hnext : c.next db with ⟨row, c'⟩
    rw [hnext] at hsource
    have hc' : c'.source.Disregards := hsource.symm ▸ h
    obtain _ | _ | r := row
    · rfl
    · rfl
    · exact congrArg (Except.map _) (ih hc')

end Store.Cursor

namespace Action

/-- Whether an action neither looks at the stored configurations nor changes them. -/
def Disregards (a : Action σ α) : Prop :=
  ∀ w scopes, a.runIn (w.withScopes scopes) = ((a.runIn w).1, (a.runIn w).2.withScopes scopes)

theorem disregards_pure (a : α) : Disregards (pure a : Action σ α) :=
  fun _ _ => rfl

theorem disregards_ofExcept (r : Except Error α) : Disregards (ofExcept r : Action σ α) :=
  fun _ _ => rfl

theorem disregards_bind {a : Action σ α} {f : α → Action σ β} (ha : Disregards a)
    (hf : ∀ x, Disregards (f x)) : Disregards (a >>= f) := by
  intro w scopes
  rw [runIn_bind, runIn_bind, ha w scopes]
  rcases a.runIn w with ⟨r, v⟩
  cases r with
  | error e => rfl
  | ok x => exact hf x v scopes

theorem disregards_checkCancelled : Disregards (checkCancelled : Action σ Unit) := by
  intro w scopes
  rw [runIn_checkCancelled, runIn_checkCancelled]
  obtain ⟨db, remote, calls, budget, cancelled⟩ := w
  cases cancelled <;> rfl

theorem disregards_send (service : Service σ) (request : Request) :
    Disregards (send service request) := by
  rintro ⟨db, remote, calls, budget, cancelled⟩ scopes
  cases budget <;> rfl

theorem disregards_ask (service : Service σ) (request : Request) :
    Disregards (ask service request) :=
  disregards_bind (disregards_send service request) fun answer => disregards_ofExcept answer

theorem disregards_query {f : Database → Except Error α}
    (h : ∀ db scopes, f (db.withScopes scopes) = f db) : Disregards (query f : Action σ α) := by
  intro w scopes
  rw [runIn_query, runIn_query]
  exact Prod.ext (h w.database scopes) rfl

theorem disregards_write {f : Tables → Tables}
    (h : ∀ t scopes, f (t.withScopes scopes) = (f t).withScopes scopes) :
    Disregards (update fun db => db.write f : Action σ Unit) := by
  rintro ⟨db, remote, calls, budget, cancelled⟩ scopes
  rw [runIn_update, runIn_update]
  cases db with
  | unmigrated => rfl
  | migrated t =>
    refine Prod.ext rfl ?_
    simp only [World.withScopes, Database.withScopes, Database.write, h]

theorem disregards_foldCursor {step : β → ρ → Action σ β} (hstep : ∀ b r, Disregards (step b r))
    (n : Nat) {c : Cursor ρ} (hc : c.source.Disregards) (b : β) :
    Disregards (foldCursor step n c b) := by
  induction n generalizing c b with
  | zero => exact disregards_pure b
  | succ n ih =>
    intro w scopes
    have hsame : c.next (w.withScopes scopes).database = c.next w.database :=
      Cursor.next_withScopes hc w.database scopes
    have hsource := c.source_next w.database
    rw [foldCursor, runIn_bind_of_ok (runIn_database _), runIn_bind_of_ok (runIn_database _), hsame]
    rcases hnext : c.next w.database with ⟨row, c'⟩
    rw [hnext] at hsource
    cases row with
    | none => rfl
    | some row =>
      have hc' : c'.source.Disregards := hsource.symm ▸ hc
      refine disregards_bind disregards_checkCancelled (fun _ => ?_) w scopes
      refine disregards_bind (disregards_ofExcept row) fun r => ?_
      exact disregards_bind (hstep b r) fun b' => ih hc' b'

theorem disregards_foldSource {step : β → ρ → Action σ β} (hstep : ∀ b r, Disregards (step b r))
    {source : Source ρ} (h : source.Disregards) (batchSize : Nat) (b : β) :
    Disregards (foldSource source batchSize step b) := by
  intro w scopes
  have hbound : source.bound (w.withScopes scopes).database = source.bound w.database :=
    h.bound w.database scopes
  rw [foldSource, runIn_bind_of_ok (runIn_database _), runIn_bind_of_ok (runIn_database _), hbound]
  exact disregards_foldCursor hstep _ h b w scopes

end Action

namespace Collector

variable (c : Collector) (service : Service σ)

theorem disregards_stage (input : Option Json) (request : Request) (page : Page) :
    Action.Disregards (c.stage service input request page) := by
  rw [stage]
  by_cases hempty : page.records.isEmpty = true
  · rw [if_pos hempty]
    exact Action.disregards_pure ()
  · rw [if_neg hempty]
    exact Action.disregards_write fun _ _ => rfl

theorem disregards_visit (staged : Bool) (input : Option Json) (path : String) (offset : Nat) :
    Action.Disregards (c.visit service staged input path offset) := by
  rw [visit]
  refine Action.disregards_bind Action.disregards_checkCancelled fun _ => ?_
  refine Action.disregards_bind (Action.disregards_ask service _) fun answer => ?_
  refine Action.disregards_bind (Action.disregards_ofExcept _) fun page => ?_
  refine Action.disregards_bind ?_ fun _ => Action.disregards_pure page
  cases staged with
  | true => exact c.disregards_stage service input _ page
  | false => exact Action.disregards_pure _

theorem disregards_walk (staged : Bool) (input : Option Json) (path : String) (n offset : Nat) :
    Action.Disregards (c.walk service staged input path n offset) := by
  induction n generalizing offset with
  | zero => exact fun _ _ => rfl
  | succ n ih =>
    rw [walk_succ]
    have hvisit := c.disregards_visit service staged input path offset
    refine Action.disregards_bind hvisit fun page => ?_
    cases c.isLast page with
    | true => exact Action.disregards_pure _
    | false => exact Action.disregards_bind (ih _) fun rest => Action.disregards_pure _

theorem disregards_walkFor (staged : Bool) (input : Option Json) :
    Action.Disregards (c.walkFor service staged input) := by
  rw [walkFor]
  refine Action.disregards_bind (Action.disregards_ofExcept _) fun path => ?_
  -- Of the world only the number of requests that may be made is looked at.
  intro w scopes
  rw [Action.runIn_bind_of_ok (Action.runIn_world _),
    Action.runIn_bind_of_ok (Action.runIn_world _)]
  exact c.disregards_walk service staged input path (w.budget + 1) 0 w scopes

theorem disregards_send (input : Option Json) (path : String) (offset : Nat) :
    Action.Disregards (c.send service input path offset) := by
  refine Action.disregards_bind Action.disregards_checkCancelled fun _ => ?_
  exact Action.disregards_bind (Action.disregards_send service _) fun _ => Action.disregards_pure _

theorem disregards_settle (staged : Bool) (p : Pending) :
    Action.Disregards (c.settle service staged p) := by
  refine Action.disregards_bind (Action.disregards_ofExcept _) fun answer => ?_
  refine Action.disregards_bind (Action.disregards_ofExcept _) fun page => ?_
  cases staged with
  | true =>
    exact Action.disregards_bind (c.disregards_stage service _ _ page) fun _ =>
      Action.disregards_pure page
  | false => exact Action.disregards_pure page

variable (client : Client σ)

theorem disregards_fanOut (staged : Bool) (n : Nat) (inputs : List Json) (waiting : List Waiting) :
    Action.Disregards (c.fanOut client staged n inputs waiting) := by
  induction n generalizing inputs waiting with
  | zero => exact fun _ _ => rfl
  | succ n ih =>
    intro w scopes
    rw [fanOut, Action.runIn_bind_of_ok (Action.runIn_world _),
      Action.runIn_bind_of_ok (Action.runIn_world _)]
    have hremote : (w.withScopes scopes).remote = w.remote := rfl
    simp only [hremote]
    split
    · exact Action.disregards_pure ∅ w scopes
    · refine Action.disregards_bind (Action.disregards_ofExcept _) (fun path => ?_) w scopes
      exact Action.disregards_bind (c.disregards_send client.toService _ path 0) fun p => ih _ _
    · refine Action.disregards_bind (c.disregards_settle client.toService staged _)
        (fun page => ?_) w scopes
      cases c.isLast page with
      | true => exact Action.disregards_bind (ih _ _) fun f => Action.disregards_pure _
      | false =>
        exact Action.disregards_bind (c.disregards_send client.toService _ _ _) fun q => ih _ _

theorem disregards_gather (staged : Bool) : Action.Disregards (c.gather client staged) := by
  rw [gather]
  cases c.inputs with
  | none => exact c.disregards_walkFor client.toService staged none
  | some inputs =>
    intro w scopes
    rw [Action.runIn_bind_of_ok (Action.runIn_world _),
      Action.runIn_bind_of_ok (Action.runIn_world _)]
    exact c.disregards_fanOut client staged _ inputs [] w scopes

theorem disregards_execute : Action.Disregards (c.execute client) := by
  refine Action.disregards_bind (Action.disregards_write fun _ _ => rfl) fun _ => ?_
  exact Action.disregards_bind (c.disregards_gather client true) fun _ => Action.disregards_pure _

theorem disregards_fetchAll : Action.Disregards (c.fetchAll client) :=
  Action.disregards_bind (c.disregards_gather client false) fun _ => Action.disregards_pure _

end Collector

namespace RunContext

variable (ctx : RunContext) (client : Client σ)

theorem disregards_inputsOf (parents : Parents) :
    Action.Disregards (ctx.inputsOf parents : Action σ (List Json)) := by
  have hlist : ∀ (ρ : Type) [Streamed ρ] (db : Database) (scopes : ScopeTable),
      (Cursor.start (toolSource ρ ctx.scope) ctx.settings.batchSize).toList (db.withScopes scopes) =
        (Cursor.start (toolSource ρ ctx.scope) ctx.settings.batchSize).toList db := by
    intro ρ _ db scopes
    have hsource := toolSource_disregards ρ ctx.scope
    have hbound := hsource.bound db scopes
    rw [Cursor.toList, Cursor.toList, Cursor.take_withScopes hsource]
    exact congrArg (fun n => Cursor.take db (n + 1) _) hbound
  cases parents with
  | suites =>
    exact Action.disregards_bind (Action.disregards_query (hlist Tool.Suite)) fun _ =>
      Action.disregards_pure _
  | runs =>
    exact Action.disregards_bind (Action.disregards_query (hlist Tool.Run)) fun _ =>
      Action.disregards_pure _

theorem disregards_collect (kind : EntityKind) :
    Action.Disregards (ctx.collect client kind) := by
  rw [collect]
  cases kind.stagingName with
  | none => exact Action.disregards_pure _
  | some table =>
    cases hendpoint : Endpoint.of? kind with
    | some e =>
      simp only [collectEndpoint]
      cases e.parents with
      | none => exact Collector.disregards_execute _ client
      | some parents =>
        refine Action.disregards_bind ?_ fun inputs => Collector.disregards_execute _ client
        intro w scopes
        rw [Action.runIn_map, Action.runIn_map, ctx.disregards_inputsOf parents w scopes]
    | none =>
      simp only [collectPlans]
      exact Action.disregards_bind (Collector.disregards_fetchAll _ client) fun listed =>
        Collector.disregards_execute _ client

theorem disregards_putRows (rows : List Tool.Row) :
    Action.Disregards (putRows rows : Action σ Unit) := by
  induction rows with
  | nil => exact Action.disregards_pure ()
  | cons r rows ih =>
    exact Action.disregards_bind (Action.disregards_write fun _ _ => rfl) fun _ => ih

theorem disregards_extractRecord (kind : EntityKind) (stats : ExtractStats) (r : StagedRecord) :
    Action.Disregards (ctx.extractRecord kind stats r : Action σ ExtractStats) := by
  rw [extractRecord]
  cases Tool.rowsOfRecord kind ctx.scope r.data r.input with
  | ok rows =>
    exact Action.disregards_bind (disregards_putRows rows) fun _ => Action.disregards_pure _
  | error e =>
    cases ctx.settings.onParseError with
    | abort => exact fun _ _ => rfl
    | skip => exact Action.disregards_pure _

theorem disregards_extract (kind : EntityKind) :
    Action.Disregards (ctx.extract kind : Action σ ExtractStats) := by
  rw [extract]
  cases kind.stagingName with
  | none => exact Action.disregards_pure _
  | some table =>
    exact Action.disregards_foldSource (ctx.disregards_extractRecord kind)
      (stagedSource_disregards table ctx.scope) _ _

theorem disregards_convertRow (stats : ConvertStats) (r : Tool.Row) :
    Action.Disregards (ctx.convertRow stats r : Action σ ConvertStats) := by
  rw [convertRow]
  cases Domain.convert ctx.config r with
  | row d =>
    exact Action.disregards_bind (Action.disregards_write fun _ _ => rfl) fun _ =>
      Action.disregards_pure _
  | filtered => exact Action.disregards_pure _
  | noCounterpart => exact Action.disregards_pure _

theorem disregards_convert (kind : EntityKind) :
    Action.Disregards (ctx.convert kind : Action σ ConvertStats) := by
  have hall : ∀ (ρ : Type) [Streamed ρ],
      Action.Disregards (ctx.convertAll ρ : Action σ ConvertStats) := fun ρ _ =>
    Action.disregards_foldSource (fun stats r => ctx.disregards_convertRow stats (Streamed.toRow r))
      (toolSource_disregards ρ ctx.scope) _ _
  cases kind with
  | project => exact hall Tool.Project
  | case => exact hall Tool.Case
  | run => exact hall Tool.Run
  | result => exact hall Tool.Result
  | _ => exact Action.disregards_pure _

theorem disregards_runStep (s : Subtask) : Action.Disregards (ctx.runStep client s) := by
  refine Action.disregards_bind Action.disregards_checkCancelled fun _ => ?_
  cases s.phase with
  | collect =>
    exact Action.disregards_bind (ctx.disregards_collect client s.entity) fun _ =>
      Action.disregards_pure _
  | extract =>
    exact Action.disregards_bind (ctx.disregards_extract s.entity) fun _ =>
      Action.disregards_pure _
  | convert =>
    exact Action.disregards_bind (ctx.disregards_convert s.entity) fun _ =>
      Action.disregards_pure _

theorem runSteps_withScopes (steps : List Subtask) (w : World σ) (scopes : ScopeTable) :
    (ctx.runSteps client steps).run (w.withScopes scopes) =
      (((ctx.runSteps client steps).run w).1,
        ((ctx.runSteps client steps).run w).2.withScopes scopes) := by
  induction steps generalizing w with
  | nil => rfl
  | cons s steps ih =>
    have hscopes := ctx.disregards_runStep client s w scopes
    rcases hstep : (ctx.runStep client s).runIn w with ⟨r, v⟩
    rw [hstep] at hscopes
    cases r with
    | error e => rw [runSteps_cons_of_error _ hscopes, runSteps_cons_of_error _ hstep]
    | ok o => rw [runSteps_cons_of_ok _ hscopes, runSteps_cons_of_ok _ hstep, ih]

def passing (config : Option ScopeConfig) : RunContext :=
  { ctx with options := { ctx.options with scopeConfig := config } }

theorem runSteps_passing (config : Option ScopeConfig) (steps : List Subtask) (w : World σ) :
    ((ctx.passing config).runSteps client steps).run w = (ctx.runSteps client steps).run w := by
  have hstep : ∀ s, (ctx.passing config).runStep client s = ctx.runStep client s := fun _ => rfl
  induction steps generalizing w with
  | nil => rfl
  | cons s steps ih =>
    rcases hrun : (ctx.runStep client s).runIn w with ⟨r, v⟩
    have hrun' : ((ctx.passing config).runStep client s).runIn w = (r, v) := by
      rw [hstep, hrun]
    cases r with
    | error e => rw [runSteps_cons_of_error _ hrun, runSteps_cons_of_error _ hrun']
    | ok o => rw [runSteps_cons_of_ok _ hrun, runSteps_cons_of_ok _ hrun', ih]

/-- A run from its options on: the context is made, and then the selected steps are done. -/
def runFrom (options : RunOptions) (settings : PipelineSettings) (selection : List Subtask)
    (w : World σ) : Except Error RunReport × World σ :=
  match (prepare options settings).runIn w with
  | (.error e, v) => (.error e, v)
  | (.ok ctx, v) =>
    (.ok ((ctx.runSelection client selection).run v).1,
      ((ctx.runSelection client selection).run v).2)

variable {client} {options : RunOptions} {settings : PipelineSettings}
  {selection : List Subtask} {passed : Option ScopeConfig}

theorem runFrom_eq (options : RunOptions) (w : World σ) :
    runFrom client options settings selection w =
      match contextOf options settings w.database with
      | .error e => (.error e, w)
      | .ok ctx =>
        (.ok ((ctx.runSelection client selection).run w).1,
          ((ctx.runSelection client selection).run w).2) := by
  rw [runFrom, runIn_prepare]
  cases contextOf options settings w.database <;> rfl

theorem contextOf_passing {db db' : Database}
    (h : configIn { options with scopeConfig := passed } db' = configIn options db) :
    contextOf { options with scopeConfig := passed } settings db' =
      (contextOf options settings db).map (·.passing passed) := by
  have hvalid : ({ options with scopeConfig := passed } : RunOptions).validate =
      options.validate := rfl
  rw [contextOf, contextOf, hvalid, h]
  cases options.validate with
  | error e => rfl
  | ok _ =>
    cases settings.validate with
    | error e => rfl
    | ok _ => cases configIn options db <;> rfl

theorem runFrom_of_configIn (options : RunOptions) {w : World σ} {scopes : ScopeTable}
    (h : configIn { options with scopeConfig := passed } (w.database.withScopes scopes) =
      configIn options w.database) :
    runFrom client { options with scopeConfig := passed } settings selection
        (w.withScopes scopes) =
      ((runFrom client options settings selection w).1,
        (runFrom client options settings selection w).2.withScopes scopes) := by
  have hcontext : contextOf { options with scopeConfig := passed } settings
      (w.withScopes scopes).database =
        (contextOf options settings w.database).map (·.passing passed) := contextOf_passing h
  rw [runFrom_eq, runFrom_eq, hcontext]
  cases contextOf options settings w.database with
  | error e => rfl
  | ok ctx =>
    have hpassing := ctx.runSteps_passing client passed (Subtask.inOrder selection)
      (w.withScopes scopes)
    have hrun := hpassing.trans
      (ctx.runSteps_withScopes client (Subtask.inOrder selection) w scopes)
    simp only [Except.map, runSelection, hrun]

/-- Configurations that were stored one after another, their maps in any order, are read back, the
last of each scope. A run without a configuration in its options, behind them, does what a run with
the last of its scope in its options does, whatever is stored then: with the same outcome, requests
and answers, and with the same tables except for the configurations, which both leave alone. -/
theorem stored_config_interchangeable {writes : List ScopeWrite}
    (hids : ∀ w ∈ writes, w.config.HasSignedIds) (t : Tables) :
    ∃ stored, writes.foldlM (fun db w => db.putScope w.scope w.config w.order)
        (Database.migrated t) = .ok (.migrated (t.withScopes stored)) ∧
      (∀ scope, (Database.migrated (t.withScopes stored)).scopeConfig? scope =
        match lastUnder ScopeWrite.scope writes scope with
        | some w => .ok (some w.config)
        | none => (Database.migrated t).scopeConfig? scope) ∧
      (∀ scope, t.scopes.get? scope = none →
        (Database.migrated t).scopeConfig? scope = .ok none) ∧
      ∀ (client : Client σ) (options : RunOptions) (last : ScopeWrite)
        (settings : PipelineSettings) (selection : List Subtask) (w : World σ)
        (scopes : ScopeTable), w.database = .migrated t →
        lastUnder ScopeWrite.scope writes options.scope = some last →
        runFrom client { options with scopeConfig := none } settings selection
            (w.withScopes stored) =
          ((runFrom client { options with scopeConfig := some last.config } settings selection
              (w.withScopes scopes)).1,
            (runFrom client { options with scopeConfig := some last.config } settings selection
              (w.withScopes scopes)).2.withScopes stored) := by
  refine ⟨_, Database.foldlM_putScope writes t, Database.scopeConfig?_storeScopes hids t, ?_, ?_⟩
  · intro scope hnone
    simp only [Database.scopeConfig?, Database.scopeText?, Database.read, hnone]
    rfl
  · intro client options last settings selection w scopes hw hlast
    have hstored := Database.scopeConfig?_storeScopes hids t options.scope
    rw [hlast] at hstored
    obtain ⟨db, remote, calls, budget, cancelled⟩ := w
    obtain rfl : db = .migrated t := hw
    exact runFrom_of_configIn { options with scopeConfig := some last.config }
      (w := World.withScopes ⟨.migrated t, remote, calls, budget, cancelled⟩ scopes) hstored

def escapedKey : ScopeConfig :=
  { ScopeConfig.empty with
    statuses := (Table.empty.insert "\"5\"\n" "lost").insert "5" "PASSED"
    excludedSuites := [5] }

/-- Two configurations for project 7, and one for another project in between. The last has its keys
from the greatest to the least. -/
def storedTwice : List ScopeWrite :=
  [⟨⟨1, 7⟩, .empty, .ascending⟩, ⟨⟨1, 8⟩, .empty, .ascending⟩,
    ⟨⟨1, 7⟩, escapedKey, fun _ a b => KeyOrder.before b a⟩]

def beforeStoring : World Unit :=
  ⟨.migrated twoSuites, (), [], 100, false⟩

theorem stored_config_interchangeable_twice :
    ∃ stored,
      storedTwice.foldlM (fun db w => db.putScope w.scope w.config w.order)
        (Database.migrated twoSuites) = .ok (.migrated (twoSuites.withScopes stored)) ∧
      (Database.migrated (twoSuites.withScopes stored)).scopeConfig? ⟨1, 7⟩ =
        .ok (some escapedKey) ∧
      (Database.migrated (twoSuites.withScopes stored)).scopeConfig? ⟨2, 7⟩ = .ok none ∧
      (runFrom (smallProject.service id true) { connection := 1, project := 7 } {} Subtask.all
        (beforeStoring.withScopes stored)).1 =
      (runFrom (smallProject.service id true)
        { connection := 1, project := 7, scopeConfig := some escapedKey } {} Subtask.all
        (beforeStoring.withScopes .empty)).1 := by
  have hids : ∀ w ∈ storedTwice, w.config.HasSignedIds := by
    intro w hw
    simp only [storedTwice, List.mem_cons, List.not_mem_nil, or_false] at hw
    obtain rfl | rfl | rfl := hw <;> exact ⟨by decide, by decide, by decide⟩
  obtain ⟨stored, hwrites, hread, hnone, hrun⟩ :=
    stored_config_interchangeable (σ := Unit) hids twoSuites
  have hlast : lastUnder ScopeWrite.scope storedTwice ⟨1, 7⟩ =
      some ⟨⟨1, 7⟩, escapedKey, fun _ a b => KeyOrder.before b a⟩ := rfl
  have hother : lastUnder ScopeWrite.scope storedTwice ⟨2, 7⟩ = none := rfl
  have hread₁ := hread ⟨1, 7⟩
  have hread₂ := hread ⟨2, 7⟩
  have hsame := hrun (smallProject.service id true) { connection := 1, project := 7 } _ {}
    Subtask.all beforeStoring .empty rfl hlast
  rw [hlast] at hread₁
  rw [hother] at hread₂
  refine ⟨stored, hwrites, hread₁, hread₂.trans (hnone ⟨2, 7⟩ rfl), ?_⟩
  rw [hsame]

end RunContext

end QaLake
