import QaLake.Proofs.Sync.Step

namespace QaLake

open Store

variable {σ α β : Type}

namespace Action

/-- Whether an action leaves the database as it is, whether it succeeds or not. -/
def Keeps (a : Action σ α) : Prop :=
  ∀ w, (a.runIn w).2.database = w.database

theorem keeps_pure (a : α) : Keeps (pure a : Action σ α) :=
  fun _ => rfl

theorem keeps_ofExcept (r : Except Error α) : Keeps (ofExcept r : Action σ α) :=
  fun _ => rfl

theorem keeps_bind {a : Action σ α} {f : α → Action σ β} (ha : Keeps a) (hf : ∀ x, Keeps (f x)) :
    Keeps (a >>= f) := by
  intro w
  have hw := ha w
  rw [runIn_bind]
  rcases h : a.runIn w with ⟨r, v⟩
  rw [h] at hw
  cases r with
  | error e => exact hw
  | ok x => exact (hf x v).trans hw

theorem keeps_checkCancelled : Keeps (checkCancelled : Action σ Unit) := by
  intro w
  rw [runIn_checkCancelled]
  cases w.cancelled <;> rfl

theorem keeps_send (service : Service σ) (request : Request) : Keeps (send service request) := by
  rintro ⟨db, remote, calls, budget, cancelled⟩
  cases budget <;> rfl

theorem keeps_ask (service : Service σ) (request : Request) : Keeps (ask service request) :=
  keeps_bind (keeps_send service request) fun answer => keeps_ofExcept answer

end Action

namespace Collector

variable (c : Collector) (service : Service σ)

theorem keeps_visit (input : Option Json) (path : String) (offset : Nat) :
    Action.Keeps (c.visit service false input path offset) := by
  rw [visit]
  refine Action.keeps_bind Action.keeps_checkCancelled fun _ => ?_
  refine Action.keeps_bind (Action.keeps_ask service _) fun answer => ?_
  exact Action.keeps_bind (Action.keeps_ofExcept _) fun page =>
    Action.keeps_bind (Action.keeps_pure ()) fun _ => Action.keeps_pure page

theorem keeps_walk (input : Option Json) (path : String) (n offset : Nat) :
    Action.Keeps (c.walk service false input path n offset) := by
  induction n generalizing offset with
  | zero => exact fun _ => rfl
  | succ n ih =>
    rw [walk_succ]
    refine Action.keeps_bind (c.keeps_visit service input path offset) fun page => ?_
    cases c.isLast page with
    | true => exact Action.keeps_pure _
    | false => exact Action.keeps_bind (ih _) fun rest => Action.keeps_pure _

theorem keeps_walkFor (input : Option Json) : Action.Keeps (c.walkFor service false input) := by
  rw [walkFor]
  refine Action.keeps_bind (Action.keeps_ofExcept _) fun path => ?_
  exact Action.keeps_bind (fun _ => rfl) fun w => c.keeps_walk service input path _ 0

theorem keeps_fetchAll (client : Client σ) (hinputs : c.inputs = none) :
    Action.Keeps (c.fetchAll client) := by
  have hgather : c.gather client false = c.walkFor client.toService false none := by
    rw [gather, hinputs]
  rw [fetchAll, hgather]
  exact Action.keeps_bind (c.keeps_walkFor client.toService none) fun f => Action.keeps_pure _

theorem execute_unmigrated (client : Client σ) {w : World σ} (hw : w.database = .unmigrated) :
    ∃ e v, (c.execute client).runIn w = (.error e, v) := by
  have hclear : (Action.update fun db => db.clearStaged c.table c.scope : Action σ Unit).runIn w =
      (.error .database, w) := by
    rw [Action.runIn_update, hw]
    rfl
  exact ⟨_, _, Action.runIn_bind_of_error hclear⟩

end Collector

theorem Action.foldSource_unreadable {ρ : Type} {source : Source ρ} {batchSize : Nat}
    {step : β → ρ → Action σ β} {b : β} {w : World σ} {e : Error}
    (hbatch : ∀ limit, source.batch w.database 0 limit = .error e) :
    ∃ e v, (foldSource source batchSize step b).runIn w = (.error e, v) := by
  have hnext : (Cursor.start source batchSize).next w.database =
      (some (.error e), { Cursor.start source batchSize with exhausted := true }) := by
    simp [Cursor.next, Cursor.start, hbatch]
  rw [foldSource, runIn_bind_of_ok (runIn_database w), foldCursor,
    runIn_bind_of_ok (runIn_database w), hnext]
  simp only [runIn_bind, runIn_checkCancelled]
  cases w.cancelled with
  | true => exact ⟨_, _, rfl⟩
  | false => exact ⟨_, _, rfl⟩

namespace RunContext

variable {ctx : RunContext} {client : Client σ} {w : World σ}

variable (ctx) in
theorem inputsOf_unmigrated (parents : Parents) (hw : w.database = .unmigrated) :
    ∃ e v, (ctx.inputsOf parents).runIn w = (.error e, v) := by
  have hlist : ∀ (ρ : Type) [Streamed ρ], (Cursor.start (toolSource ρ ctx.scope)
      ctx.settings.batchSize).toList w.database = .error .database := by
    intro ρ _
    rw [hw]
    rfl
  cases parents with
  | suites =>
    refine ⟨.database, w, Action.runIn_bind_of_error ?_⟩
    rw [Action.runIn_query, hlist]
  | runs =>
    refine ⟨.database, w, Action.runIn_bind_of_error ?_⟩
    rw [Action.runIn_query, hlist]

theorem collect_unmigrated {kind : EntityKind} {table : String}
    (htable : kind.stagingName = some table) (hw : w.database = .unmigrated) :
    ∃ e v, (ctx.collect client kind).runIn w = (.error e, v) := by
  rw [collect, htable]
  cases hendpoint : Endpoint.of? kind with
  | some e =>
    simp only [collectEndpoint]
    cases e.parents with
    | none => exact Collector.execute_unmigrated _ client hw
    | some parents =>
      obtain ⟨failure, v, hinputs⟩ := inputsOf_unmigrated ctx parents hw
      have hmap : (some <$> ctx.inputsOf parents : Action σ _).runIn w = (.error failure, v) := by
        rw [Action.runIn_map, hinputs]
        rfl
      exact ⟨failure, v, Action.runIn_bind_of_error hmap⟩
  | none =>
    simp only [collectPlans]
    have hkeeps := (Endpoint.planListing.collector ctx table none).keeps_fetchAll client rfl w
    rcases hlist : ((Endpoint.planListing.collector ctx table none).fetchAll client).runIn w with
      ⟨r, v⟩
    rw [hlist] at hkeeps
    cases r with
    | error e => exact ⟨e, v, Action.runIn_bind_of_error hlist⟩
    | ok listed =>
      rw [Action.runIn_bind_of_ok hlist]
      exact Collector.execute_unmigrated _ client (hkeeps.trans hw)

theorem extract_unmigrated {kind : EntityKind} {table : String}
    (htable : kind.stagingName = some table) (hw : w.database = .unmigrated) :
    ∃ e v, (ctx.extract kind).runIn w = (.error e, v) := by
  rw [extract, htable]
  refine Action.foldSource_unreadable (e := .database) fun limit => ?_
  rw [hw]
  rfl

theorem convertAll_unmigrated (ρ : Type) [Streamed ρ] (hw : w.database = .unmigrated) :
    ∃ e v, (ctx.convertAll ρ).runIn w = (.error e, v) := by
  refine Action.foldSource_unreadable (e := .database) fun limit => ?_
  rw [hw]
  rfl

theorem migrated_of_runStep {s : Subtask} {o : StepOutcome} {w' : World σ}
    (h : (ctx.runStep client s).runIn w = (.ok o, w')) : ∃ t, w.database = .migrated t := by
  cases hw : w.database with
  | migrated t => exact ⟨t, rfl⟩
  | unmigrated =>
    exfalso
    rw [runStep] at h
    obtain ⟨_, v, hcheck, hphase⟩ := Action.runIn_bind_ok_iff.1 h
    obtain ⟨-, rfl⟩ := Action.runIn_checkCancelled_ok.1 hcheck
    have hfails : ∀ {γ : Type} {a : Action σ γ} {f : γ → Action σ StepOutcome},
        (∃ e u, a.runIn v = (.error e, u)) → (a >>= f).runIn v ≠ (.ok o, w') := by
      rintro γ a f ⟨e, u, ha⟩ hok
      rw [Action.runIn_bind_of_error ha] at hok
      cases hok
    obtain ⟨phase, kind, valid⟩ := s
    obtain ⟨table, htable⟩ := EntityKind.stagingName_of_hasPhase valid
    cases phase with
    | collect => exact hfails (collect_unmigrated htable hw) hphase
    | extract => exact hfails (extract_unmigrated htable hw) hphase
    | convert =>
      refine hfails ?_ hphase
      cases kind with
      | project => exact convertAll_unmigrated Tool.Project hw
      | case => exact convertAll_unmigrated Tool.Case hw
      | run => exact convertAll_unmigrated Tool.Run hw
      | result => exact convertAll_unmigrated Tool.Result hw
      | _ => cases valid

theorem runSteps_nil_of_unmigrated {steps : List Subtask} {w w' : World σ}
    {report : RunReport} (hw : w.database = .unmigrated)
    (h : (ctx.runSteps client steps).run w = (report, w')) (hok : report.failure = none) :
    steps = [] := by
  cases steps with
  | nil => rfl
  | cons s steps =>
    rcases hstep : (ctx.runStep client s).runIn w with ⟨r, v⟩
    cases r with
    | error e =>
      rw [runSteps_cons_of_error steps hstep] at h
      obtain ⟨rfl, -⟩ := Prod.mk.inj h
      cases hok
    | ok o =>
      obtain ⟨t, ht⟩ := migrated_of_runStep hstep
      rw [hw] at ht
      cases ht

end RunContext

end QaLake
