import Mathlib.Logic.Relation
import QaLake.Proofs.Sync.Places
import QaLake.Proofs.Sync.Unmigrated

namespace QaLake

open Store Relation

variable {σ α β ρ : Type}

/-- A single write of a step: a collection clears what was staged and stages pages, an extraction
writes tool rows of the scope, and a conversion writes domain rows with identifiers of the
connection. -/
inductive Subtask.Write (s : Subtask) (scope : RunScope) : Tables → Tables → Prop
  | clear {t : Tables} {table : String} (hphase : s.phase = .collect)
      (htable : s.entity.stagingName = some table) :
      Write s scope t { t with staging := t.staging.delete table scope.tag }
  | page {t : Tables} {table : String} (hphase : s.phase = .collect)
      (htable : s.entity.stagingName = some table) (url : String) {input : Option Json}
      (hinput : ∀ j ∈ input, ∃ id, j = RunContext.inputOf id) (records : List Json) :
      Write s scope t { t with staging := t.staging.insertPage table scope.tag url input records }
  | tool {t : Tables} {r : Tool.Row} (hphase : s.phase = .extract)
      (hkind : r.kind ∈ s.entity.described) (hscope : r.IsOf scope) :
      Write s scope t { t with tool := t.tool.insert r }
  | domain {t : Tables} {d : Domain.Row} (hphase : s.phase = .convert)
      (hkind : d.kind ∈ s.entity.convertedKinds)
      (hid : ∃ id, d.id = Domain.idOf s.entity scope.connection id) :
      Write s scope t { t with domain := t.domain.insert d }

namespace Action

/-- Whether whatever an action does to tables is made of single writes, also where it fails. -/
def Moves (W : Tables → Tables → Prop) (a : Action σ α) : Prop :=
  ∀ w t, w.database = .migrated t →
    ∃ u, (a.runIn w).2.database = .migrated u ∧ ReflTransGen W t u

variable {W : Tables → Tables → Prop}

theorem moves_of_keeps {a : Action σ α} (h : Keeps a) : Moves W a :=
  fun w t hw => ⟨t, (h w).trans hw, ReflTransGen.refl⟩

theorem moves_bind {a : Action σ α} {f : α → Action σ β} (ha : Moves W a)
    (hf : ∀ x, Moves W (f x)) : Moves W (a >>= f) := by
  intro w t hw
  obtain ⟨u, hu, htu⟩ := ha w t hw
  rw [runIn_bind]
  rcases h : a.runIn w with ⟨r, v⟩
  rw [h] at hu
  cases r with
  | error e => exact ⟨u, hu, htu⟩
  | ok x =>
    obtain ⟨u', hu', huu'⟩ := hf x v u hu
    exact ⟨u', hu', htu.trans huu'⟩

theorem moves_update {f : Tables → Tables} (h : ∀ t, W t (f t)) :
    Moves W (update fun db => db.write f : Action σ Unit) := by
  intro w t hw
  rw [runIn_update, hw]
  exact ⟨f t, rfl, ReflTransGen.single (h t)⟩

theorem moves_foldCursor {step : β → ρ → Action σ β} (h : ∀ b r, Moves W (step b r)) (n : Nat)
    (c : Cursor ρ) (b : β) : Moves W (foldCursor step n c b) := by
  induction n generalizing c b with
  | zero => exact moves_of_keeps (keeps_pure b)
  | succ n ih =>
    intro w
    rw [foldCursor, runIn_bind_of_ok (runIn_database w)]
    rcases c.next w.database with ⟨row, c'⟩
    cases row with
    | none => exact moves_of_keeps (keeps_pure b) w
    | some row =>
      refine moves_bind (moves_of_keeps keeps_checkCancelled) (fun _ => ?_) w
      refine moves_bind (moves_of_keeps (keeps_ofExcept row)) fun r => ?_
      exact moves_bind (h b r) fun b' => ih c' b'

theorem moves_foldSource {step : β → ρ → Action σ β} (h : ∀ b r, Moves W (step b r))
    (source : Source ρ) (batchSize : Nat) (b : β) :
    Moves W (foldSource source batchSize step b) := by
  intro w
  rw [foldSource, runIn_bind_of_ok (runIn_database w)]
  exact moves_foldCursor h _ _ b w

theorem moves_foldRows {step : β → ρ → Action σ β} {rows : List ρ}
    (h : ∀ b, ∀ r ∈ rows, Moves W (step b r)) (b : β) : Moves W (foldRows step rows b) := by
  induction rows generalizing b with
  | nil => exact moves_of_keeps (keeps_pure b)
  | cons r rows ih =>
    refine moves_bind (moves_of_keeps keeps_checkCancelled) fun _ => ?_
    refine moves_bind (h b r List.mem_cons_self) fun b' => ?_
    exact ih (fun b r hr => h b r (List.mem_cons_of_mem _ hr)) b'

end Action

namespace Collector

variable (c : Collector) (service : Service σ) {W : Tables → Tables → Prop}

section Pages

variable {input : Option Json}
  (hpage : ∀ (t : Tables) url records, W t
    { t with staging := t.staging.insertPage c.table c.scope.tag url input records })

include hpage

theorem moves_stage (request : Request) (page : Page) :
    Action.Moves W (c.stage service input request page) := by
  rw [stage]
  by_cases hempty : page.records.isEmpty = true
  · rw [if_pos hempty]
    exact Action.moves_of_keeps (Action.keeps_pure ())
  · rw [if_neg hempty]
    exact Action.moves_update fun t => hpage t _ _

theorem moves_visit (path : String) (offset : Nat) :
    Action.Moves W (c.visit service true input path offset) := by
  rw [visit]
  refine Action.moves_bind (Action.moves_of_keeps Action.keeps_checkCancelled) fun _ => ?_
  refine Action.moves_bind (Action.moves_of_keeps (Action.keeps_ask service _)) fun answer => ?_
  refine Action.moves_bind (Action.moves_of_keeps (Action.keeps_ofExcept _)) fun page => ?_
  refine Action.moves_bind (c.moves_stage service hpage _ page) fun _ => ?_
  exact Action.moves_of_keeps (Action.keeps_pure page)

theorem moves_walk (path : String) (n offset : Nat) :
    Action.Moves W (c.walk service true input path n offset) := by
  induction n generalizing offset with
  | zero => exact Action.moves_of_keeps fun _ => rfl
  | succ n ih =>
    rw [walk_succ]
    refine Action.moves_bind (c.moves_visit service hpage path offset) fun page => ?_
    cases c.isLast page with
    | true => exact Action.moves_of_keeps (Action.keeps_pure _)
    | false =>
      exact Action.moves_bind (ih _) fun rest => Action.moves_of_keeps (Action.keeps_pure _)

theorem moves_walkFor : Action.Moves W (c.walkFor service true input) := by
  rw [walkFor]
  refine Action.moves_bind (Action.moves_of_keeps (Action.keeps_ofExcept _)) fun path => ?_
  refine Action.moves_bind (Action.moves_of_keeps fun _ => rfl) fun w => ?_
  exact c.moves_walk service hpage path _ 0

end Pages

theorem moves_send_bind {input : Option Json} (path : String) (offset : Nat)
    {f : Pending → Action σ α} (hf : ∀ p : Pending, p.input = input → Action.Moves W (f p)) :
    Action.Moves W (c.send service input path offset >>= f) := by
  simp only [send, bind_assoc, pure_bind]
  refine Action.moves_bind (Action.moves_of_keeps Action.keeps_checkCancelled) fun _ => ?_
  refine Action.moves_bind (Action.moves_of_keeps (Action.keeps_send service _)) fun answer => ?_
  exact hf _ rfl

theorem moves_settle {p : Pending} (hpage : ∀ (t : Tables) url records, W t
    { t with staging := t.staging.insertPage c.table c.scope.tag url p.input records }) :
    Action.Moves W (c.settle service true p) := by
  refine Action.moves_bind (Action.moves_of_keeps (Action.keeps_ofExcept _)) fun answer => ?_
  refine Action.moves_bind (Action.moves_of_keeps (Action.keeps_ofExcept _)) fun page => ?_
  refine Action.moves_bind (c.moves_stage service hpage _ page) fun _ => ?_
  exact Action.moves_of_keeps (Action.keeps_pure page)

theorem moves_fanOut (client : Client σ) (n : Nat) {inputs : List Json} {waiting : List Waiting}
    (hinputs : ∀ input ∈ inputs, ∀ (t : Tables) url records, W t
      { t with staging := t.staging.insertPage c.table c.scope.tag url (some input) records })
    (hwaiting : ∀ p ∈ waiting, ∀ (t : Tables) url records, W t
      { t with staging := t.staging.insertPage c.table c.scope.tag url p.input records }) :
    Action.Moves W (c.fanOut client true n inputs waiting) := by
  induction n generalizing inputs waiting with
  | zero => exact Action.moves_of_keeps fun _ => rfl
  | succ n ih =>
    intro w
    rw [fanOut, Action.runIn_bind_of_ok (Action.runIn_world w)]
    obtain ⟨input, rest, hturn, rfl, -⟩ | ⟨before, p, after, hturn, rfl⟩ | ⟨hturn, -, -⟩ :=
      c.turn_cases (client.arrived w.remote (waiting.map (·.request))) inputs waiting
    · simp only [hturn]
      obtain ⟨hinput, hrest⟩ := List.forall_mem_cons.1 hinputs
      refine Action.moves_bind (Action.moves_of_keeps (Action.keeps_ofExcept _)) (fun path => ?_) w
      refine c.moves_send_bind client.toService path 0 fun p hp => ih hrest ?_
      exact List.forall_mem_append.2 ⟨hwaiting, List.forall_mem_singleton.2 (hp ▸ hinput)⟩
    · simp only [hturn]
      obtain ⟨hbefore, hp⟩ := List.forall_mem_append.1 hwaiting
      obtain ⟨hp, hafter⟩ := List.forall_mem_cons.1 hp
      refine Action.moves_bind (c.moves_settle client.toService hp) (fun page => ?_) w
      cases c.isLast page with
      | true =>
        have hrest := ih hinputs (List.forall_mem_append.2 ⟨hbefore, hafter⟩)
        refine Action.moves_bind hrest fun f => ?_
        exact Action.moves_of_keeps (Action.keeps_pure _)
      | false =>
        refine c.moves_send_bind client.toService _ _ fun q hq => ih hinputs ?_
        exact List.forall_mem_append.2 ⟨hbefore, List.forall_mem_cons.2 ⟨hq ▸ hp, hafter⟩⟩
    · simp only [hturn]
      exact Action.moves_of_keeps (Action.keeps_pure _) w

theorem moves_execute (client : Client σ)
    (hclear : ∀ t : Tables, W t { t with staging := t.staging.delete c.table c.scope.tag })
    (hpage : ∀ input ∈ c.walkInputs, ∀ (t : Tables) url records, W t
      { t with staging := t.staging.insertPage c.table c.scope.tag url input records }) :
    Action.Moves W (c.execute client) := by
  refine Action.moves_bind (Action.moves_update hclear) fun _ => ?_
  refine Action.moves_bind ?_ fun f => Action.moves_of_keeps (Action.keeps_pure _)
  rw [gather]
  rw [walkInputs] at hpage
  cases hinputs : c.inputs with
  | none =>
    rw [hinputs] at hpage
    exact c.moves_walkFor client.toService (hpage none (List.mem_singleton_self _))
  | some inputs =>
    rw [hinputs] at hpage
    refine Action.moves_bind (Action.moves_of_keeps fun _ => rfl) fun w => ?_
    exact c.moves_fanOut client _ (fun input hinput => hpage _ (List.mem_map_of_mem hinput))
      (List.forall_mem_nil _)

end Collector

namespace RunContext

variable (ctx : RunContext) (client : Client σ) {s : Subtask}

theorem inputs_of_parentInputs (tool : ToolTables) (parents : Parents) :
    ∀ j ∈ ctx.parentInputs tool parents, ∃ id, j = inputOf id := by
  intro j hj
  cases parents with
  | suites =>
    obtain ⟨r, -, rfl⟩ := List.mem_map.1 hj
    exact ⟨_, rfl⟩
  | runs =>
    obtain ⟨r, -, rfl⟩ := List.mem_map.1 hj
    exact ⟨_, rfl⟩

theorem inputs_of_endpoint (table : String) (e : Endpoint) (tool : ToolTables) :
    ∀ input ∈ (ctx.endpointCollector table e tool).walkInputs, ∀ j ∈ input,
      ∃ id, j = inputOf id := by
  intro input hinput j hj
  have hinputs : (ctx.endpointCollector table e tool).inputs =
      e.parents.map (ctx.parentInputs tool) := rfl
  rw [Collector.walkInputs, hinputs] at hinput
  cases hparents : e.parents with
  | none =>
    rw [hparents] at hinput
    cases List.mem_singleton.1 hinput
    cases hj
  | some parents =>
    rw [hparents] at hinput
    obtain ⟨i, hi, rfl⟩ := List.mem_map.1 hinput
    cases hj
    exact ctx.inputs_of_parentInputs tool parents _ hi

theorem inputs_of_plans (table : String) (listed : List Json) :
    ∀ input ∈ (ctx.planCollector table listed).walkInputs, ∀ j ∈ input, ∃ id, j = inputOf id := by
  intro input hinput j hj
  obtain ⟨i, hi, rfl⟩ := List.mem_map.1 hinput
  cases hj
  obtain ⟨plan, -, hplan⟩ := List.mem_filterMap.1 hi
  obtain ⟨id, -, rfl⟩ := Option.map_eq_some_iff.1 hplan
  exact ⟨id, rfl⟩

theorem moves_collect (hphase : s.phase = .collect) {table : String}
    (htable : s.entity.stagingName = some table) :
    Action.Moves (s.Write ctx.scope) (ctx.collect client s.entity) := by
  have hexecute : ∀ c : Collector, c.table = table → c.scope = ctx.scope →
      (∀ input ∈ c.walkInputs, ∀ j ∈ input, ∃ id, j = inputOf id) →
      Action.Moves (s.Write ctx.scope) (c.execute client) := by
    rintro c rfl hscope hinputs
    apply c.moves_execute client
    · intro t
      rw [hscope]
      exact Subtask.Write.clear hphase htable
    · intro input hinput t url records
      rw [hscope]
      exact Subtask.Write.page hphase htable url (hinputs input hinput) records
  rw [collect, htable]
  cases hendpoint : Endpoint.of? s.entity with
  | some e =>
    intro w t hw
    simp only [ctx.runIn_collectEndpoint table e hw]
    exact hexecute _ rfl rfl (ctx.inputs_of_endpoint table e t.tool) w t hw
  | none =>
    simp only [collectPlans]
    have hlisting := (ctx.listingCollector table).keeps_fetchAll client rfl
    refine Action.moves_bind (Action.moves_of_keeps hlisting) fun listed => ?_
    exact hexecute (ctx.planCollector table listed) rfl rfl (ctx.inputs_of_plans table listed)

theorem moves_putRows {W : Tables → Tables → Prop} {rows : List Tool.Row}
    (h : ∀ r ∈ rows, ∀ t : Tables, W t { t with tool := t.tool.insert r }) :
    Action.Moves W (putRows rows : Action σ Unit) := by
  induction rows with
  | nil => exact Action.moves_of_keeps (Action.keeps_pure ())
  | cons r rows ih =>
    refine Action.moves_bind (Action.moves_update (h r List.mem_cons_self)) fun _ => ?_
    exact ih fun r' hr' => h r' (List.mem_cons_of_mem _ hr')

theorem moves_extractRecord (hphase : s.phase = .extract) (stats : ExtractStats)
    (r : StagedRecord) :
    Action.Moves (s.Write ctx.scope)
      (ctx.extractRecord s.entity stats r : Action σ ExtractStats) := by
  rw [extractRecord]
  cases hrows : Tool.rowsOfRecord s.entity ctx.scope r.data r.input with
  | ok rows =>
    refine Action.moves_bind (moves_putRows fun row hrow t => ?_) fun _ =>
      Action.moves_of_keeps (Action.keeps_pure _)
    obtain ⟨hkind, hscope⟩ := Tool.mem_rowsOfRecord hrows hrow
    exact Subtask.Write.tool hphase hkind hscope
  | error e =>
    cases ctx.settings.onParseError with
    | abort => exact Action.moves_of_keeps fun _ => rfl
    | skip => exact Action.moves_of_keeps (Action.keeps_pure _)

theorem moves_extract (hphase : s.phase = .extract) :
    Action.Moves (s.Write ctx.scope) (ctx.extract s.entity : Action σ ExtractStats) := by
  rw [extract]
  cases s.entity.stagingName with
  | none => exact Action.moves_of_keeps (Action.keeps_pure _)
  | some table => exact Action.moves_foldSource (ctx.moves_extractRecord hphase) _ _ _

theorem moves_convertRow (hphase : s.phase = .convert) (stats : ConvertStats) {r : Tool.Row}
    (hkind : r.kind = s.entity) (hconnection : r.connectionId = ctx.scope.connection) :
    Action.Moves (s.Write ctx.scope) (ctx.convertRow stats r : Action σ ConvertStats) := by
  rw [convertRow]
  cases hrow : Domain.convert ctx.config r with
  | row d =>
    obtain ⟨id, -, hid⟩ := Domain.id_of_convert hrow
    refine Action.moves_bind (Action.moves_update fun t => ?_) fun _ =>
      Action.moves_of_keeps (Action.keeps_pure _)
    apply Subtask.Write.domain hphase
    · rw [← hkind]
      exact kind_of_convert (Domain.Outcome.row?_eq_some_iff.2 hrow)
    · rw [← hkind, ← hconnection]
      exact ⟨id, hid⟩
  | filtered => exact Action.moves_of_keeps (Action.keeps_pure _)
  | noCounterpart => exact Action.moves_of_keeps (Action.keeps_pure _)

theorem moves_convertAll (ρ : Type) [Streamed ρ] [LawfulStreamed ρ] (hphase : s.phase = .convert)
    (hkind : Streamed.kind ρ = s.entity) :
    Action.Moves (s.Write ctx.scope) (ctx.convertAll ρ : Action σ ConvertStats) := by
  intro w t hw
  rw [ctx.runIn_convertAll_eq_foldRows ρ hw]
  refine Action.moves_foldRows (fun stats r hr => ?_) _ w t hw
  have hname := LawfulStreamed.name_toRow r
  apply ctx.moves_convertRow hphase stats
  · rw [← hkind, ← Tool.Row.kind_name, hname]
  · rw [← (scope_of_mem_streamed hr).1, ← Tool.Row.connection_name, hname]

theorem moves_convert (hphase : s.phase = .convert) :
    Action.Moves (s.Write ctx.scope) (ctx.convert s.entity : Action σ ConvertStats) := by
  obtain ⟨phase, kind, valid⟩ := s
  cases kind with
  | project => exact ctx.moves_convertAll Tool.Project hphase rfl
  | case => exact ctx.moves_convertAll Tool.Case hphase rfl
  | run => exact ctx.moves_convertAll Tool.Run hphase rfl
  | result => exact ctx.moves_convertAll Tool.Result hphase rfl
  | _ => exact Action.moves_of_keeps (Action.keeps_pure _)

theorem moves_runStep (s : Subtask) :
    Action.Moves (s.Write ctx.scope) (ctx.runStep client s) := by
  refine Action.moves_bind (Action.moves_of_keeps Action.keeps_checkCancelled) fun _ => ?_
  obtain ⟨table, htable⟩ := EntityKind.stagingName_of_hasPhase s.valid
  cases hphase : s.phase with
  | collect =>
    exact Action.moves_bind (ctx.moves_collect client hphase htable) fun _ =>
      Action.moves_of_keeps (Action.keeps_pure _)
  | extract =>
    exact Action.moves_bind (ctx.moves_extract hphase) fun _ =>
      Action.moves_of_keeps (Action.keeps_pure _)
  | convert =>
    exact Action.moves_bind (ctx.moves_convert hphase) fun _ =>
      Action.moves_of_keeps (Action.keeps_pure _)

theorem moves_runSteps (steps : List Subtask) {w : World σ} {t : Tables}
    (hw : w.database = .migrated t) :
    ∃ u, ((ctx.runSteps client steps).run w).2.database = .migrated u ∧
      ReflTransGen (fun a b => ∃ s ∈ steps, s.Write ctx.scope a b) t u := by
  induction steps generalizing w t with
  | nil => exact ⟨t, hw, ReflTransGen.refl⟩
  | cons s steps ih =>
    obtain ⟨u, hu, htu⟩ := ctx.moves_runStep client s w t hw
    have hfirst : ReflTransGen (fun a b => ∃ s' ∈ s :: steps, s'.Write ctx.scope a b) t u :=
      ReflTransGen.mono (fun _ _ h => ⟨s, List.mem_cons_self, h⟩) _ _ htu
    rcases hstep : (ctx.runStep client s).runIn w with ⟨r, v⟩
    rw [hstep] at hu
    cases r with
    | error e =>
      rw [runSteps_cons_of_error steps hstep]
      exact ⟨u, hu, hfirst⟩
    | ok o =>
      rw [runSteps_cons_of_ok steps hstep]
      obtain ⟨u', hu', huu'⟩ := ih hu
      refine ⟨u', hu', hfirst.trans (ReflTransGen.mono ?_ _ _ huu')⟩
      rintro _ _ ⟨s', hs', h⟩
      exact ⟨s', List.mem_cons_of_mem _ hs', h⟩

end RunContext

end QaLake
