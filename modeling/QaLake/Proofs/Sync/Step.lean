import QaLake.Proofs.Sync.Collection
import QaLake.Proofs.Sync.Conversion
import QaLake.Proofs.Sync.Extraction
import QaLake.Sync.Run

namespace QaLake

open Store

variable {σ : Type}

namespace EntityKind

theorem stagingName_of_hasPhase {kind : EntityKind} {phase : Phase}
    (h : kind.hasPhase phase = true) : ∃ table, kind.stagingName = some table := by
  cases kind with
  | planEntry => cases phase <;> cases h
  | _ => exact ⟨_, rfl⟩

end EntityKind

namespace RunContext

def outcomes (ctx : RunContext) (tool : ToolTables) (kind : EntityKind) : List Domain.Outcome :=
  (tool.converted ctx.scope kind).map (Domain.convert ctx.config)

/-- What a step that succeeds reports, the requests it takes, and the tables it leaves, where
`gives` says what the service answers, `order` how walks may be mixed, and `url` what addresses are
kept. -/
inductive Does (ctx : RunContext) (gives : Request → Json → Prop)
    (order : List Visit → List Visit → Prop) (url : Request → String) (s : Subtask) (t : Tables) :
    StepOutcome → Nat → Tables → Prop
  | collect {table : String} {listing visits : List Visit} (hphase : s.phase = .collect)
      (htable : s.entity.stagingName = some table)
      (hvisits : ctx.Collects gives order s.entity table t.tool listing visits) :
      Does ctx gives order url s t (.collected (Fetched.ofVisits visits).stats)
        (listing.length + visits.length) (t.collected table ctx.scope.tag url visits)
  | extract {table : String} {texts : List RecordTexts} {read : List (Option (List Tool.Row))}
      (hphase : s.phase = .extract) (htable : s.entity.stagingName = some table)
      (htexts : (t.staging.contents table ctx.scope.tag).mapM Entry.texts? = some texts)
      (hread : texts.mapM (ctx.readRecord s.entity) = .ok read) :
      Does ctx gives order url s t (.extracted (.of read)) 0 (withRows t read)
  | convert (hphase : s.phase = .convert) :
      Does ctx gives order url s t (.converted (.of (ctx.outcomes t.tool s.entity))) 0
        (withOutcomes t (ctx.outcomes t.tool s.entity))

variable {ctx : RunContext} {client : Client σ} {order : List Visit → List Visit → Prop}

theorem reaches_of_runStep (horder : client.Arranges order) {s : Subtask} {o : StepOutcome}
    {w w' : World σ} {t : Tables} (hw : w.database = .migrated t)
    (h : (ctx.runStep client s).runIn w = (.ok o, w')) :
    ∃ requests t',
      ctx.Does client.Gives order (Collector.stagedUrl client.toService) s t o requests t' ∧
      w.Reaches w' (.migrated t') requests := by
  rw [runStep] at h
  obtain ⟨_, v, hcheck, hphase⟩ := Action.runIn_bind_ok_iff.1 h
  obtain ⟨hgoes, rfl⟩ := Action.runIn_checkCancelled_ok.1 hcheck
  obtain ⟨table, htable⟩ := EntityKind.stagingName_of_hasPhase s.valid
  cases hp : s.phase with
  | collect =>
    simp only [hp] at hphase
    obtain ⟨stats, u, hcollect, hdone⟩ := Action.runIn_bind_ok_iff.1 hphase
    obtain ⟨ho, rfl⟩ := Prod.mk.inj hdone
    cases ho
    obtain ⟨listing, visits, hvisits, rfl, hreach⟩ :=
      ctx.reaches_of_collect horder htable hw hcollect
    exact ⟨_, _, Does.collect hp htable hvisits, hreach⟩
  | extract =>
    simp only [hp] at hphase
    obtain ⟨stats, u, hextract, hdone⟩ := Action.runIn_bind_ok_iff.1 hphase
    obtain ⟨ho, rfl⟩ := Prod.mk.inj hdone
    cases ho
    obtain ⟨texts, read, htexts, hread, rfl, rfl⟩ :=
      (ctx.runIn_extract_ok_iff htable hw hgoes).1 hextract
    exact ⟨_, _, Does.extract hp htable htexts hread, rfl, rfl⟩
  | convert =>
    simp only [hp] at hphase
    rw [Action.runIn_bind_of_ok (ctx.runIn_convert s.entity hw hgoes)] at hphase
    obtain ⟨ho, rfl⟩ := Prod.mk.inj hphase
    cases ho
    exact ⟨_, _, Does.convert hp, rfl, rfl⟩

theorem runStep_of_fixed {service : Service σ} {answer : Request → Except Error Json}
    (hfixed : service.IsFixed answer) {s : Subtask} {o : StepOutcome} {requests : Nat}
    {t t' : Tables}
    (hdoes : ctx.Does service.Gives Eq (Collector.stagedUrl service) s t o requests t')
    {w : World σ}
    (hw : w.database = .migrated t) (hbudget : requests ≤ w.budget) (hgoes : w.cancelled = false) :
    ∃ w', (ctx.runStep service s).runIn w = (.ok o, w') ∧ w.Reaches w' (.migrated t') requests ∧
      w'.cancelled = false := by
  have hcheck : (Action.checkCancelled : Action σ Unit).runIn w = (.ok (), w) :=
    Action.runIn_checkCancelled_ok.2 ⟨hgoes, rfl⟩
  rw [runStep, Action.runIn_bind_of_ok hcheck]
  cases hdoes with
  | @collect table listing visits hphase htable hvisits =>
    obtain ⟨w', hcollect, hreach, hw'⟩ :=
      ctx.collect_of_fixed hfixed htable hvisits hw hbudget hgoes
    refine ⟨w', ?_, hreach, hw'⟩
    simp only [hphase]
    rw [Action.runIn_bind_of_ok hcollect]
    rfl
  | @extract table texts read hphase htable htexts hread =>
    have hextract := (ctx.runIn_extract_ok_iff htable hw hgoes).2
      ⟨texts, read, htexts, hread, rfl, rfl⟩
    refine ⟨w.holding (withRows t read), ?_, ⟨rfl, rfl⟩, hgoes⟩
    simp only [hphase]
    rw [Action.runIn_bind_of_ok hextract]
    rfl
  | convert hphase =>
    refine ⟨w.holding (withOutcomes t (ctx.outcomes t.tool s.entity)), ?_, ⟨rfl, rfl⟩, hgoes⟩
    simp only [hphase]
    rw [Action.runIn_bind_of_ok (ctx.runIn_convert s.entity hw hgoes)]
    rfl

/-- A step that was done: what it reported and the requests it took. -/
structure Done where
  subtask : Subtask
  outcome : StepOutcome
  requests : Nat

def Done.report (d : Done) : StepReport :=
  ⟨d.subtask, d.outcome⟩

inductive Runs (ctx : RunContext) (gives : Request → Json → Prop)
    (order : List Visit → List Visit → Prop) (url : Request → String) :
    Tables → List Done → Tables → Prop
  | nil {t : Tables} : Runs ctx gives order url t [] t
  | cons {t u t' : Tables} {d : Done} {rest : List Done}
      (hdoes : ctx.Does gives order url d.subtask t d.outcome d.requests u)
      (hrest : Runs ctx gives order url u rest t') : Runs ctx gives order url t (d :: rest) t'

def requests : List Done → Nat
  | [] => 0
  | d :: rest => d.requests + requests rest

theorem runSteps_cons_of_ok {s : Subtask} {o : StepOutcome} {w v : World σ} (rest : List Subtask)
    (h : (ctx.runStep client s).runIn w = (.ok o, v)) :
    (ctx.runSteps client (s :: rest)).run w =
      (((ctx.runSteps client rest).run v).1.cons ⟨s, o⟩,
        ((ctx.runSteps client rest).run v).2) := by
  have hstep : (ctx.runStep client s).run w = (.ok o, v) := h
  rw [runSteps, StateT.run_bind, StateT.run, hstep]
  rfl

theorem runSteps_cons_of_error {s : Subtask} {e : Error} {w v : World σ} (rest : List Subtask)
    (h : (ctx.runStep client s).runIn w = (.error e, v)) :
    (ctx.runSteps client (s :: rest)).run w = (⟨[], some (s, e)⟩, v) := by
  have hstep : (ctx.runStep client s).run w = (.error e, v) := h
  rw [runSteps, StateT.run_bind, StateT.run, hstep]
  rfl

theorem runSelection_of_isNone {selection : List Subtask} {w : World σ}
    (h : ((ctx.runSelection client selection).run w).1.failure.isNone = true) :
    ∃ report w', (ctx.runSelection client selection).run w = (report, w') ∧
      report.failure = none :=
  ⟨_, _, rfl, Option.isNone_iff_eq_none.1 h⟩

theorem reaches_of_runSteps (horder : client.Arranges order) {steps : List Subtask}
    {report : RunReport} {w w' : World σ} {t : Tables} (hw : w.database = .migrated t)
    (h : (ctx.runSteps client steps).run w = (report, w')) (hok : report.failure = none) :
    ∃ done t', ctx.Runs client.Gives order (Collector.stagedUrl client.toService) t done t' ∧
      done.map Done.subtask = steps ∧ report.steps = done.map Done.report ∧
      w.Reaches w' (.migrated t') (requests done) := by
  induction steps generalizing report w t with
  | nil =>
    obtain ⟨rfl, rfl⟩ := Prod.mk.inj h
    exact ⟨[], t, Runs.nil, rfl, rfl, hw, rfl⟩
  | cons s steps ih =>
    rcases hstep : (ctx.runStep client s).runIn w with ⟨r, v⟩
    cases r with
    | error e =>
      rw [runSteps_cons_of_error steps hstep] at h
      obtain ⟨rfl, -⟩ := Prod.mk.inj h
      cases hok
    | ok o =>
      rw [runSteps_cons_of_ok steps hstep] at h
      obtain ⟨n, u, hdoes, hreach⟩ := reaches_of_runStep horder hw hstep
      obtain ⟨rfl, rfl⟩ := Prod.mk.inj h
      obtain ⟨done, t', hruns, hmap, hsteps, hreach'⟩ := ih hreach.database rfl hok
      refine ⟨⟨s, o, n⟩ :: done, t', Runs.cons hdoes hruns, ?_, ?_, ?_⟩
      · rw [List.map_cons, hmap]
      · rw [List.map_cons, ← hsteps]
        rfl
      · exact hreach.trans hreach'

end RunContext

end QaLake
