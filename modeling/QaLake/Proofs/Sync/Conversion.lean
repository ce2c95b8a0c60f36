import QaLake.Proofs.Domain.Conversion
import QaLake.Proofs.Sync.Fold
import QaLake.Proofs.Sync.Visit
import QaLake.Sync.Conversion

namespace QaLake

open Store

variable {σ : Type}

def ConvertStats.of (outcomes : List Domain.Outcome) : ConvertStats :=
  ⟨(outcomes.filterMap Domain.Outcome.row?).length, outcomes.countP Domain.Outcome.isFiltered⟩

def ConvertStats.plus (stats : ConvertStats) (outcomes : List Domain.Outcome) : ConvertStats :=
  ⟨stats.rows + (outcomes.filterMap Domain.Outcome.row?).length,
    stats.filtered + outcomes.countP Domain.Outcome.isFiltered⟩

theorem ConvertStats.plus_nil (stats : ConvertStats) : stats.plus [] = stats := by
  simp [plus]

theorem ConvertStats.plus_append (stats : ConvertStats) (outcomes more : List Domain.Outcome) :
    stats.plus (outcomes ++ more) = (stats.plus outcomes).plus more := by
  simp [plus, Nat.add_assoc]

theorem ConvertStats.plus_empty (outcomes : List Domain.Outcome) :
    ConvertStats.plus {} outcomes = .of outcomes := by
  simp [plus, of]

def Store.ToolTables.converted (t : ToolTables) (scope : RunScope) : EntityKind → List Tool.Row
  | .project => (t.streamed Tool.Project scope).map .project
  | .case => (t.streamed Tool.Case scope).map .case
  | .run => (t.streamed Tool.Run scope).map .run
  | .result => (t.streamed Tool.Result scope).map .result
  | _ => []

namespace RunContext

variable (ctx : RunContext)

def withOutcomes (t : Tables) (outcomes : List Domain.Outcome) : Tables :=
  { t with domain := (outcomes.filterMap Domain.Outcome.row?).foldl DomainTables.insert t.domain }

theorem withOutcomes_append (t : Tables) (outcomes more : List Domain.Outcome) :
    withOutcomes t (outcomes ++ more) = withOutcomes (withOutcomes t outcomes) more := by
  simp [withOutcomes]

theorem runIn_convertRow (stats : ConvertStats) (r : Tool.Row) {w : World σ} {t : Tables}
    (hw : w.database = .migrated t) :
    (ctx.convertRow stats r).runIn w = (.ok (stats.plus [Domain.convert ctx.config r]),
      w.holding (withOutcomes t [Domain.convert ctx.config r])) := by
  obtain ⟨db, remote, calls, budget, cancelled⟩ := w
  cases hw
  rw [convertRow]
  cases Domain.convert ctx.config r with
  | row row =>
    have hput : (Action.update fun db => db.putDomain row : Action σ Unit).runIn
        ⟨.migrated t, remote, calls, budget, cancelled⟩ =
        (.ok (), ⟨.migrated (withOutcomes t [.row row]), remote, calls, budget, cancelled⟩) := by
      rw [Action.runIn_update]
      rfl
    rw [Action.runIn_bind_of_ok hput]
    rfl
  | filtered => rfl
  | noCounterpart => rfl

theorem runIn_foldRows_convertRow {ρ : Type} (toRow : ρ → Tool.Row) (rs : List ρ)
    (stats : ConvertStats) {w : World σ} {t : Tables} (hw : w.database = .migrated t)
    (hgoes : w.cancelled = false) :
    (Action.foldRows (fun stats r => ctx.convertRow stats (toRow r)) rs stats).runIn w =
      (.ok (stats.plus ((rs.map toRow).map (Domain.convert ctx.config))),
        w.holding (withOutcomes t ((rs.map toRow).map (Domain.convert ctx.config)))) := by
  induction rs generalizing stats w t with
  | nil =>
    obtain ⟨db, remote, calls, budget, cancelled⟩ := w
    cases hw
    exact congrArg (fun stats => (Except.ok stats, _)) (ConvertStats.plus_nil stats).symm
  | cons r rs ih =>
    have hcheck : (Action.checkCancelled : Action σ Unit).runIn w = (.ok (), w) :=
      Action.runIn_checkCancelled_ok.2 ⟨hgoes, rfl⟩
    rw [Action.foldRows, Action.runIn_bind_of_ok hcheck,
      Action.runIn_bind_of_ok (ctx.runIn_convertRow stats (toRow r) hw)]
    have hrest := ih (stats.plus [Domain.convert ctx.config (toRow r)])
      (w := w.holding (withOutcomes t [Domain.convert ctx.config (toRow r)])) rfl hgoes
    rw [hrest, ← ConvertStats.plus_append]
    change (_, w.holding (withOutcomes (withOutcomes t _) _)) = _
    rw [← withOutcomes_append]
    rfl

theorem of_runIn_foldRows_convertRow {ρ : Type} (toRow : ρ → Tool.Row) {rs : List ρ}
    {stats stats' : ConvertStats} {w w' : World σ} {t : Tables} (hw : w.database = .migrated t)
    (h : (Action.foldRows (fun stats r => ctx.convertRow stats (toRow r)) rs stats).runIn w =
      (.ok stats', w')) :
    stats' = stats.plus ((rs.map toRow).map (Domain.convert ctx.config)) ∧
      w' = w.holding (withOutcomes t ((rs.map toRow).map (Domain.convert ctx.config))) := by
  cases hcancelled : w.cancelled with
  | false =>
    rw [ctx.runIn_foldRows_convertRow toRow rs stats hw hcancelled] at h
    obtain ⟨hstats, rfl⟩ := Prod.mk.inj h
    exact ⟨(Except.ok.inj hstats).symm, rfl⟩
  | true =>
    -- A cancelled run stops before the first row, so there was none.
    cases rs with
    | nil =>
      obtain ⟨db, remote, calls, budget, cancelled⟩ := w
      cases hw
      obtain ⟨hstats, rfl⟩ := Prod.mk.inj h
      cases hstats
      exact ⟨(ConvertStats.plus_nil stats).symm, rfl⟩
    | cons r rs =>
      obtain ⟨_, v, hcheck, -⟩ := Action.runIn_bind_ok_iff.1 h
      have hgoes := (Action.runIn_checkCancelled_ok.1 hcheck).1
      rw [hcancelled] at hgoes
      cases hgoes

/-- A conversion goes through the rows that are streamed at its beginning, in batches of any size.
-/
theorem runIn_convertAll_eq_foldRows (ρ : Type) [Streamed ρ] [LawfulStreamed ρ] {w : World σ}
    {t : Tables} (hw : w.database = .migrated t) :
    (ctx.convertAll ρ).runIn w =
      (Action.foldRows (fun stats r => ctx.convertRow stats (Streamed.toRow r))
        (t.tool.streamed ρ ctx.scope) {}).runIn w := by
  have hstep : ∀ (b : ConvertStats) (r : ρ) (v : World σ),
      (∃ u : Tables, v.database = .migrated u ∧ u.tool = t.tool) →
      ∃ u : Tables, ((ctx.convertRow b (Streamed.toRow r)).runIn v).2.database = .migrated u ∧
        u.tool = t.tool := by
    rintro b r v ⟨u, hv, hu⟩
    rw [ctx.runIn_convertRow b (Streamed.toRow r) hv]
    exact ⟨_, rfl, hu⟩
  rw [convertAll, Action.runIn_foldSource_tool ctx.scope ctx.settings.batchSize {} hw hstep]

theorem runIn_convertAll (ρ : Type) [Streamed ρ] [LawfulStreamed ρ] {w : World σ} {t : Tables}
    (hw : w.database = .migrated t) (hgoes : w.cancelled = false) :
    let outcomes := ((t.tool.streamed ρ ctx.scope).map Streamed.toRow).map
      (Domain.convert ctx.config)
    (ctx.convertAll ρ).runIn w = (.ok (.of outcomes), w.holding (withOutcomes t outcomes)) := by
  rw [ctx.runIn_convertAll_eq_foldRows ρ hw,
    ctx.runIn_foldRows_convertRow Streamed.toRow _ {} hw hgoes, ConvertStats.plus_empty]

theorem of_runIn_convertAll (ρ : Type) [Streamed ρ] [LawfulStreamed ρ] {stats : ConvertStats}
    {w w' : World σ} {t : Tables} (hw : w.database = .migrated t)
    (h : (ctx.convertAll ρ).runIn w = (.ok stats, w')) :
    let outcomes := ((t.tool.streamed ρ ctx.scope).map Streamed.toRow).map
      (Domain.convert ctx.config)
    stats = .of outcomes ∧ w' = w.holding (withOutcomes t outcomes) := by
  rw [ctx.runIn_convertAll_eq_foldRows ρ hw] at h
  have hdone := ctx.of_runIn_foldRows_convertRow Streamed.toRow hw h
  rwa [ConvertStats.plus_empty] at hdone

theorem runIn_convert (kind : EntityKind) {w : World σ} {t : Tables}
    (hw : w.database = .migrated t) (hgoes : w.cancelled = false) :
    let outcomes := (t.tool.converted ctx.scope kind).map (Domain.convert ctx.config)
    (ctx.convert kind).runIn w = (.ok (.of outcomes), w.holding (withOutcomes t outcomes)) := by
  have hnone : (pure {} : Action σ ConvertStats).runIn w =
      (.ok (.of []), w.holding (withOutcomes t [])) := by
    obtain ⟨db, remote, calls, budget, cancelled⟩ := w
    cases hw
    rfl
  cases kind with
  | project => exact ctx.runIn_convertAll Tool.Project hw hgoes
  | case => exact ctx.runIn_convertAll Tool.Case hw hgoes
  | run => exact ctx.runIn_convertAll Tool.Run hw hgoes
  | result => exact ctx.runIn_convertAll Tool.Result hw hgoes
  | suite | testSection | milestone | plan | planEntry | user | caseField | caseType | priority
  | status => exact hnone

theorem of_runIn_convert {kind : EntityKind} {stats : ConvertStats} {w w' : World σ} {t : Tables}
    (hw : w.database = .migrated t) (h : (ctx.convert kind).runIn w = (.ok stats, w')) :
    let outcomes := (t.tool.converted ctx.scope kind).map (Domain.convert ctx.config)
    stats = .of outcomes ∧ w' = w.holding (withOutcomes t outcomes) := by
  have hnone (h : (pure {} : Action σ ConvertStats).runIn w = (.ok stats, w')) :
      stats = .of [] ∧ w' = w.holding (withOutcomes t []) := by
    obtain ⟨db, remote, calls, budget, cancelled⟩ := w
    cases hw
    obtain ⟨hstats, rfl⟩ := Prod.mk.inj h
    cases hstats
    exact ⟨rfl, rfl⟩
  cases kind with
  | project => exact ctx.of_runIn_convertAll Tool.Project hw h
  | case => exact ctx.of_runIn_convertAll Tool.Case hw h
  | run => exact ctx.of_runIn_convertAll Tool.Run hw h
  | result => exact ctx.of_runIn_convertAll Tool.Result hw h
  | suite | testSection | milestone | plan | planEntry | user | caseField | caseType | priority
  | status => exact hnone h

end RunContext

end QaLake
