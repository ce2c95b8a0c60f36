import QaLake.Proofs.Store.Agreement
import QaLake.Proofs.Sync.Completeness
import QaLake.Proofs.Sync.Context
import QaLake.Proofs.Sync.History
import QaLake.Proofs.Sync.Unmigrated

namespace QaLake

open Store

variable {σ : Type}

namespace RunContext

variable {ctx : RunContext} {gives : Request → Json → Prop}
  {order : List Visit → List Visit → Prop} {url : Request → String} {s : Subtask}
  {o : StepOutcome} {requests : Nat} {t₀ t t' : Tables}

theorem Holds.does_again (h : ctx.Holds gives order url t₀ s t o requests) (hsame : t.Agree id t') :
    ∃ t'', ctx.Does gives order url s t' o requests t'' ∧ t.Agree id t'' := by
  have hstaged : ∀ table tag, t.staging.contents table tag = t'.staging.contents table tag :=
    fun table tag => by simpa using hsame.contents table tag
  cases h with
  | @collect table listing visits hphase htable hvisits hcontents =>
    rw [hsame.tool] at hvisits
    refine ⟨_, Does.collect hphase htable hvisits, hsame.tool, hsame.domain, hsame.scopes, ?_⟩
    intro table' tag'
    change _ = (((t'.staging.delete table ctx.scope.tag).stageVisits table ctx.scope.tag url
      visits).contents table' tag').map id
    by_cases hplace : table = table' ∧ ctx.scope.tag = tag'
    · obtain ⟨rfl, rfl⟩ := hplace
      rw [hcontents, Staging.contents_stageVisits, Staging.contents_delete, List.nil_append]
    · rw [hstaged, Staging.contents, Staging.contents,
        Staging.rowsOf_stageVisits_of_ne _ _ _ hplace, Staging.rowsOf_delete_of_ne _ hplace]
  | @extract table texts read hphase htable htexts hread hrows =>
    rw [hstaged] at htexts
    refine ⟨_, Does.extract hphase htable htexts hread, ?_, hsame.domain, hsame.scopes,
      hsame.contents⟩
    change t.tool = (read.flatMap (·.getD [])).foldl ToolTables.insert t'.tool
    rw [← hsame.tool]
    refine (ToolTables.overwriting.foldl_eq_self fun n r hlast => ?_).symm
    obtain ⟨hr, rfl⟩ := mem_of_lastUnder hlast
    have hkind : r.name.kind ∈ s.entity.described := r.kind_name ▸ (mem_read hread hr).1
    rw [hrows _ hkind, hlast]
    rfl
  | convert hphase hrows =>
    have hdoes : ctx.Does gives order url s t' _ 0 _ := Does.convert hphase
    rw [← hsame.tool] at hdoes
    refine ⟨_, hdoes, hsame.tool, ?_, hsame.scopes, hsame.contents⟩
    change t.domain = ((ctx.outcomes t.tool s.entity).filterMap
      Domain.Outcome.row?).foldl DomainTables.insert t'.domain
    rw [← hsame.domain]
    refine (DomainTables.overwriting.foldl_eq_self fun n d hlast => ?_).symm
    obtain ⟨hd, rfl⟩ := mem_of_lastUnder hlast
    rw [hrows _ (kind_of_mem_outcomes hd), hlast]
    rfl

/-- Steps that can all be told from the tables are done again, one after another, without effect. -/
theorem runSteps_again {service : Service σ} {answer : Request → Except Error Json}
    (hfixed : service.IsFixed answer) {done : List Done}
    (hholds : ∀ d ∈ done, ctx.Holds service.Gives Eq (Collector.stagedUrl service) t₀ d.subtask t
      d.outcome d.requests)
    {u : World σ} (hu : u.database = .migrated t') (hsame : t.Agree id t')
    (hbudget : RunContext.requests done ≤ u.budget) (hgoes : u.cancelled = false) :
    ∃ u' t'', (ctx.runSteps service (done.map Done.subtask)).run u =
        (⟨done.map Done.report, none⟩, u') ∧
      u'.database = .migrated t'' ∧ t.Agree id t'' := by
  induction done generalizing u t' with
  | nil => exact ⟨u, t', rfl, hu, hsame⟩
  | cons d done ih =>
    obtain ⟨t'', hdoes, hsame'⟩ := (hholds d List.mem_cons_self).does_again hsame
    rw [RunContext.requests] at hbudget
    obtain ⟨v, hstep, hreach, hv⟩ := runStep_of_fixed hfixed hdoes hu
      (Nat.le_trans (Nat.le_add_right _ _) hbudget) hgoes
    have hleft : RunContext.requests done ≤ v.budget := by
      have := hreach.budget
      omega
    obtain ⟨u', t₁, hrun, hdb, hdata⟩ := ih (fun e he => hholds e (List.mem_cons_of_mem _ he))
      hreach.database hsame' hleft hv
    refine ⟨u', t₁, ?_, hdb, hdata⟩
    rw [List.map_cons, runSteps_cons_of_ok _ hstep, hrun]
    rfl

/-- Running a selection again after it has succeeded, against a service with fixed answers, succeeds
with the same reports and leaves all data as they are, whatever the database held at first. The
second run may send at least as many requests as the first. -/
theorem rerun_idempotent {service : Service σ} {answer : Request → Except Error Json}
    (hfixed : service.IsFixed answer) {options : RunOptions} {settings : PipelineSettings}
    {selection : List Subtask} {w w' v : World σ} {report : RunReport}
    (hprepare : (prepare options settings).runIn w = (.ok ctx, v))
    (hrun : (ctx.runSelection service selection).run v = (report, w'))
    (hok : report.failure = none) {u : World σ} (hdb : u.database = w'.database)
    (hbudget : w.budget ≤ u.budget) (hgoes : u.cancelled = false) :
    ∃ u', (prepare options settings).runIn u = (.ok ctx, u) ∧
      (ctx.runSelection service selection).run u = (report, u') ∧
      w'.database.Agree id u'.database := by
  rw [runIn_prepare] at hprepare ⊢
  obtain ⟨hctx, rfl⟩ := Prod.mk.inj hprepare
  cases hw : w.database with
  | unmigrated =>
    rw [runSelection] at hrun ⊢
    have hnone := runSteps_nil_of_unmigrated hw hrun hok
    rw [hnone] at hrun ⊢
    obtain ⟨rfl, rfl⟩ := Prod.mk.inj hrun
    refine ⟨u, ?_, rfl, ?_⟩
    · rw [hdb, hctx]
    · rw [hdb]
      exact Database.Agree.refl _
  | migrated t₀ =>
    obtain ⟨done, t, hruns, hsteps, hreports, hreach⟩ := reaches_of_runSteps
      service.answersAtOnce_client.arranges hw hrun hok
    have hspares : (done.map Done.subtask).Pairwise Subtask.Spares :=
      hsteps ▸ Subtask.inOrder_spares selection
    have hholds := hruns.holds hspares fun _ _ _ _ => Place.Same.refl t₀
    have hu : u.database = .migrated t := hdb.trans hreach.database
    have hleft : RunContext.requests done ≤ u.budget := by
      have := hreach.budget
      omega
    obtain ⟨u', t', hagain, hu', hsame⟩ := runSteps_again hfixed hholds hu
      (Tables.Agree.refl t) hleft hgoes
    refine ⟨u', ?_, ?_, ?_⟩
    · rw [hw, contextOf_congr options settings hruns.scopes_eq.symm] at hctx
      rw [hu, hctx]
    · rw [runSelection, ← hsteps, hagain, ← hreports, ← hok]
    · rw [hreach.database, hu']
      exact hsame

set_option maxRecDepth 100000 in
/-- All steps, twice. -/
theorem rerun_idempotent_all :
    ∃ report w' u',
      ((inPagesOf 2 1).runSelection (smallProject.service id true) Subtask.all).run
        ⟨.migrated twoSuites, (), [], 100, false⟩ = (report, w') ∧
      report.failure = none ∧
      ((inPagesOf 2 1).runSelection (smallProject.service id true) Subtask.all).run
        ⟨w'.database, (), [], 100, false⟩ = (report, u') ∧
      w'.database.Agree id u'.database := by
  have hdone : (((inPagesOf 2 1).runSelection (smallProject.service id true) Subtask.all).run
      ⟨.migrated twoSuites, (), [], 100, false⟩).1.failure.isNone = true := by decide +kernel
  obtain ⟨report, w', hrun, hok⟩ := runSelection_of_isNone hdone
  have hprepare : (prepare (inPagesOf 2 1).options (inPagesOf 2 1).settings).runIn
      (⟨.migrated twoSuites, (), [], 100, false⟩ : World Unit) =
        (.ok (inPagesOf 2 1), ⟨.migrated twoSuites, (), [], 100, false⟩) := rfl
  obtain ⟨u', -, hagain, hsame⟩ := rerun_idempotent (fun _ _ => rfl) hprepare hrun hok
    (u := ⟨w'.database, (), [], 100, false⟩) rfl (Nat.le_refl 100) rfl
  exact ⟨report, w', u', hrun, hok, hagain, hsame⟩

end RunContext

end QaLake
