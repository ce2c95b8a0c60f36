import Mathlib.Data.List.Forall2
import QaLake.Proofs.Store.Agreement
import QaLake.Proofs.Sync.Completeness
import QaLake.Proofs.Sync.Context
import QaLake.Proofs.Sync.Unmigrated

namespace QaLake

open Store

namespace Store

/-- The record and its input, without the address the record came from. -/
def Entry.payload (e : Entry) : Cell × Option Cell :=
  (e.data, e.input)

theorem texts?_congr {entries entries' : List Entry}
    (h : entries.map Entry.payload = entries'.map Entry.payload) :
    entries.mapM Entry.texts? = entries'.mapM Entry.texts? := by
  have hview : ∀ entries : List Entry, entries.mapM Entry.texts? =
      (entries.map Entry.payload).mapM fun x => Entry.texts? ⟨x.1, "", x.2⟩ := by
    intro entries
    rw [List.mapM_map]
    rfl
  rw [hview, h, ← hview]

end Store

theorem Visit.payload_entries (url : Request → String) (visits : List Visit) :
    (visits.flatMap (Visit.entries url)).map Entry.payload =
      (visits.flatMap Visit.pairs).map fun p =>
        (Cell.ofText p.1.text, p.2.map fun j => Cell.ofText j.text) := by
  rw [List.map_flatMap, List.map_flatMap]
  apply congrArg visits.flatMap
  funext v
  simp only [Visit.entries, Visit.pairs, List.map_map, Function.comp_def, Entry.payload,
    Entry.ofRecord]

theorem Store.Tables.Agree.collected {t u : Tables} (h : t.Agree Entry.payload u)
    (table tag : String) (url url' : Request → String) {visits visits' : List Visit}
    (hpairs : visits.flatMap Visit.pairs = visits'.flatMap Visit.pairs) :
    (t.collected table tag url visits).Agree Entry.payload
      (u.collected table tag url' visits') := by
  refine ⟨h.tool, h.domain, h.scopes, fun table' tag' => ?_⟩
  change (((t.staging.delete table tag).stageVisits table tag url visits).contents table'
      tag').map Entry.payload =
    (((u.staging.delete table tag).stageVisits table tag url' visits').contents table'
      tag').map Entry.payload
  by_cases hplace : table = table' ∧ tag = tag'
  · obtain ⟨rfl, rfl⟩ := hplace
    rw [Staging.contents_stageVisits, Staging.contents_stageVisits, Staging.contents_delete,
      Staging.contents_delete, List.nil_append, List.nil_append, Visit.payload_entries,
      Visit.payload_entries, hpairs]
  · rw [Staging.contents, Staging.contents, Staging.rowsOf_stageVisits_of_ne _ _ _ hplace,
      Staging.rowsOf_stageVisits_of_ne _ _ _ hplace, Staging.rowsOf_delete_of_ne _ hplace,
      Staging.rowsOf_delete_of_ne _ hplace]
    exact h.contents table' tag'

def EntityKind.isPaged (kind : EntityKind) : Bool :=
  (Endpoint.of? kind).any (·.paged)

/-- Whether two reports of a step say the same, apart from the requests of a collection in pages. -/
inductive StepReport.Agree : StepReport → StepReport → Prop
  | same (r : StepReport) : Agree r r
  | paged {s : Subtask} {stats stats' : CollectStats} (hpaged : s.entity.isPaged = true)
      (hrecords : stats.records = stats'.records) :
      Agree ⟨s, .collected stats⟩ ⟨s, .collected stats'⟩

namespace RunContext

variable {σ τ : Type} {cat : Catalogue} {ctx : RunContext} {settings : PipelineSettings}
  {gives gives' : Request → Json → Prop} {order : List Visit → List Visit → Prop}
  {url url' : Request → String} {t t' u u' : Tables}

theorem length_of_collects {kind : EntityKind} {table : String} {tool : ToolTables}
    {listing listing' visits visits' : List Visit} (hpaged : kind.isPaged = false)
    (h : ctx.Collects cat.Answers Eq kind table tool listing visits)
    (h' : ({ ctx with settings } : RunContext).Collects cat.Answers Eq kind table tool listing'
      visits') :
    visits.length = visits'.length := by
  unfold Collects at h h'
  cases hendpoint : Endpoint.of? kind with
  | none =>
    rw [hendpoint] at h h'
    obtain ⟨hlisting, visits, hwalks, rfl⟩ := h
    obtain ⟨hlisting', visits', hwalks', rfl⟩ := h'
    have hlength := Catalogue.length_of_walks rfl hwalks
    have hlength' := Catalogue.length_of_walks rfl hwalks'
    rw [Catalogue.records_of_listing hlisting] at hlength
    rw [Catalogue.records_of_listing hlisting'] at hlength'
    exact hlength.trans hlength'.symm
  | some e =>
    rw [hendpoint] at h h'
    obtain ⟨-, visits, hwalks, rfl⟩ := h
    obtain ⟨-, visits', hwalks', rfl⟩ := h'
    have hunpaged : e.paged = false := by
      rwa [EntityKind.isPaged, hendpoint] at hpaged
    have hsize : ∀ ctx : RunContext, (ctx.endpointCollector table e tool).pageSize = none := by
      intro ctx
      simp [endpointCollector, Endpoint.collector, hunpaged]
    exact (Catalogue.length_of_walks (hsize _) hwalks).trans
      (Catalogue.length_of_walks (hsize _) hwalks').symm

theorem Does.agree {s : Subtask} {o o' : StepOutcome} {n n' : Nat}
    (hpolicy : settings.onParseError = ctx.settings.onParseError) (hagree : t.Agree Entry.payload u)
    (h : ctx.Does cat.Answers Eq url s t o n t')
    (h' : ({ ctx with settings } : RunContext).Does cat.Answers Eq url' s u o' n' u') :
    t'.Agree Entry.payload u' ∧ StepReport.Agree ⟨s, o⟩ ⟨s, o'⟩ := by
  cases h with
  | @collect table listing visits hphase htable hvisits =>
    cases h' with
    | @collect table' listing' visits' hphase' htable' hvisits' =>
      cases htable.symm.trans htable'
      have hkind : s.entity ≠ .planEntry := fun he => by
        rw [he] at htable
        cases htable
      rw [← hagree.tool] at hvisits'
      have hpairs : visits.flatMap Visit.pairs = visits'.flatMap Visit.pairs :=
        (Catalogue.pairs_of_collects hvisits hkind).trans
          (Catalogue.pairs_of_collects hvisits' hkind).symm
      refine ⟨hagree.collected table _ url url' hpairs, ?_⟩
      have hrecords : (Fetched.ofVisits visits).stats.records =
          (Fetched.ofVisits visits').stats.records := by
        rw [length_of_pairs, length_of_pairs, hpairs]
      cases hpaged : s.entity.isPaged with
      | true => exact StepReport.Agree.paged hpaged hrecords
      | false =>
        have hlength := length_of_collects hpaged hvisits hvisits'
        have hstats : (Fetched.ofVisits visits).stats = (Fetched.ofVisits visits').stats :=
          congrArg₂ CollectStats.mk hlength hrecords
        rw [hstats]
        exact StepReport.Agree.same _
    | extract hphase' => exact absurd (hphase.symm.trans hphase') (by decide)
    | convert hphase' => exact absurd (hphase.symm.trans hphase') (by decide)
  | @extract table texts read hphase htable htexts hread =>
    cases h' with
    | collect hphase' => exact absurd (hphase.symm.trans hphase') (by decide)
    | @extract table' texts' read' hphase' htable' htexts' hread' =>
      cases htable.symm.trans htable'
      have htexts'' : some texts = some texts' :=
        htexts.symm.trans ((texts?_congr (hagree.contents table ctx.scope.tag)).trans htexts')
      cases htexts''
      have hreader : ({ ctx with settings } : RunContext).readRecord s.entity =
          ctx.readRecord s.entity := by
        funext x
        rw [readRecord, readRecord, hpolicy]
        rfl
      rw [hreader] at hread'
      cases hread.symm.trans hread'
      refine ⟨⟨?_, hagree.domain, hagree.scopes, hagree.contents⟩, StepReport.Agree.same _⟩
      change (read.flatMap (·.getD [])).foldl ToolTables.insert t.tool =
        (read.flatMap (·.getD [])).foldl ToolTables.insert u.tool
      rw [hagree.tool]
    | convert hphase' => exact absurd (hphase.symm.trans hphase') (by decide)
  | convert hphase =>
    cases h' with
    | collect hphase' => exact absurd (hphase.symm.trans hphase') (by decide)
    | extract hphase' => exact absurd (hphase.symm.trans hphase') (by decide)
    | convert hphase' =>
      have houtcomes : ({ ctx with settings } : RunContext).outcomes u.tool s.entity =
          ctx.outcomes t.tool s.entity := by
        rw [← hagree.tool]
        rfl
      rw [houtcomes]
      refine ⟨⟨hagree.tool, ?_, hagree.scopes, hagree.contents⟩, StepReport.Agree.same _⟩
      change ((ctx.outcomes t.tool s.entity).filterMap Domain.Outcome.row?).foldl
          DomainTables.insert t.domain =
        ((ctx.outcomes t.tool s.entity).filterMap Domain.Outcome.row?).foldl
          DomainTables.insert u.domain
      rw [hagree.domain]

theorem Does.mono (hgives : ∀ r j, gives r j → gives' r j) {s : Subtask} {o : StepOutcome} {n : Nat}
    (h : ctx.Does gives order url s t o n t') : ctx.Does gives' order url s t o n t' := by
  cases h with
  | collect hphase htable hvisits => exact Does.collect hphase htable (hvisits.mono hgives)
  | extract hphase htable htexts hread => exact Does.extract hphase htable htexts hread
  | convert hphase => exact Does.convert hphase

theorem Runs.agree (hserved : ∀ r j, gives r j → cat.Answers r j)
    (hserved' : ∀ r j, gives' r j → cat.Answers r j)
    (hpolicy : settings.onParseError = ctx.settings.onParseError) {done done' : List Done}
    (h : ctx.Runs gives Eq url t done t')
    (h' : ({ ctx with settings } : RunContext).Runs gives' Eq url' u done' u')
    (hsteps : done.map Done.subtask = done'.map Done.subtask) (hagree : t.Agree Entry.payload u) :
    t'.Agree Entry.payload u' ∧
      List.Forall₂ StepReport.Agree (done.map Done.report) (done'.map Done.report) := by
  induction h generalizing u done' with
  | nil =>
    cases h' with
    | nil => exact ⟨hagree, List.Forall₂.nil⟩
    | cons hdoes' hrest' => cases hsteps
  | @cons t t₁ t' d rest hdoes hrest ih =>
    cases h' with
    | nil => cases hsteps
    | @cons u u₁ u' d' rest' hdoes' hrest' =>
      obtain ⟨hsubtask, hsteps⟩ := List.cons.inj hsteps
      rw [← hsubtask] at hdoes'
      obtain ⟨hagree, hreport⟩ := (hdoes.mono hserved).agree hpolicy hagree (hdoes'.mono hserved')
      obtain ⟨hagree, hreports⟩ := ih hrest' hsteps hagree
      refine ⟨hagree, List.Forall₂.cons ?_ hreports⟩
      rw [Done.report, Done.report, ← hsubtask]
      exact hreport

/-- Two runs of a selection from one database against one catalogue, through clients that have their
answers at once, that differ in how the pipeline is tuned and both succeed, end with the same tool
rows, the same domain rows and the same staged records and inputs in the same order, and they report
the same. -/
theorem runSelection_tuned {client : Client σ} {client' : Client τ}
    (hclient : client.AnswersAtOnce) (hclient' : client'.AnswersAtOnce)
    (hserved : cat.ServedBy client.toService) (hserved' : cat.ServedBy client'.toService)
    {options : RunOptions} {settings settings' : PipelineSettings}
    (hpolicy : settings'.onParseError = settings.onParseError) {selection : List Subtask}
    {w v x : World σ} {w' v' x' : World τ} (hdb : w'.database = w.database) {ctx' : RunContext}
    {report report' : RunReport}
    (hprepare : (prepare options settings).runIn w = (.ok ctx, v))
    (hrun : (ctx.runSelection client selection).run v = (report, x))
    (hok : report.failure = none)
    (hprepare' : (prepare options settings').runIn w' = (.ok ctx', v'))
    (hrun' : (ctx'.runSelection client' selection).run v' = (report', x'))
    (hok' : report'.failure = none) :
    x.database.Agree Entry.payload x'.database ∧
      List.Forall₂ StepReport.Agree report.steps report'.steps := by
  rw [runIn_prepare] at hprepare hprepare'
  obtain ⟨hctx, rfl⟩ := Prod.mk.inj hprepare
  obtain ⟨hctx', rfl⟩ := Prod.mk.inj hprepare'
  rw [hdb] at hctx'
  obtain ⟨-, hoptions, hsettings, hconfig⟩ := contextOf_ok hctx
  obtain ⟨-, hoptions', hsettings', hconfig'⟩ := contextOf_ok hctx'
  have htuned : ctx' = { ctx with settings := settings' } := by
    have hconfigs := Except.ok.inj (hconfig'.symm.trans hconfig)
    rw [← hsettings', ← hconfigs, hoptions.trans hoptions'.symm]
  subst htuned
  rw [← hsettings] at hpolicy
  cases hw : w.database with
  | unmigrated =>
    have hnone := runSteps_nil_of_unmigrated hw hrun hok
    rw [runSelection, hnone] at hrun hrun'
    obtain ⟨rfl, rfl⟩ := Prod.mk.inj hrun
    obtain ⟨rfl, rfl⟩ := Prod.mk.inj hrun'
    rw [hdb]
    exact ⟨Database.Agree.refl _, List.Forall₂.nil⟩
  | migrated t =>
    obtain ⟨done, t', hruns, hsteps, hreports, hreach⟩ :=
      reaches_of_runSteps hclient.arranges hw hrun hok
    obtain ⟨done', u', hruns', hsteps', hreports', hreach'⟩ :=
      reaches_of_runSteps hclient'.arranges (hdb.trans hw) hrun' hok'
    rw [hreach.database, hreach'.database, hreports, hreports']
    exact hruns.agree hserved hserved' hpolicy hruns' (hsteps.trans hsteps'.symm)
      (Tables.Agree.refl t)

def oneByOne : RunContext where
  options := (inPagesOf 2 1).options
  settings := { (inPagesOf 2 1).settings with concurrency := 1 }
  config := none

set_option maxRecDepth 100000 in
/-- All steps, one walk at a time in pages of two, and up to four at a time in pages of 250. -/
theorem runSelection_tuned_pages :
    ∃ report report' x x',
      (oneByOne.runSelection (smallProject.service id true) Subtask.all).run
        ⟨.migrated twoSuites, (), [], 100, false⟩ = (report, x) ∧
      ((inPagesOf 250 500).runSelection (smallProject.service id false) Subtask.all).run
        ⟨.migrated twoSuites, (), [], 100, false⟩ = (report', x') ∧
      report.failure = none ∧ report'.failure = none ∧
      x.database.Agree Entry.payload x'.database ∧
      List.Forall₂ StepReport.Agree report.steps report'.steps := by
  have hdone : ((oneByOne.runSelection (smallProject.service id true) Subtask.all).run
      ⟨.migrated twoSuites, (), [], 100, false⟩).1.failure.isNone = true := by decide +kernel
  have hdone' : (((inPagesOf 250 500).runSelection (smallProject.service id false)
      Subtask.all).run ⟨.migrated twoSuites, (), [], 100, false⟩).1.failure.isNone = true := by
    decide +kernel
  obtain ⟨report, x, hrun, hok⟩ := runSelection_of_isNone hdone
  obtain ⟨report', x', hrun', hok'⟩ := runSelection_of_isNone hdone'
  have hprepare : (prepare oneByOne.options oneByOne.settings).runIn
      (⟨.migrated twoSuites, (), [], 100, false⟩ : World Unit) =
        (.ok oneByOne, ⟨.migrated twoSuites, (), [], 100, false⟩) := rfl
  have hprepare' : (prepare oneByOne.options (inPagesOf 250 500).settings).runIn
      (⟨.migrated twoSuites, (), [], 100, false⟩ : World Unit) =
        (.ok (inPagesOf 250 500), ⟨.migrated twoSuites, (), [], 100, false⟩) := rfl
  have hpolicy : (inPagesOf 250 500).settings.onParseError =
      oneByOne.settings.onParseError := rfl
  obtain ⟨hagree, hreports⟩ := runSelection_tuned
    (smallProject.service id true).answersAtOnce_client
    (smallProject.service id false).answersAtOnce_client (smallProject.servedBy_service id true)
    (smallProject.servedBy_service id false) hpolicy rfl hprepare hrun hok hprepare' hrun' hok'
  exact ⟨report, report', x, x', hrun, hrun', hok, hok', hagree, hreports⟩

end RunContext

end QaLake
