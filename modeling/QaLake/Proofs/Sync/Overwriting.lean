import QaLake.Proofs.Sync.Filled
import QaLake.Proofs.Sync.Scoped

namespace QaLake

open Store

variable {σ : Type}

namespace Store

theorem pairwise_id_of_streamed {ρ : Type} [Streamed ρ] [LawfulStreamed ρ] (tool : ToolTables)
    (scope : RunScope) (config : Option ScopeConfig) :
    (((tool.streamed ρ scope).map Streamed.toRow).filterMap fun r =>
      (Domain.convert config r).row?).Pairwise fun a b => a.id ≠ b.id := by
  rw [List.filterMap_map]
  apply pairwise_ne_of_streamed (Streamed.kind ρ)
  intro r d h
  obtain ⟨id, hname, hid⟩ := Domain.id_of_convert (Domain.Outcome.row?_eq_some_iff.1 h)
  have hplace := LawfulStreamed.name_toRow r
  rw [hname] at hplace
  injection hplace with hkind hconnection hinl
  rw [hid, hkind, hconnection, Sum.inl.inj hinl]
  rfl

theorem pairwise_id_of_converted (tool : ToolTables) (scope : RunScope) (kind : EntityKind)
    (config : Option ScopeConfig) :
    ((tool.converted scope kind).filterMap fun r =>
      (Domain.convert config r).row?).Pairwise fun a b => a.id ≠ b.id := by
  cases kind with
  | project => exact pairwise_id_of_streamed (ρ := Tool.Project) tool scope config
  | case => exact pairwise_id_of_streamed (ρ := Tool.Case) tool scope config
  | run => exact pairwise_id_of_streamed (ρ := Tool.Run) tool scope config
  | result => exact pairwise_id_of_streamed (ρ := Tool.Result) tool scope config
  | _ => exact List.Pairwise.nil

end Store

namespace RunContext

variable (ctx : RunContext)

def converts (tool : ToolTables) (kind : EntityKind) : List Domain.Row :=
  (tool.converted ctx.scope kind).filterMap fun r => (Domain.convert ctx.config r).row?

theorem filterMap_outcomes (tool : ToolTables) (kind : EntityKind) :
    (ctx.outcomes tool kind).filterMap Domain.Outcome.row? = ctx.converts tool kind := by
  rw [outcomes, List.filterMap_map]
  rfl

variable {ctx}

theorem countP_outcomes (tool : ToolTables) (kind : EntityKind) :
    (ctx.outcomes tool kind).countP Domain.Outcome.isFiltered =
      (tool.converted ctx.scope kind).countP (Domain.rejects ctx.config) := by
  rw [outcomes, List.countP_map]
  apply List.countP_congr
  intro r hr
  exact Domain.Outcome.isFiltered_iff.trans Domain.convert_eq_filtered_iff

theorem pairwise_converts (ctx : RunContext) (tool : ToolTables) (kind : EntityKind) :
    (ctx.converts tool kind).Pairwise fun a b => (a.kind, a.id) ≠ (b.kind, b.id) :=
  (pairwise_id_of_converted tool ctx.scope kind ctx.config).imp fun hne he =>
    hne (congrArg Prod.snd he)

theorem find?_of_converts (t : Tables) (kind : EntityKind) (n : Domain.Kind × String) :
    (withOutcomes t (ctx.outcomes t.tool kind)).domain.find? n =
      ((ctx.converts t.tool kind).find? fun d => (d.kind, d.id) = n).or (t.domain.find? n) := by
  rw [withOutcomes, filterMap_outcomes, DomainTables.overwriting.get_foldl,
    lastUnder_eq_find? (ctx.pairwise_converts t.tool kind)]

theorem find?_of_mem_converts {t : Tables} {kind : EntityKind} {d : Domain.Row}
    (hd : d ∈ ctx.converts t.tool kind) :
    (withOutcomes t (ctx.outcomes t.tool kind)).domain.find? (d.kind, d.id) = some d := by
  have hfirst := find?_of_mem (ctx.pairwise_converts t.tool kind) hd
  rw [find?_of_converts, hfirst, Option.some_or]

theorem rows_of_converts (t : Tables) {kind : EntityKind} {k : Domain.Kind}
    (hk : k ∉ kind.convertedKinds) :
    (withOutcomes t (ctx.outcomes t.tool kind)).domain.rows k = t.domain.rows k := by
  have hkinds : ∀ d ∈ ctx.converts t.tool kind, k ≠ d.kind := by
    intro d hd he
    rw [← filterMap_outcomes] at hd
    exact hk (he ▸ kind_of_mem_outcomes hd)
  rw [withOutcomes, filterMap_outcomes]
  generalize ctx.converts t.tool kind = ds at hkinds
  generalize t.domain = domain
  induction ds generalizing domain with
  | nil => rfl
  | cons d ds ih =>
    rw [List.foldl_cons, ih fun d' hd' => hkinds d' (List.mem_cons_of_mem _ hd'),
      DomainTables.rows_insert_of_ne _ _ (hkinds d List.mem_cons_self)]

/-- The counters of a converted run are those of its tool row: all five together, and the blocked
ones as skipped. -/
theorem counts_of_convert {config : Option ScopeConfig} {x : Tool.Run} {d : Domain.Row}
    (h : Domain.convert config (.run x) = .row d) :
    ∃ r, d = .testRun r ∧
      (Word.IsSigned (x.counts.passed + x.counts.blocked + x.counts.untested +
          x.counts.retest + x.counts.failed) →
        r.totalCount = x.counts.passed + x.counts.blocked + x.counts.untested +
          x.counts.retest + x.counts.failed) ∧
      r.skippedCount = x.counts.blocked := by
  obtain ⟨p, hx, -⟩ | ⟨c, -, hx, -⟩ | ⟨u, r, hu, hr, rfl⟩ | ⟨e, hx, -⟩ := Domain.cases_of_convert h
  · cases hx
  · cases hx
  · cases hu
    obtain ⟨-, -, hskipped, htotal⟩ := Domain.TestRun.fields_of_ofTool? hr
    refine ⟨r, rfl, fun hsum => ?_, hskipped⟩
    rw [htotal, Tool.Counts.total_eq, Word.wrap_of_isSigned hsum]
  · cases hx

def ofMilestone (milestone : Int) : RunContext :=
  { inPagesOf 2 1 with config := some { ScopeConfig.empty with includedMilestones := [milestone] } }

def twoRuns : Tables :=
  { Tables.empty with
    tool := (ToolTables.empty.insert (.run {
      connectionId := 1, id := 3, projectId := 7, milestoneId := some 9
      counts := ⟨4, 1, 0, 0, 2⟩ })).insert (.run { connectionId := 1, id := 4, projectId := 7 }) }

end RunContext

end QaLake
