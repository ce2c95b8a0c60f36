import Mathlib.Data.List.Basic
import QaLake.Proofs.Sync.Overwriting

namespace QaLake

open Store

variable {σ : Type}

namespace Domain

variable {config : Option ScopeConfig} {r : Tool.Row}

theorem rejects_reread (r : Tool.Row) : rejects config r.reread = rejects config r := by
  cases r <;> rfl

theorem isSome_row?_convert (hkind : r.kind.isConverted = true) :
    (convert config r).row?.isSome = !rejects config r := by
  have hfiltered := @convert_eq_filtered_iff config r
  cases h : convert config r with
  | row d =>
    have hkept : rejects config r ≠ true := fun he => by
      rw [hfiltered.2 he] at h
      cases h
    simp [Outcome.row?, hkept]
  | filtered => simp [Outcome.row?, hfiltered.1 h]
  | noCounterpart =>
    rw [convert_eq_noCounterpart_iff, hkind] at h
    cases h

end Domain

namespace RunContext

variable {ctx : RunContext} {t : Tables} {kind : EntityKind} {r : Tool.Row}

theorem kind_of_mem_rowsIn {scope : RunScope} (hkind : kind.isConverted = true)
    (hr : r ∈ t.tool.rowsIn scope kind) : r.kind = kind := by
  have hrows := (List.mem_filter.1 hr).1
  cases kind with
  | project | case | run | result =>
    obtain ⟨x, -, rfl⟩ := List.mem_map.1 hrows
    rfl
  | _ => cases hkind

theorem length_converts (hkind : kind.isConverted = true) :
    (ctx.converts t.tool kind).length +
        (t.tool.converted ctx.scope kind).countP (Domain.rejects ctx.config) =
      (t.tool.converted ctx.scope kind).length := by
  have hkept : (ctx.converts t.tool kind).length =
      (t.tool.converted ctx.scope kind).countP fun r => !Domain.rejects ctx.config r := by
    rw [converts, List.length_filterMap_eq_countP]
    apply List.countP_congr
    intro r hr
    have hr' : r.kind.isConverted = true := (kind_of_mem_converted hr).symm ▸ hkind
    rw [Domain.isSome_row?_convert hr']
  rw [hkept, List.countP_eq_length_filter, List.countP_eq_length_filter, Nat.add_comm,
    ← List.length_eq_length_filter_add]

theorem length_converted (hkind : kind.isConverted = true) :
    (t.tool.converted ctx.scope kind).length +
        (t.tool.rowsIn ctx.scope kind).countP (fun r => !r.hasPositiveId) =
      (t.tool.rowsIn ctx.scope kind).length := by
  rw [t.tool.converted_eq ctx.scope hkind, List.length_map, List.countP_eq_length_filter,
    ← List.length_eq_length_filter_add]

theorem mem_converts (hkind : kind.isConverted = true) (hr : r ∈ t.tool.rowsIn ctx.scope kind)
    (hpositive : r.hasPositiveId = true) (hkept : Domain.rejects ctx.config r = false) :
    ∃ d, Domain.convert ctx.config r.reread = .row d ∧ d ∈ ctx.converts t.tool kind := by
  have hkind' : r.reread.kind.isConverted = true := by
    rw [← Tool.Row.kind_name, Tool.Row.name_reread, Tool.Row.kind_name,
      kind_of_mem_rowsIn hkind hr]
    exact hkind
  have hsome := @Domain.isSome_row?_convert ctx.config _ hkind'
  rw [Domain.rejects_reread, hkept] at hsome
  obtain ⟨d, hd⟩ := Option.isSome_iff_exists.1 hsome
  refine ⟨d, Domain.Outcome.row?_eq_some_iff.1 hd, List.mem_filterMap.2 ⟨r.reread, ?_, hd⟩⟩
  rw [t.tool.converted_eq ctx.scope hkind]
  exact List.mem_map_of_mem (List.mem_filter.2 ⟨hr, hpositive⟩)

theorem find?_of_not_positive (hkind : kind.isConverted = true) {c id : Int} (hid : ¬0 < id)
    (k : Domain.Kind) :
    (withOutcomes t (ctx.outcomes t.tool kind)).domain.find? (k, Domain.idOf kind c id) =
      t.domain.find? (k, Domain.idOf kind c id) := by
  have hnone : (ctx.converts t.tool kind).find?
      (fun d => (d.kind, d.id) = (k, Domain.idOf kind c id)) = none := by
    rw [List.find?_eq_none]
    intro d hd he
    obtain ⟨r, hr, hrow⟩ := List.mem_filterMap.1 hd
    have hpositive := ToolTables.hasPositiveId_of_mem_converted hkind hr
    obtain ⟨id', hname, hid'⟩ := Domain.id_of_convert (Domain.Outcome.row?_eq_some_iff.1 hrow)
    have hsame : Domain.idOf r.kind r.connectionId id' = Domain.idOf kind c id :=
      hid'.symm.trans (congrArg Prod.snd (of_decide_eq_true he))
    rw [Tool.Row.hasPositiveId, hname] at hpositive
    rw [toString_int_injective (domainId_injective hsame).2.2] at hpositive
    exact hid (of_decide_eq_true hpositive)
  rw [find?_of_converts, hnone, Option.none_or]

/-- A conversion that succeeds counts the rows of the scope but those whose ids are not positive.
Each row with a positive id has its domain row or is rejected, and of the others nothing is
written. -/
theorem convert_accounts (hkind : kind.isConverted = true) {stats : ConvertStats}
    {w w' : World σ} (hw : w.database = .migrated t)
    (h : (ctx.convert kind).runIn w = (.ok stats, w')) :
    let rows := t.tool.rowsIn ctx.scope kind
    stats.rows + stats.filtered + rows.countP (fun r => !r.hasPositiveId) = rows.length ∧
      (stats.rows + stats.filtered = rows.length ↔ ∀ r ∈ rows, r.hasPositiveId = true) ∧
      ∃ domain : DomainTables, w'.database = .migrated { t with domain := domain } ∧
        (∀ r ∈ rows, r.hasPositiveId = true →
          Domain.rejects ctx.config r = true ∨
          ∃ d, Domain.convert ctx.config r.reread = .row d ∧
            domain.find? (d.kind, d.id) = some d) ∧
        ∀ r ∈ rows, ∀ id, r.name.id = .inl id → ¬0 < id → ∀ k,
          domain.find? (k, Domain.idOf kind r.connectionId id) =
            t.domain.find? (k, Domain.idOf kind r.connectionId id) := by
  intro rows
  obtain ⟨rfl, rfl⟩ := ctx.of_runIn_convert hw h
  have hcount : (ConvertStats.of (ctx.outcomes t.tool kind)).rows +
      (ConvertStats.of (ctx.outcomes t.tool kind)).filtered +
        rows.countP (fun r => !r.hasPositiveId) = rows.length := by
    rw [ConvertStats.of, filterMap_outcomes, countP_outcomes, length_converts hkind,
      length_converted hkind]
  refine ⟨hcount, ?_, _, rfl, fun r hr hpositive => ?_, fun r _ id _ hid k =>
    find?_of_not_positive hkind hid k⟩
  · have hnone : rows.countP (fun r => !r.hasPositiveId) = 0 ↔
        ∀ r ∈ rows, r.hasPositiveId = true := by
      simp [List.countP_eq_zero]
    rw [← hnone]
    change (ConvertStats.of (ctx.outcomes t.tool kind)).rows +
      (ConvertStats.of (ctx.outcomes t.tool kind)).filtered = rows.length ↔ _
    omega
  · cases hkept : Domain.rejects ctx.config r with
    | true => exact .inl rfl
    | false =>
      obtain ⟨d, hconvert, hd⟩ := mem_converts hkind hr hpositive hkept
      exact .inr ⟨d, hconvert, find?_of_mem_converts hd⟩

theorem convert_accounts_milestone :
    ∃ stats w', ((ofMilestone 9).convert .run).runIn
        (⟨.migrated twoRuns, (), [], 0, false⟩ : World Unit) = (.ok stats, w') ∧
      stats.rows + stats.filtered = 2 := by
  have hrun := (ofMilestone 9).runIn_convert .run
    (w := (⟨.migrated twoRuns, (), [], 0, false⟩ : World Unit)) rfl rfl
  obtain ⟨-, hall, -⟩ := convert_accounts rfl rfl hrun
  have hpositive : ∀ r ∈ twoRuns.tool.rowsIn (ofMilestone 9).scope .run,
      r.hasPositiveId = true := by
    decide +kernel
  exact ⟨_, _, hrun, (hall.2 hpositive).trans (by decide +kernel)⟩

def namelessRuns : Service Unit :=
  Service.ofFunction id fun _ => .ok (.arr [.obj [("name", .str "nightly")]])

set_option maxRecDepth 100000 in
/-- A run without an id is extracted as one of the id zero, and is neither converted nor counted. -/
theorem convert_passes_over_zero :
    ∃ report w', ((inPagesOf 250 100).runSelection namelessRuns
        (Subtask.all.filter fun s => s.entity = .run)).run
          ⟨.migrated .empty, (), [], 100, false⟩ = (report, w') ∧
      report.failure.isNone = true ∧
      report.steps.getLast?.map (·.outcome) = some (.converted ⟨0, 0⟩) ∧
      w'.database.tables.toOption.map (fun t =>
        (t.tool.rowsIn (inPagesOf 250 100).scope .run).length) = some 1 :=
  ⟨_, _, rfl, by decide +kernel⟩

end RunContext

end QaLake
