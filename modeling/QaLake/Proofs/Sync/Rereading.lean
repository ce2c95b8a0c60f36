import QaLake.Proofs.Sync.Accounting

namespace QaLake

open Store

variable {σ : Type}

theorem Tool.Row.depth_customFields_reread (r : Row) :
    (Json.obj r.reread.customFields).depth ≤ Json.Document.maxDepth := by
  have hempty : (Json.obj []).depth ≤ Json.Document.maxDepth := by decide
  cases r with
  | case c =>
    rw [reread, customFields, Case.reread, fieldsOf]
    split
    · rename_i members hmembers
      exact Json.depth_le_of_parse? hmembers
    · exact hempty
  | _ => exact hempty

namespace RunContext

variable {ctx : RunContext} {t : Tables} {kind : EntityKind} {r : Tool.Row} {d : Domain.Row}

/-- Behind a conversion that succeeds the domain row of a tool row is read back as itself exactly if
all its instants are in years of four digits and its attributes read back as themselves. Attributes
out of custom fields without floating-point numbers do, if no text became such a number. -/
theorem convert_reads_back (hkind : kind.isConverted = true) {stats : ConvertStats}
    {w w' : World σ} (hw : w.database = .migrated t)
    (h : (ctx.convert kind).runIn w = (.ok stats, w'))
    (hr : r ∈ t.tool.rowsIn ctx.scope kind) (hpositive : r.hasPositiveId = true)
    (hd : Domain.convert ctx.config r.reread = .row d) :
    w'.database.domainRow? d.kind d.id = .ok (some d.reread) ∧
      (w'.database.domainRow? d.kind d.id = .ok (some d) ↔
        (∀ i ∈ d.instants, i.HasFourDigitYear) ∧ d.attributesReread = d.attributes) ∧
      ((Json.obj r.reread.customFields).IsPlain →
        (∀ a ∈ d.attributes.members, a.2.isFloat = false) →
        (w'.database.domainRow? d.kind d.id = .ok (some d) ↔
          ∀ i ∈ d.instants, i.HasFourDigitYear)) := by
  obtain ⟨-, rfl⟩ := ctx.of_runIn_convert hw h
  have hkept : Domain.rejects ctx.config r = false := by
    rw [← Bool.not_eq_true, ← Domain.rejects_reread, ← Domain.convert_eq_filtered_iff, hd]
    exact Domain.Outcome.noConfusion
  have hfind : (withOutcomes t (ctx.outcomes t.tool kind)).domain.find? (d.kind, d.id) =
      some d := by
    obtain ⟨d', hd', hmem⟩ := mem_converts hkind hr hpositive hkept
    cases hd.symm.trans hd'
    exact find?_of_mem_converts hmem
  have hread : (w.holding (withOutcomes t (ctx.outcomes t.tool kind))).database.domainRow?
      d.kind d.id = .ok (some d.reread) :=
    Database.domainRow?_of_find? hfind (Domain.isRegular_of_convert hd)
      (Domain.attributes_isNumber hd)
  have hself : (w.holding (withOutcomes t (ctx.outcomes t.tool kind))).database.domainRow?
      d.kind d.id = .ok (some d) ↔
        (∀ i ∈ d.instants, i.HasFourDigitYear) ∧ d.attributesReread = d.attributes := by
    rw [← Domain.Row.reread_eq_self_iff, hread]
    simp
  refine ⟨hread, hself, fun hfields hfloat => ?_⟩
  have hattributes :=
    Domain.attributesReread_of_convert hd hfields r.depth_customFields_reread hfloat
  exact hself.trans (and_iff_left hattributes)

def hourRun : Tool.Run where
  connectionId := 1
  id := 3
  projectId := 7
  milestoneId := some 9
  isCompleted := true
  completedOn := some 1700003600
  counts := ⟨4, 1, 0, 0, 2⟩
  createdOn := 1700000000

def hourRuns : Tables :=
  { Tables.empty with tool := ToolTables.empty.insert (.run hourRun) }

theorem convert_reads_back_run :
    ∃ stats w' d, ((ofMilestone 9).convert .run).runIn
        (⟨.migrated hourRuns, (), [], 0, false⟩ : World Unit) = (.ok stats, w') ∧
      Tool.Row.run hourRun ∈ hourRuns.tool.rowsIn (ofMilestone 9).scope .run ∧
      Domain.convert (ofMilestone 9).config (.run hourRun) = .row d ∧
      d.instants = [⟨1700000000, 0⟩, ⟨1700003600, 0⟩] ∧
      w'.database.domainRow? .testRun "testrail:TestrailRun:1:3" = .ok (some d) := by
  have hrun := (ofMilestone 9).runIn_convert .run
    (w := (⟨.migrated hourRuns, (), [], 0, false⟩ : World Unit)) rfl rfl
  have hstored : hourRun ∈ hourRuns.tool.runs.rows := by decide +kernel
  have hx : Tool.Row.run hourRun ∈ hourRuns.tool.rowsIn (ofMilestone 9).scope .run :=
    List.mem_filter.2 ⟨List.mem_map_of_mem hstored, rfl⟩
  have hd : Domain.convert (ofMilestone 9).config (.run hourRun) =
      .row (.testRun ((Domain.TestRun.ofTool? (ofMilestone 9).config hourRun).getD {})) := rfl
  have hread := ((convert_reads_back (r := .run hourRun) rfl rfl hrun hx rfl hd).2.2
    ⟨List.Pairwise.nil, trivial⟩ (fun _ ha => nomatch ha)).2 (by decide +kernel)
  exact ⟨_, _, _, hrun, hx, hd, by decide +kernel, hread⟩

/-- A run of project 7 that was created on the first day of the year 10000. -/
def distantRuns : Service Unit :=
  Service.ofFunction id fun _ => .ok (.arr [.obj [("created_on", .int 253402300800),
    ("id", .int 9), ("name", .str "distant")]])

set_option maxRecDepth 100000 in
/-- The test run that such a run is converted to starts then, and is read back as one that starts
with the epoch. -/
theorem convert_loses_year :
    ∃ report w', ((inPagesOf 250 100).runSelection distantRuns
        (Subtask.all.filter fun s => s.entity = .run)).run
          ⟨.migrated .empty, (), [], 100, false⟩ = (report, w') ∧
      report.failure.isNone = true ∧
      w'.database.tables.toOption.map (fun t =>
        ((inPagesOf 250 100).converts t.tool .run).map Domain.Row.instants) =
          some [[⟨253402300800, 0⟩]] ∧
      (w'.database.testRun? "testrail:TestrailRun:1:9").toOption.map
        (fun r => r.map (·.startTime)) = some (some .epoch) :=
  ⟨_, _, rfl, by decide +kernel⟩

end RunContext

end QaLake
