import QaLake.Proofs.Sync.Completeness
import QaLake.Proofs.Sync.Extraction

namespace QaLake

open Store

variable {σ : Type}

namespace Store

/-- Whether the record of a row or its input is kept as a number, so that it cannot be read. -/
def StagedRow.holdsNumber (r : StagedRow) : Bool :=
  r.data.text?.isNone || r.input.any fun cell => cell.text?.isNone

theorem StagedRow.isSome_record? (r : StagedRow) : r.record?.isSome = !r.holdsNumber := by
  obtain ⟨id, table, tag, data, url, input⟩ := r
  cases hdata : data.text? with
  | none => simp [record?, holdsNumber, hdata]
  | some text =>
    cases input with
    | none => simp [record?, holdsNumber, hdata]
    | some cell => cases hcell : cell.text? <;> simp [record?, holdsNumber, hdata, hcell]

/-- The staged records of a table and a scope can be read if none is kept as a number. -/
theorem Staging.isSome_records? (s : Staging) (table tag : String) :
    (s.records? table tag).isSome = (s.rowsOf table tag).all fun r => !r.holdsNumber := by
  rw [records?, isSome_mapM]
  simp only [StagedRow.isSome_record?]

end Store

namespace RunContext

variable (ctx : RunContext)

def rejects (kind : EntityKind) (r : StagedRecord) : Bool :=
  (Tool.rowsOfRecord kind ctx.scope r.data r.input).toOption.isNone

def folded (kind : EntityKind) (t : Tables) (rs : List StagedRecord) : Tables :=
  { t with
    tool := rs.foldl
      (fun tool r => (ctx.rowsRead kind (r.data, r.input)).foldl ToolTables.insert tool) t.tool }

def foldedStats (kind : EntityKind) (rs : List StagedRecord) : ExtractStats :=
  ⟨rs.length, (rs.flatMap fun r => ctx.rowsRead kind (r.data, r.input)).length,
    rs.countP (ctx.rejects kind)⟩

def parsed (kind : EntityKind) (rs : List StagedRecord) : List (Option (List Tool.Row)) :=
  rs.map fun r => (Tool.rowsOfRecord kind ctx.scope r.data r.input).toOption

theorem withRows_parsed (kind : EntityKind) (t : Tables) (rs : List StagedRecord) :
    withRows t (ctx.parsed kind rs) = ctx.folded kind t rs := by
  rw [withRows, folded, parsed, List.flatMap_map, List.foldl_flatMap]
  rfl

theorem stats_parsed (kind : EntityKind) (rs : List StagedRecord) :
    ExtractStats.of (ctx.parsed kind rs) = ctx.foldedStats kind rs := by
  rw [ExtractStats.of, foldedStats, parsed, List.length_map, List.flatMap_map, List.countP_map]
  rfl

theorem mapM_readRecord {kind : EntityKind} {rs : List StagedRecord}
    (h : ctx.settings.onParseError = .skip ∨ ∀ r ∈ rs, ctx.rejects kind r = false) :
    (rs.map fun r => (r.data, r.input)).mapM (ctx.readRecord kind) = .ok (ctx.parsed kind rs) := by
  induction rs with
  | nil => rfl
  | cons r rs ih =>
    have hrest := ih (h.imp_right fun hall r' hr' => hall r' (List.mem_cons_of_mem _ hr'))
    have hfirst : ctx.readRecord kind (r.data, r.input) =
        .ok (Tool.rowsOfRecord kind ctx.scope r.data r.input).toOption := by
      rw [readRecord]
      cases hrows : Tool.rowsOfRecord kind ctx.scope r.data r.input with
      | ok rows => rfl
      | error e =>
        obtain hskip | hall := h
        · simp only [hskip]
          rfl
        · have hreject := hall r List.mem_cons_self
          rw [rejects, hrows] at hreject
          cases hreject
    rw [List.map_cons, List.mapM_cons, hfirst, hrest]
    rfl

variable {kind : EntityKind} {table : String} {w : World σ} {t : Tables}

theorem extract_of_mapM_ok {rs : List StagedRecord} (htable : kind.stagingName = some table)
    (hw : w.database = .migrated t) (hgoes : w.cancelled = false)
    (hrecords : t.staging.records? table ctx.scope.tag = some rs)
    (h : ctx.settings.onParseError = .skip ∨ ∀ r ∈ rs, ctx.rejects kind r = false) :
    (ctx.extract kind).runIn w =
      (.ok (ctx.foldedStats kind rs), w.holding (ctx.folded kind t rs)) := by
  have hextract := ctx.runIn_extract (σ := σ) htable hw hgoes
  rw [hrecords] at hextract
  rw [hextract, ctx.runIn_foldRows_extractRecord kind {} hw hgoes (ctx.mapM_readRecord h),
    ExtractStats.plus_empty, ctx.stats_parsed, ctx.withRows_parsed]

theorem extract_of_rejected {good rest : List StagedRecord} {bad : StagedRecord} {e : Error}
    (htable : kind.stagingName = some table) (hw : w.database = .migrated t)
    (hgoes : w.cancelled = false)
    (hrecords : t.staging.records? table ctx.scope.tag = some (good ++ bad :: rest))
    (habort : ctx.settings.onParseError = .abort)
    (hgood : ∀ r ∈ good, ctx.rejects kind r = false)
    (hbad : Tool.rowsOfRecord kind ctx.scope bad.data bad.input = .error e) :
    (ctx.extract kind).runIn w = (.error e, w.holding (ctx.folded kind t good)) := by
  have hextract := ctx.runIn_extract (σ := σ) htable hw hgoes
  have hread : ctx.readRecord kind (bad.data, bad.input) = .error e := by
    simp only [readRecord, hbad, habort]
  rw [hrecords] at hextract
  rw [hextract, ctx.runIn_foldRows_of_error kind {} hw hgoes (ctx.mapM_readRecord (.inr hgood))
    hread, ctx.withRows_parsed]

/-- An extraction of records none of which is kept as a number is a fold over them. Rejected records
are passed over, or the first of them ends the extraction with its error, behind the rows of those
before it. Nothing but the tool tables changes. -/
theorem extract_folds (htable : kind.stagingName = some table) (hw : w.database = .migrated t)
    (hgoes : w.cancelled = false)
    (hnumbers : ∀ r ∈ t.staging.rowsOf table ctx.scope.tag, r.holdsNumber = false) :
    ∃ rs, t.staging.records? table ctx.scope.tag = some rs ∧
      (ctx.settings.onParseError = .skip → (ctx.extract kind).runIn w =
        (.ok (ctx.foldedStats kind rs), w.holding (ctx.folded kind t rs))) ∧
      (ctx.settings.onParseError = .abort →
        ((∀ r ∈ rs, ctx.rejects kind r = false) → (ctx.foldedStats kind rs).skipped = 0 ∧
          (ctx.extract kind).runIn w =
            (.ok (ctx.foldedStats kind rs), w.holding (ctx.folded kind t rs))) ∧
        ∀ good bad rest e, rs = good ++ bad :: rest → (∀ r ∈ good, ctx.rejects kind r = false) →
          Tool.rowsOfRecord kind ctx.scope bad.data bad.input = .error e →
          (ctx.extract kind).runIn w = (.error e, w.holding (ctx.folded kind t good))) := by
  have hsome : (t.staging.records? table ctx.scope.tag).isSome = true := by
    rw [Staging.isSome_records?, List.all_eq_true]
    intro r hr
    rw [hnumbers r hr]
    rfl
  obtain ⟨rs, hrecords⟩ := Option.isSome_iff_exists.1 hsome
  refine ⟨rs, hrecords, fun hskip => ?_, fun habort => ⟨fun hall => ⟨?_, ?_⟩, ?_⟩⟩
  · exact ctx.extract_of_mapM_ok htable hw hgoes hrecords (.inl hskip)
  · apply List.countP_eq_zero.2
    intro r hr
    rw [hall r hr]
    exact Bool.false_ne_true
  · exact ctx.extract_of_mapM_ok htable hw hgoes hrecords (.inr hall)
  · rintro good bad rest e rfl hgood hbad
    exact ctx.extract_of_rejected htable hw hgoes hrecords habort hgood hbad

def failure? {α : Type} : Except Error α → Option Error
  | .ok _ => none
  | .error e => some e

theorem eq_error_of_failure? {α : Type} {x : Except Error α} {e : Error}
    (h : failure? x = some e) : x = .error e := by
  cases x with
  | ok a => cases h
  | error e' => exact congrArg Except.error (Option.some.inj h)

def planOf (id : Int) (entries : List String) : Json :=
  .obj [("entries", .arr (entries.map fun entry => .obj [("id", .str entry)])), ("id", .int id)]

/-- Tables with two staged plans. The last entry of the second has no id. -/
def stagedPlans : Tables :=
  { Tables.empty with
    staging := Staging.empty.insertPage "testrail_plans" (RunScope.tag ⟨1, 7⟩) "" none
      [planOf 1 ["a"], planOf 2 ["b", ""]] }

set_option maxRecDepth 100000 in
/-- The plan whose last entry is rejected is not written, and the plan before it is. -/
theorem extract_folds_plans :
    ∃ w' u, ((inPagesOf 250 1).extract .plan).runIn
        (⟨.migrated stagedPlans, (), [], 0, false⟩ : World Unit) =
          (.error (.parse .planEntry (.entryWithoutId 2)), w') ∧
      w'.database = .migrated u ∧ (u.tool.find? ⟨.plan, 1, .inl 1⟩).isSome = true ∧
      (u.tool.find? ⟨.planEntry, 1, .inr "a"⟩).isSome = true ∧
      u.tool.find? ⟨.plan, 1, .inl 2⟩ = none ∧ u.tool.find? ⟨.planEntry, 1, .inr "b"⟩ = none := by
  let ctx := inPagesOf 250 1
  let first : StagedRecord :=
    ⟨1, "testrail_plans", ctx.scope.tag, (planOf 1 ["a"]).text, "", none⟩
  let second : StagedRecord :=
    ⟨2, "testrail_plans", ctx.scope.tag, (planOf 2 ["b", ""]).text, "", none⟩
  have hrecords : stagedPlans.staging.records? "testrail_plans" ctx.scope.tag =
      some ([first] ++ second :: []) := by decide +kernel
  have htable : EntityKind.plan.stagingName = some "testrail_plans" := rfl
  obtain ⟨rs, hrs, -, habort⟩ := ctx.extract_folds htable
    (w := (⟨.migrated stagedPlans, (), [], 0, false⟩ : World Unit)) rfl rfl (by decide +kernel)
  obtain rfl := Option.some.inj (hrs.symm.trans hrecords)
  have hbad : Tool.rowsOfRecord .plan ctx.scope second.data second.input =
      .error (.parse .planEntry (.entryWithoutId 2)) := eq_error_of_failure? (by decide +kernel)
  have hrun := (habort rfl).2 [first] second [] _ rfl (by decide +kernel) hbad
  exact ⟨_, _, hrun, rfl, by decide +kernel, by decide +kernel,
    Option.isNone_iff_eq_none.1 (by decide +kernel),
    Option.isNone_iff_eq_none.1 (by decide +kernel)⟩

end RunContext

end QaLake
