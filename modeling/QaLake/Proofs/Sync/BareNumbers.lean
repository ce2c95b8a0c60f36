import QaLake.Proofs.Sync.Policies
import QaLake.Proofs.Sync.Writes

namespace QaLake

open Store

variable {σ : Type}

namespace Store

/-- Whether the record of a row is a bare number. -/
def StagedRow.IsBare (r : StagedRow) : Prop :=
  ∃ j : Json, j.isNumber = true ∧ r.data = Cell.ofText j.text

/-- Whether a row is as collections stage it: a JSON value, in a fan-out with the input that stands
for an id. -/
structure StagedRow.IsCollected (r : StagedRow) : Prop where
  data : ∃ j : Json, r.data = Cell.ofText j.text
  input : ∀ cell ∈ r.input, ∃ id, cell = Cell.ofText (RunContext.inputOf id).text

def Staging.IsCollected (s : Staging) : Prop :=
  ∀ r ∈ s.rows, r.IsCollected

theorem StagedRow.IsCollected.holdsNumber_iff {r : StagedRow} (h : r.IsCollected) :
    r.holdsNumber = true ↔ r.IsBare := by
  obtain ⟨j, hj⟩ := h.data
  -- Inputs are objects, so that only the record itself can be unreadable.
  have hinput : (r.input.any fun cell => cell.text?.isNone) = false := by
    cases hr : r.input with
    | none => rfl
    | some cell =>
      obtain ⟨id, hcell⟩ := h.input cell hr
      rw [hcell, Option.any_some, Cell.text?_ofText]
      rfl
  rw [holdsNumber, hinput, Bool.or_false, hj, Cell.text?_ofText]
  constructor
  · intro hnone
    refine ⟨j, ?_, hj⟩
    by_contra hnumber
    rw [if_neg hnumber] at hnone
    cases hnone
  · rintro ⟨j', hnumber, hj'⟩
    have htexts := congrArg Cell.text? (hj.symm.trans hj')
    rw [Cell.text?_ofText, Cell.text?_ofText, if_pos hnumber] at htexts
    rw [htexts]
    rfl

namespace Staging

theorem isCollected_empty : empty.IsCollected :=
  fun _ hr => nomatch hr

theorem IsCollected.delete {s : Staging} (h : s.IsCollected) (table tag : String) :
    (s.delete table tag).IsCollected :=
  fun r hr => h r (List.mem_filter.1 hr).1

theorem IsCollected.insertPage {s : Staging} (h : s.IsCollected) (table tag url : String)
    {input : Option Json} (hinput : ∀ j ∈ input, ∃ id, j = RunContext.inputOf id)
    (records : List Json) : (s.insertPage table tag url input records).IsCollected := by
  rw [Staging.insertPage]
  induction records generalizing s with
  | nil => exact h
  | cons record records ih =>
    rw [List.foldl_cons]
    apply ih
    intro r hr
    obtain hr | hr := List.mem_append.1 hr
    · exact h r hr
    · rw [List.mem_singleton.1 hr]
      refine ⟨⟨record, by dsimp only⟩, fun cell hcell => ?_⟩
      obtain ⟨j, hj, rfl⟩ := Option.map_eq_some_iff.1 hcell
      obtain ⟨id, rfl⟩ := hinput j hj
      exact ⟨id, rfl⟩

end Staging

end Store

namespace Subtask

theorem Write.isCollected {s : Subtask} {scope : RunScope} {t u : Tables} (h : s.Write scope t u)
    (ht : t.staging.IsCollected) : u.staging.IsCollected := by
  cases h with
  | clear hphase htable => exact ht.delete _ _
  | page hphase htable url hinput records => exact ht.insertPage _ _ url hinput records
  | tool hphase hkind hscope => exact ht
  | domain hphase hkind hid => exact ht

end Subtask

namespace RunContext

variable (ctx : RunContext)

/-- What is staged behind a run, whether it succeeds or fails, was staged by collections if that was
so before. -/
theorem isCollected_of_runSelection (client : Client σ) (selection : List Subtask) {w : World σ}
    {t : Tables} (hw : w.database = .migrated t) (ht : t.staging.IsCollected) :
    ∃ u, ((ctx.runSelection client selection).run w).2.database = .migrated u ∧
      u.staging.IsCollected := by
  obtain ⟨u, hu, hmoves⟩ := ctx.moves_runSteps client (Subtask.inOrder selection) hw
  refine ⟨u, hu, ?_⟩
  clear hu
  induction hmoves with
  | refl => exact ht
  | tail _ hlast ih =>
    obtain ⟨s, -, hwrite⟩ := hlast
    exact hwrite.isCollected ih

variable {ctx} {kind : EntityKind} {table : String} {w : World σ} {t : Tables}

theorem readRecord_of_skip (hskip : ctx.settings.onParseError = .skip) (x : RecordTexts)
    (e : Error) : ctx.readRecord kind x ≠ .error e := by
  rw [readRecord]
  cases Tool.rowsOfRecord kind ctx.scope x.1 x.2 <;> simp [hskip]

theorem rowsOfRecord_of_readRecord {x : RecordTexts} {e : Error}
    (h : ctx.readRecord kind x = .error e) :
    Tool.rowsOfRecord kind ctx.scope x.1 x.2 = .error e := by
  rw [readRecord] at h
  cases hrows : Tool.rowsOfRecord kind ctx.scope x.1 x.2 with
  | ok rows =>
    rw [hrows] at h
    cases h
  | error e' =>
    simp only [hrows] at h
    cases hpolicy : ctx.settings.onParseError with
    | abort =>
      rw [hpolicy] at h
      cases h
      rfl
    | skip =>
      rw [hpolicy] at h
      cases h

variable (hcollected : t.staging.IsCollected)

include hcollected

theorem exists_isBare (h : t.staging.records? table ctx.scope.tag = none) :
    ∃ r ∈ t.staging.rowsOf table ctx.scope.tag, r.IsBare := by
  have hsome := t.staging.isSome_records? table ctx.scope.tag
  rw [h, eq_comm, Option.isSome_none, List.all_eq_false] at hsome
  obtain ⟨r, hr, hnumber⟩ := hsome
  have hrow : r.IsCollected := hcollected r (List.mem_filter.1 hr).1
  exact ⟨r, hr, hrow.holdsNumber_iff.1 (by simpa using hnumber)⟩

theorem records?_eq_none {r : StagedRow} (hr : r ∈ t.staging.rowsOf table ctx.scope.tag)
    (hbare : r.IsBare) : t.staging.records? table ctx.scope.tag = none := by
  have hrow : r.IsCollected := hcollected r (List.mem_filter.1 hr).1
  have hnumber := hrow.holdsNumber_iff.2 hbare
  rw [← Option.not_isSome_iff_eq_none, Staging.isSome_records?, List.all_eq_true]
  intro hall
  have hread := hall r hr
  rw [hnumber] at hread
  cases hread

theorem cause_of_extract {e : Error} {w' : World σ} (htable : kind.stagingName = some table)
    (hw : w.database = .migrated t) (hgoes : w.cancelled = false)
    (h : (ctx.extract kind).runIn w = (.error e, w')) :
    (∃ a ∈ t.staging.rowsOf table ctx.scope.tag, ∃ r, a.record? = some r ∧
      ctx.readRecord kind (r.data, r.input) = .error e) ∨
    (e = .database ∧ ∃ r ∈ t.staging.rowsOf table ctx.scope.tag, r.IsBare) := by
  have hextract := ctx.runIn_extract (σ := σ) htable hw hgoes
  cases hrecords : t.staging.records? table ctx.scope.tag with
  | none =>
    rw [hrecords, h] at hextract
    obtain ⟨e', v, herror, hcause⟩ := hextract
    obtain ⟨he, -⟩ := Prod.mk.inj herror
    cases he
    obtain hdatabase | hrow := hcause
    · exact .inr ⟨hdatabase, exists_isBare hcollected hrecords⟩
    · exact .inl hrow
  | some rs =>
    simp only [hrecords, h] at hextract
    cases hmap : (rs.map fun r => (r.data, r.input)).mapM (ctx.readRecord kind) with
    | ok read =>
      rw [ctx.runIn_foldRows_extractRecord kind {} hw hgoes hmap] at hextract
      cases (Prod.mk.inj hextract).1
    | error e' =>
      obtain ⟨good, bad, rest, read, hsplit, hgood, hbad⟩ := Tool.exists_of_mapM_eq_error hmap
      obtain ⟨goods, others, rfl, rfl, hothers⟩ := List.map_eq_append_iff.1 hsplit
      obtain ⟨r, behind, rfl, rfl, rfl⟩ := List.map_eq_cons_iff.1 hothers
      rw [ctx.runIn_foldRows_of_error kind {} hw hgoes hgood hbad] at hextract
      cases (Prod.mk.inj hextract).1
      obtain ⟨a, ha, hread⟩ := exists_of_mapM_eq_some hrecords
        (List.mem_append_right _ List.mem_cons_self)
      exact .inl ⟨a, ha, r, hread, hbad⟩

/-- An extraction of what collections staged skips every record that it is to skip if none of them
is a bare number, and fails otherwise. Where records are not skipped, it fails with the parse error
of one of them or because one of them is a bare number. -/
theorem extract_of_collected (htable : kind.stagingName = some table)
    (hw : w.database = .migrated t) (hgoes : w.cancelled = false) :
    (ctx.settings.onParseError = .skip →
      ((∀ r ∈ t.staging.rowsOf table ctx.scope.tag, ¬r.IsBare) →
        ∃ rs, t.staging.records? table ctx.scope.tag = some rs ∧
          (ctx.extract kind).runIn w =
            (.ok (ctx.foldedStats kind rs), w.holding (ctx.folded kind t rs)) ∧
          (ctx.foldedStats kind rs).records =
            (t.staging.rowsOf table ctx.scope.tag).length) ∧
      ((∃ r ∈ t.staging.rowsOf table ctx.scope.tag, r.IsBare) →
        ∃ w', (ctx.extract kind).runIn w = (.error .database, w'))) ∧
    (ctx.settings.onParseError = .abort →
      ∀ e w', (ctx.extract kind).runIn w = (.error e, w') →
        (∃ a ∈ t.staging.rowsOf table ctx.scope.tag, ∃ r, a.record? = some r ∧
          Tool.rowsOfRecord kind ctx.scope r.data r.input = .error e ∧
          ∃ k ∈ kind.described, ∃ cause, e = .parse k cause) ∨
        (e = .database ∧ ∃ r ∈ t.staging.rowsOf table ctx.scope.tag, r.IsBare)) := by
  refine ⟨fun hskip => ⟨fun hnone => ?_, ?_⟩, fun _ e w' h => ?_⟩
  · cases hrecords : t.staging.records? table ctx.scope.tag with
    | none =>
      obtain ⟨r, hr, hbare⟩ := exists_isBare hcollected hrecords
      exact absurd hbare (hnone r hr)
    | some rs =>
      exact ⟨rs, rfl, ctx.extract_of_mapM_ok htable hw hgoes hrecords (.inl hskip),
        length_of_mapM hrecords⟩
  · rintro ⟨r, hr, hbare⟩
    have hextract := ctx.runIn_extract (σ := σ) htable hw hgoes
    rw [records?_eq_none hcollected hr hbare] at hextract
    obtain ⟨e, w', hrun, rfl | ⟨a, -, x, -, hread⟩⟩ := hextract
    · exact ⟨w', hrun⟩
    · exact absurd hread (readRecord_of_skip hskip _ e)
  · refine (cause_of_extract hcollected htable hw hgoes h).imp_left ?_
    rintro ⟨a, ha, r, hr, hread⟩
    have hrows := rowsOfRecord_of_readRecord hread
    exact ⟨a, ha, r, hr, hrows, Tool.onlyParses_rowsOfRecord kind ctx.scope _ _ e hrows⟩

omit hcollected

def skipping : RunContext :=
  { inPagesOf 250 100 with settings := { onParseError := .skip } }

def statusAnd (other : Json) : List Json :=
  [.obj [("id", .int 1), ("name", .str "passed")], other]

def statusesWith (other : Json) : Tables :=
  { Tables.empty with
    staging := Staging.empty.insertPage "testrail_statuses" skipping.scope.tag "" none
      (statusAnd other) }

set_option maxRecDepth 100000 in
/-- A record that is a string is skipped. -/
theorem extract_of_collected_string :
    (statusesWith (.str "5")).staging.IsCollected ∧
      ∃ stats w', (skipping.extract .status).runIn
          (⟨.migrated (statusesWith (.str "5")), (), [], 0, false⟩ : World Unit) =
            (.ok stats, w') ∧ stats.records = 2 ∧ stats.skipped = 1 := by
  have hcollected : (statusesWith (.str "5")).staging.IsCollected :=
    Staging.isCollected_empty.insertPage _ _ _ (by simp) _
  have htable : EntityKind.status.stagingName = some "testrail_statuses" := rfl
  have hreadable : ∀ r ∈ (statusesWith (.str "5")).staging.rowsOf "testrail_statuses"
      skipping.scope.tag, r.holdsNumber = false := by
    decide +kernel
  obtain ⟨rs, hrs, hrun, hcount⟩ := ((extract_of_collected
    (w := (⟨.migrated (statusesWith (.str "5")), (), [], 0, false⟩ : World Unit))
    hcollected htable rfl rfl).1 rfl).1 fun r hr hbare => by
      have hrow : r.IsCollected := hcollected r (List.mem_filter.1 hr).1
      have hnumber := hrow.holdsNumber_iff.2 hbare
      rw [hreadable r hr] at hnumber
      cases hnumber
  have hskipped : ((statusesWith (.str "5")).staging.records? "testrail_statuses"
      skipping.scope.tag).map (fun rs => (skipping.foldedStats .status rs).skipped) =
        some 1 := by
    decide +kernel
  rw [hrs] at hskipped
  exact ⟨hcollected, _, _, hrun, hcount.trans (by decide +kernel), Option.some.inj hskipped⟩

set_option maxRecDepth 100000 in
/-- A record that is a number stops the extraction behind its collection, although records that
cannot be parsed are to be skipped. -/
theorem skip_stops_at_number :
    ∃ report w', (skipping.runSelection
        (Service.ofFunction id fun _ => .ok (.arr (statusAnd (.int 5))))
        (Subtask.all.filter fun s => s.entity = .status && s.phase != .convert)).run
          ⟨.migrated .empty, (), [], 100, false⟩ = (report, w') ∧
      report.failure.map (fun f => (f.1.phase, f.1.entity, f.2)) =
        some (.extract, .status, .database) :=
  ⟨_, _, rfl, by decide +kernel⟩

end RunContext

end QaLake
