import QaLake.Proofs.Store.Contents
import QaLake.Proofs.Sync.Fold
import QaLake.Proofs.Sync.Visit
import QaLake.Proofs.Tool.Record
import QaLake.Sync.Extraction

namespace QaLake

open Store

variable {σ : Type}

abbrev RecordTexts := String × Option String

def ExtractStats.of (read : List (Option (List Tool.Row))) : ExtractStats :=
  ⟨read.length, (read.flatMap (·.getD [])).length, read.countP Option.isNone⟩

def ExtractStats.plus (stats : ExtractStats) (read : List (Option (List Tool.Row))) :
    ExtractStats :=
  ⟨stats.records + read.length, stats.rows + (read.flatMap (·.getD [])).length,
    stats.skipped + read.countP Option.isNone⟩

theorem ExtractStats.plus_nil (stats : ExtractStats) : stats.plus [] = stats := by
  simp [plus]

theorem ExtractStats.plus_append (stats : ExtractStats)
    (read more : List (Option (List Tool.Row))) :
    stats.plus (read ++ more) = (stats.plus read).plus more := by
  simp [plus, Nat.add_assoc]

theorem ExtractStats.plus_empty (read : List (Option (List Tool.Row))) :
    ExtractStats.plus {} read = .of read := by
  simp [plus, of]

namespace RunContext

variable (ctx : RunContext)

/-- The rows of a record, nothing if it is skipped, or the failure that it ends the extraction with.
-/
def readRecord (kind : EntityKind) (x : RecordTexts) : Except Error (Option (List Tool.Row)) :=
  match Tool.rowsOfRecord kind ctx.scope x.1 x.2 with
  | .ok rows => .ok (some rows)
  | .error e =>
    match ctx.settings.onParseError with
    | .abort => .error e
    | .skip => .ok none

def rowsRead (kind : EntityKind) (x : RecordTexts) : List Tool.Row :=
  (Tool.rowsOfRecord kind ctx.scope x.1 x.2).toOption.getD []

variable {ctx} in
theorem mem_rowsRead {kind : EntityKind} {x : RecordTexts} {r : Tool.Row}
    (h : r ∈ ctx.rowsRead kind x) :
    ∃ rows, Tool.rowsOfRecord kind ctx.scope x.1 x.2 = .ok rows ∧ r ∈ rows := by
  rw [rowsRead] at h
  cases hrows : Tool.rowsOfRecord kind ctx.scope x.1 x.2 with
  | ok rows =>
    rw [hrows] at h
    exact ⟨rows, rfl, h⟩
  | error e =>
    rw [hrows] at h
    cases h

theorem rowsRead_of_readRecord {kind : EntityKind} {x : RecordTexts} {o : Option (List Tool.Row)}
    (h : ctx.readRecord kind x = .ok o) : o.getD [] = ctx.rowsRead kind x := by
  rw [readRecord] at h
  rw [rowsRead]
  cases hrows : Tool.rowsOfRecord kind ctx.scope x.1 x.2 with
  | ok rows =>
    rw [hrows] at h
    cases h
    rfl
  | error e =>
    simp only [hrows] at h
    cases hpolicy : ctx.settings.onParseError with
    | abort =>
      rw [hpolicy] at h
      cases h
    | skip =>
      rw [hpolicy] at h
      cases h
      rfl

theorem flatMap_of_readRecord {kind : EntityKind} {texts : List RecordTexts}
    {read : List (Option (List Tool.Row))} (h : texts.mapM (ctx.readRecord kind) = .ok read) :
    read.flatMap (·.getD []) = texts.flatMap (ctx.rowsRead kind) := by
  induction texts generalizing read with
  | nil =>
    cases h
    rfl
  | cons x texts ih =>
    rw [List.mapM_cons] at h
    obtain ⟨first, hfirst, h⟩ := Tool.exists_of_bind_eq_ok h
    obtain ⟨rest, hrest, h⟩ := Tool.exists_of_bind_eq_ok h
    cases h
    rw [List.flatMap_cons, List.flatMap_cons, ctx.rowsRead_of_readRecord hfirst, ih hrest]

def withRows (t : Tables) (read : List (Option (List Tool.Row))) : Tables :=
  { t with tool := (read.flatMap (·.getD [])).foldl ToolTables.insert t.tool }

theorem withRows_append (t : Tables) (read more : List (Option (List Tool.Row))) :
    withRows t (read ++ more) = withRows (withRows t read) more := by
  simp [withRows]

theorem runIn_putRows (rows : List Tool.Row) {w : World σ} {t : Tables}
    (hw : w.database = .migrated t) :
    (putRows rows : Action σ Unit).runIn w =
      (.ok (), w.holding { t with tool := rows.foldl ToolTables.insert t.tool }) := by
  induction rows generalizing w t with
  | nil =>
    obtain ⟨db, remote, calls, budget, cancelled⟩ := w
    cases hw
    rfl
  | cons r rows ih =>
    have hput : (Action.update fun db => db.putTool r : Action σ Unit).runIn w =
        (.ok (), w.holding { t with tool := t.tool.insert r }) := by
      rw [Action.runIn_update, hw]
      rfl
    rw [putRows, Action.runIn_bind_of_ok hput, ih rfl]
    rfl

theorem runIn_extractRecord (kind : EntityKind) (stats : ExtractStats) (r : StagedRecord)
    {w : World σ} {t : Tables} (hw : w.database = .migrated t) :
    (ctx.extractRecord kind stats r).runIn w =
      match ctx.readRecord kind (r.data, r.input) with
      | .ok o => (.ok (stats.plus [o]), w.holding (withRows t [o]))
      | .error e => (.error e, w) := by
  have hself : w.holding t = w := by
    obtain ⟨db, remote, calls, budget, cancelled⟩ := w
    cases hw
    rfl
  rw [extractRecord, readRecord]
  cases hrows : Tool.rowsOfRecord kind ctx.scope r.data r.input with
  | ok rows =>
    rw [Action.runIn_bind_of_ok (runIn_putRows rows hw)]
    simp [ExtractStats.plus, withRows]
  | error e =>
    cases hpolicy : ctx.settings.onParseError with
    | abort => simp
    | skip => simp [ExtractStats.plus, withRows, hself]

/-- Going through records, each is read into rows or skipped, up to the first that may not be. -/
theorem runIn_foldRows_extractRecord (kind : EntityKind) {rs : List StagedRecord}
    {read : List (Option (List Tool.Row))} (stats : ExtractStats) {w : World σ} {t : Tables}
    (hw : w.database = .migrated t) (hgoes : w.cancelled = false)
    (hread : (rs.map fun r => (r.data, r.input)).mapM (ctx.readRecord kind) = .ok read) :
    (Action.foldRows (ctx.extractRecord kind) rs stats).runIn w =
      (.ok (stats.plus read), w.holding (withRows t read)) := by
  induction rs generalizing stats w t read with
  | nil =>
    cases hread
    obtain ⟨db, remote, calls, budget, cancelled⟩ := w
    cases hw
    exact congrArg (fun stats => (Except.ok stats, _)) (ExtractStats.plus_nil stats).symm
  | cons r rs ih =>
    have hcheck : (Action.checkCancelled : Action σ Unit).runIn w = (.ok (), w) :=
      Action.runIn_checkCancelled_ok.2 ⟨hgoes, rfl⟩
    rw [List.map_cons, List.mapM_cons] at hread
    obtain ⟨o, ho, hread⟩ := Tool.exists_of_bind_eq_ok hread
    obtain ⟨rest, hrest, hread⟩ := Tool.exists_of_bind_eq_ok hread
    cases hread
    have hrecord := ctx.runIn_extractRecord kind stats r hw
    rw [ho] at hrecord
    have hothers := ih (stats.plus [o]) (w := w.holding (withRows t [o])) rfl hgoes hrest
    rw [Action.foldRows, Action.runIn_bind_of_ok hcheck, Action.runIn_bind_of_ok hrecord, hothers]
    change _ = (Except.ok (stats.plus ([o] ++ rest)), w.holding (withRows t ([o] ++ rest)))
    rw [ExtractStats.plus_append, withRows_append]
    rfl

/-- The records before one that may not be skipped are written, and those behind it are not. -/
theorem runIn_foldRows_of_error (kind : EntityKind) {good rest : List StagedRecord}
    {bad : StagedRecord} {read : List (Option (List Tool.Row))} {e : Error} (stats : ExtractStats)
    {w : World σ} {t : Tables} (hw : w.database = .migrated t) (hgoes : w.cancelled = false)
    (hread : (good.map fun r => (r.data, r.input)).mapM (ctx.readRecord kind) = .ok read)
    (hbad : ctx.readRecord kind (bad.data, bad.input) = .error e) :
    (Action.foldRows (ctx.extractRecord kind) (good ++ bad :: rest) stats).runIn w =
      (.error e, w.holding (withRows t read)) := by
  have hcheck : (Action.checkCancelled : Action σ Unit).runIn (w.holding (withRows t read)) =
      (.ok (), w.holding (withRows t read)) := Action.runIn_checkCancelled_ok.2 ⟨hgoes, rfl⟩
  have hrecord := ctx.runIn_extractRecord kind (stats.plus read) bad
    (w := w.holding (withRows t read)) rfl
  rw [hbad] at hrecord
  rw [Action.foldRows_append,
    Action.runIn_bind_of_ok (ctx.runIn_foldRows_extractRecord kind stats hw hgoes hread),
    Action.foldRows, Action.runIn_bind_of_ok hcheck, Action.runIn_bind_of_error hrecord]

theorem hasStaged_extractRecord (kind : EntityKind) (stats : ExtractStats) (r : StagedRecord)
    {t : Tables} {w : World σ} (hw : Action.HasStaged t w) :
    Action.HasStaged t ((ctx.extractRecord kind stats r).runIn w).2 := by
  obtain ⟨⟨u, hu, hstaged⟩, hgoes⟩ := hw
  rw [ctx.runIn_extractRecord kind stats r hu]
  cases ctx.readRecord kind (r.data, r.input) with
  | ok o => exact ⟨⟨_, rfl, hstaged⟩, hgoes⟩
  | error e => exact ⟨⟨u, hu, hstaged⟩, hgoes⟩

/-- An extraction goes through the staged records as they are read. If not all can be read, it fails
for that reason or because of a record that may not be skipped. -/
theorem runIn_extract {kind : EntityKind} {table : String} (htable : kind.stagingName = some table)
    {w : World σ} {t : Tables} (hw : w.database = .migrated t) (hgoes : w.cancelled = false) :
    match t.staging.records? table ctx.scope.tag with
    | some rs => (ctx.extract kind : Action σ ExtractStats).runIn w =
        (Action.foldRows (ctx.extractRecord kind) rs {}).runIn w
    | none => ∃ e w', (ctx.extract kind : Action σ ExtractStats).runIn w = (.error e, w') ∧
        (e = .database ∨ ∃ a ∈ t.staging.rowsOf table ctx.scope.tag, ∃ r, a.record? = some r ∧
          ctx.readRecord kind (r.data, r.input) = .error e) := by
  have hfold := Action.runIn_foldSource_staged (w := w) table ctx.scope ctx.settings.batchSize {}
    ⟨⟨t, hw, rfl⟩, hgoes⟩ fun stats r _ => ctx.hasStaged_extractRecord kind stats r
  rw [extract, htable]
  cases hrecords : t.staging.records? table ctx.scope.tag with
  | some rs =>
    rw [hrecords] at hfold
    exact hfold
  | none =>
    rw [hrecords] at hfold
    obtain ⟨e, w', hrun, hcause⟩ := hfold
    refine ⟨e, w', hrun, hcause.imp_right ?_⟩
    rintro ⟨a, ha, r, stats, v, hr, ⟨⟨u, hu, -⟩, -⟩, hstep⟩
    rw [ctx.runIn_extractRecord kind stats r hu] at hstep
    refine ⟨a, ha, r, hr, ?_⟩
    cases hread : ctx.readRecord kind (r.data, r.input) with
    | ok o =>
      rw [hread] at hstep
      cases hstep
    | error e' =>
      rw [hread] at hstep
      cases hstep
      rfl

/-- An extraction succeeds if all staged records can be read and each can be parsed or skipped. -/
theorem runIn_extract_ok_iff {kind : EntityKind} {table : String}
    (htable : kind.stagingName = some table) {w w' : World σ} {t : Tables} {stats : ExtractStats}
    (hw : w.database = .migrated t) (hgoes : w.cancelled = false) :
    (ctx.extract kind).runIn w = (.ok stats, w') ↔
      ∃ texts read, (t.staging.contents table ctx.scope.tag).mapM Entry.texts? = some texts ∧
        texts.mapM (ctx.readRecord kind) = .ok read ∧ stats = .of read ∧
        w' = w.holding (withRows t read) := by
  have hextract := ctx.runIn_extract (σ := σ) htable hw hgoes
  rw [← t.staging.records?_texts]
  cases hrecords : t.staging.records? table ctx.scope.tag with
  | none =>
    rw [hrecords] at hextract
    obtain ⟨e, v, hfail, -⟩ := hextract
    rw [hfail]
    simp
  | some rs =>
    rw [hrecords] at hextract
    rw [hextract, Option.map_some]
    cases hmap : (rs.map fun r => (r.data, r.input)).mapM (ctx.readRecord kind) with
    | error e =>
      obtain ⟨good, bad, rest, read, hsplit, hgood, hbad⟩ := Tool.exists_of_mapM_eq_error hmap
      obtain ⟨goods, others, rfl, rfl, hothers⟩ := List.map_eq_append_iff.1 hsplit
      obtain ⟨r, behind, rfl, rfl, rfl⟩ := List.map_eq_cons_iff.1 hothers
      rw [ctx.runIn_foldRows_of_error kind {} hw hgoes hgood hbad]
      constructor
      · intro h
        cases (Prod.mk.inj h).1
      · rintro ⟨_, _, htexts, hread, -, -⟩
        cases htexts
        rw [hmap] at hread
        cases hread
    | ok read =>
      rw [ctx.runIn_foldRows_extractRecord kind {} hw hgoes hmap, ExtractStats.plus_empty]
      constructor
      · intro h
        obtain ⟨hstats, hw'⟩ := Prod.mk.inj h
        cases hstats
        exact ⟨_, read, rfl, hmap, rfl, hw'.symm⟩
      · rintro ⟨_, _, htexts, hread, rfl, rfl⟩
        cases htexts
        rw [hmap] at hread
        cases hread
        rfl

end RunContext

end QaLake
