import QaLake.Proofs.Store.Contents
import QaLake.Proofs.Store.Tags

namespace QaLake

open Store

namespace Store

/-- A call that changes what is staged for a table and a scope: it takes the records away, or adds
those of a page. -/
inductive StagingWrite
  | clear (table : String) (scope : RunScope)
  | page (table : String) (scope : RunScope) (url : String) (input : Option Json)
    (records : List Json)

namespace StagingWrite

def table : StagingWrite → String
  | clear table _ => table
  | page table _ _ _ _ => table

def scope : StagingWrite → RunScope
  | clear _ scope => scope
  | page _ scope _ _ _ => scope

def isFor (table : String) (a : RunScope) (w : StagingWrite) : Bool :=
  w.table == table && w.scope == a

def apply (w : StagingWrite) (db : Database) : Except Error Database :=
  match w with
  | clear table scope => db.clearStaged table scope
  | page table scope url input records => db.stagePage table scope url input records

def effect (w : StagingWrite) (entries : List Entry) : List Entry :=
  match w with
  | clear _ _ => []
  | page _ _ url input records => entries ++ records.map (Entry.ofRecord url input)

def onStaging (w : StagingWrite) (s : Staging) : Staging :=
  match w with
  | clear table scope => s.delete table scope.tag
  | page table scope url input records => s.insertPage table scope.tag url input records

end StagingWrite

end Store

namespace Database

def afterWrites (db : Database) (writes : List StagingWrite) : Except Error Database :=
  writes.foldlM (fun db w => w.apply db) db

def stagedRows : Database → List StagedRow
  | unmigrated => []
  | migrated t => t.staging.rows

/-- The staged rows of a table whose tags are read as a scope, however they are spelled. -/
def rowsReadAs (db : Database) (table : String) (a : RunScope) : List StagedRow :=
  db.stagedRows.filter fun r => r.table = table ∧ RunScope.ofText r.tag = .ok a

def entriesOf (db : Database) (table : String) (a : RunScope) : List Entry :=
  (db.stagedRows.filter (Staging.belongs table a.tag)).map StagedRow.entry

/-- Whether what is staged for a scope in a database is out of the reach of all other scopes. -/
structure KeepsApart (db : Database) (a : RunScope) : Prop where
  /-- Calls for other scopes, or for other tables, leave the rows as they are and all that is
  read of them. -/
  unchanged : ∀ table writes db',
    (∀ w ∈ writes, w.scope.IsSigned ∧ w.isFor table a = false) →
    db.afterWrites writes = .ok db' →
    db'.rowsReadAs table a = db.rowsReadAs table a ∧
      db'.countStaged table a = db.countStaged table a ∧
      ∀ after limit, db'.stagedBatch table a after limit = db.stagedBatch table a after limit
  /-- What is read of the scope depends on its own rows alone, whatever else is staged. -/
  unseen : ∀ table (db' : Database), db'.version = db.version →
    db'.rowsReadAs table a = db.rowsReadAs table a →
    db'.countStaged table a = db.countStaged table a ∧
      ∀ after limit, db'.stagedBatch table a after limit = db.stagedBatch table a after limit
  /-- A batch holds the first rows of the scope behind an id, and nothing else. -/
  confined : ∀ table after limit records,
    db.stagedBatch table a after limit = .ok records →
    (((db.rowsReadAs table a).filter fun r => r.tag = a.tag ∧ after < r.id).take limit).mapM
      StagedRow.record? = some records
  /-- Of any calls, only those for the table and the scope have an effect there. -/
  written : ∀ table writes db', db.afterWrites writes = .ok db' →
    db'.entriesOf table a =
      (writes.filter (StagingWrite.isFor table a)).foldl (fun entries w => w.effect entries)
        (db.entriesOf table a)
  /-- A page adds its records to those counted before. -/
  counted : ∀ table url input records,
    (db.stagePage table a url input records >>= fun db => db.countStaged table a) =
      (db.countStaged table a).map (· + records.length)
  /-- In a database with tables all calls succeed, and the records can be counted afterwards. -/
  answered : db.version ≠ 0 → ∀ writes, ∃ db', db.afterWrites writes = .ok db' ∧
    ∀ table, db'.countStaged table a = .ok (db'.entriesOf table a).length

end Database

namespace Store.StagingWrite

variable {w : StagingWrite} {writes : List StagingWrite} {p : StagedRow → Bool}

theorem belongs_eq_false {table : String} {a : RunScope} (h : w.isFor table a = false)
    (r : StagedRow) (hr : Staging.belongs w.table w.scope.tag r = true) :
    Staging.belongs table a.tag r = false := by
  obtain ⟨htable, htag⟩ := Staging.belongs_iff.1 hr
  rw [Staging.belongs, htable, htag, Bool.and_eq_false_imp]
  intro hsame
  rw [isFor, hsame, Bool.true_and] at h
  simp only [beq_eq_false_iff_ne] at h ⊢
  exact fun he => h (RunScope.tag_injective he)

theorem filter_rows_onStaging (hp : ∀ r, Staging.belongs w.table w.scope.tag r = true → p r = false)
    (s : Staging) : (w.onStaging s).rows.filter p = s.rows.filter p := by
  cases w with
  | clear table scope => exact s.filter_rows_delete hp
  | page table scope url input records =>
    exact (s.appends_insertPage table scope.tag url input records).filter_rows hp

theorem filter_rows_foldl (hp : ∀ w ∈ writes, ∀ r,
      Staging.belongs w.table w.scope.tag r = true → p r = false) (s : Staging) :
    (writes.foldl (fun s w => w.onStaging s) s).rows.filter p = s.rows.filter p := by
  induction writes generalizing s with
  | nil => rfl
  | cons w rest ih =>
    obtain ⟨hw, hrest⟩ := List.forall_mem_cons.1 hp
    rw [List.foldl_cons, ih hrest, filter_rows_onStaging hw]

theorem contents_onStaging (w : StagingWrite) (s : Staging) :
    (w.onStaging s).contents w.table w.scope.tag = w.effect (s.contents w.table w.scope.tag) := by
  cases w with
  | clear table scope => exact s.contents_delete table scope.tag
  | page table scope url input records =>
    exact s.contents_insertPage table scope.tag url input records

/-- What is staged for a table and a scope after some calls comes from the calls for them. -/
theorem contents_foldl (writes : List StagingWrite) (s : Staging) (table : String) (a : RunScope) :
    (writes.foldl (fun s w => w.onStaging s) s).contents table a.tag =
      (writes.filter (isFor table a)).foldl (fun entries w => w.effect entries)
        (s.contents table a.tag) := by
  induction writes generalizing s with
  | nil => rfl
  | cons w rest ih =>
    rw [List.foldl_cons, ih]
    cases hw : w.isFor table a with
    | true =>
      obtain ⟨rfl, rfl⟩ : w.table = table ∧ w.scope = a := by simpa [isFor] using hw
      rw [List.filter_cons_of_pos hw, List.foldl_cons, contents_onStaging]
    | false =>
      have hrows : (w.onStaging s).rowsOf table a.tag = s.rowsOf table a.tag :=
        filter_rows_onStaging (belongs_eq_false hw) s
      rw [List.filter_cons_of_neg (ne_true_of_eq_false hw), Staging.contents, hrows]
      rfl

theorem apply_migrated (w : StagingWrite) (t : Tables) :
    w.apply (.migrated t) = .ok (.migrated { t with staging := w.onStaging t.staging }) := by
  cases w <;> rfl

theorem afterWrites_migrated (writes : List StagingWrite) (t : Tables) :
    (Database.migrated t).afterWrites writes =
      .ok (.migrated { t with staging := writes.foldl (fun s w => w.onStaging s) t.staging }) := by
  induction writes generalizing t with
  | nil => rfl
  | cons w rest ih =>
    rw [Database.afterWrites, List.foldlM_cons, apply_migrated]
    exact ih { t with staging := w.onStaging t.staging }

theorem eq_of_afterWrites_unmigrated {db : Database}
    (h : Database.unmigrated.afterWrites writes = .ok db) : writes = [] ∧ db = .unmigrated := by
  cases writes with
  | nil =>
    cases h
    exact ⟨rfl, rfl⟩
  | cons w rest => cases w <;> cases h

end Store.StagingWrite

namespace Database

variable {db db' : Database} {table : String} {a : RunScope}

/-- The rows that are counted and read for a scope are among those whose tags are read as it. -/
theorem rowsOf_eq_filter (ha : a.IsSigned) (t : Tables) (table : String) :
    t.staging.rowsOf table a.tag =
      ((migrated t).rowsReadAs table a).filter fun r => r.tag = a.tag := by
  change t.staging.rows.filter _ = (t.staging.rows.filter _).filter _
  rw [List.filter_filter]
  refine List.filter_congr fun r _ => ?_
  rw [Staging.belongs]
  by_cases htag : r.tag = a.tag
  · simp [htag, RunScope.ofText_tag ha, Bool.beq_eq_decide_eq]
  · simp [htag]

theorem reads_congr (ha : a.IsSigned) (hversion : db'.version = db.version)
    (hrows : db'.rowsReadAs table a = db.rowsReadAs table a) :
    db'.countStaged table a = db.countStaged table a ∧
      ∀ after limit, db'.stagedBatch table a after limit = db.stagedBatch table a after limit := by
  cases db with
  | unmigrated =>
    cases db' with
    | unmigrated => exact ⟨rfl, fun _ _ => rfl⟩
    | migrated u => cases hversion
  | migrated t =>
    cases db' with
    | unmigrated => cases hversion
    | migrated u =>
      have hsame : u.staging.rowsOf table a.tag = t.staging.rowsOf table a.tag := by
        rw [rowsOf_eq_filter ha, rowsOf_eq_filter ha, hrows]
      simp only [countStaged, stagedBatch, read, Staging.batch?, hsame, and_self, implies_true]

theorem rowsReadAs_afterWrites {writes : List StagingWrite}
    (hwrites : ∀ w ∈ writes, w.scope.IsSigned ∧ w.isFor table a = false)
    (h : db.afterWrites writes = .ok db') :
    db'.version = db.version ∧ db'.rowsReadAs table a = db.rowsReadAs table a := by
  cases db with
  | unmigrated =>
    obtain ⟨-, rfl⟩ := StagingWrite.eq_of_afterWrites_unmigrated h
    exact ⟨rfl, rfl⟩
  | migrated t =>
    rw [StagingWrite.afterWrites_migrated] at h
    cases h
    refine ⟨rfl, StagingWrite.filter_rows_foldl (fun w hw r hr => ?_) t.staging⟩
    obtain ⟨hsigned, hother⟩ := hwrites w hw
    obtain ⟨htable, htag⟩ := Staging.belongs_iff.1 hr
    -- The tag of another scope is read as that scope.
    rw [htable, htag, RunScope.ofText_tag hsigned, decide_eq_false_iff_not, Except.ok.injEq]
    simpa [StagingWrite.isFor] using hother

theorem mapM_of_stagedBatch (ha : a.IsSigned) {after : Int} {limit : Nat}
    {records : List StagedRecord} (h : db.stagedBatch table a after limit = .ok records) :
    (((db.rowsReadAs table a).filter fun r => r.tag = a.tag ∧ after < r.id).take limit).mapM
      StagedRow.record? = some records := by
  cases db with
  | unmigrated => cases h
  | migrated t =>
    have hrows : (((migrated t).rowsReadAs table a).filter fun r => r.tag = a.tag ∧ after < r.id) =
        (t.staging.rowsOf table a.tag).filter fun r => after < r.id := by
      rw [rowsOf_eq_filter ha, List.filter_filter]
      exact List.filter_congr fun r _ => by rw [Bool.and_comm, Bool.decide_and]
    rw [hrows]
    simp only [stagedBatch, read, Staging.batch?] at h
    split at h
    · rename_i hbatch
      cases h
      exact hbatch
    · cases h

theorem countStaged_migrated (t : Tables) (table : String) (a : RunScope) :
    (migrated t).countStaged table a = .ok ((migrated t).entriesOf table a).length := by
  change Except.ok (t.staging.rowsOf table a.tag).length = .ok (List.map _ _).length
  rw [List.length_map]
  rfl

theorem countStaged_stagePage (db : Database) (table : String) (a : RunScope) (url : String)
    (input : Option Json) (records : List Json) :
    (db.stagePage table a url input records >>= fun db => db.countStaged table a) =
      (db.countStaged table a).map (· + records.length) := by
  cases db with
  | unmigrated => rfl
  | migrated t =>
    have hentries : (migrated { t with
          staging := t.staging.insertPage table a.tag url input records }).entriesOf table a =
        (migrated t).entriesOf table a ++ records.map (Entry.ofRecord url input) :=
      t.staging.contents_insertPage table a.tag url input records
    change (migrated _).countStaged table a = ((migrated t).countStaged table a).map _
    rw [countStaged_migrated, countStaged_migrated, hentries, List.length_append, List.length_map]
    rfl

theorem entriesOf_afterWrites {writes : List StagingWrite}
    (h : db.afterWrites writes = .ok db') :
    db'.entriesOf table a =
      (writes.filter (StagingWrite.isFor table a)).foldl (fun entries w => w.effect entries)
        (db.entriesOf table a) := by
  cases db with
  | unmigrated =>
    obtain ⟨rfl, rfl⟩ := StagingWrite.eq_of_afterWrites_unmigrated h
    rfl
  | migrated t =>
    rw [StagingWrite.afterWrites_migrated] at h
    cases h
    exact StagingWrite.contents_foldl writes t.staging table a

theorem keepsApart (db : Database) (ha : a.IsSigned) : db.KeepsApart a where
  unchanged table writes db' hwrites h := by
    obtain ⟨hversion, hrows⟩ := rowsReadAs_afterWrites hwrites h
    exact ⟨hrows, reads_congr ha hversion hrows⟩
  unseen _ _ hversion hrows := reads_congr ha hversion hrows
  confined _ _ _ _ h := mapM_of_stagedBatch ha h
  written _ _ _ h := entriesOf_afterWrites h
  counted table url input records := db.countStaged_stagePage table a url input records
  answered hversion writes := by
    cases db with
    | unmigrated => exact absurd rfl hversion
    | migrated t =>
      exact ⟨_, StagingWrite.afterWrites_migrated writes t, fun table =>
        countStaged_migrated _ table a⟩

end Database

/-- Comparing tags is comparing scopes. The tag of a scope is no other's and is read as the scope.
A text is read as the scope, and so comes to its tag when it is written again, exactly if it says
the two numbers: under their names, in any order, with any blanks and among other members, or as an
array. In every database, then, what is staged for the scope is out of the reach of all others. -/
theorem RunScope.scopes_apart {a : RunScope} (ha : a.IsSigned) :
    (∀ b : RunScope, a.tag = b.tag ↔ a = b) ∧ ofText a.tag = .ok a ∧
      (∀ text, (ofText text = .ok a ↔ a.IsWrittenIn text) ∧
        ((ofText text).map tag = .ok a.tag ↔ a.IsWrittenIn text)) ∧
      ∀ db : Database, db.KeepsApart a := by
  have htext : ∀ text, ofText text = .ok a ↔ a.IsWrittenIn text := fun text =>
    ofText_eq_ok_iff.trans (and_iff_right ha)
  refine ⟨fun b => ⟨tag_injective, fun h => h ▸ rfl⟩, ofText_tag ha, fun text => ⟨htext text, ?_⟩,
    fun db => db.keepsApart ha⟩
  rw [← htext]
  cases ofText text with
  | error e => simp [Except.map]
  | ok b =>
    simp only [Except.map, Except.ok.injEq]
    exact ⟨tag_injective, fun h => h ▸ rfl⟩

/-- A text of a scope with blanks, its members swapped and one of another name between them. -/
def RunScope.swappedText : String :=
  " \x7b \"projectId\" : 7,\t\"note\":[null, 5], \"connectionId\":1\x7d\n"

def Store.StagingWrite.mixed : List StagingWrite :=
  [.page "cases" ⟨1, 8⟩ "index.php" none [.obj []],
    .page "cases" ⟨1, 7⟩ "index.php" none [.obj [], .arr []],
    .clear "cases" ⟨1, 8⟩]

theorem RunScope.scopes_apart_swapped :
    RunScope.IsSigned ⟨1, 7⟩ ∧ ofText swappedText = .ok ⟨1, 7⟩ ∧
      RunScope.IsWrittenIn ⟨1, 7⟩ swappedText ∧
      ∃ db, (Database.migrated .empty).afterWrites StagingWrite.mixed = .ok db ∧
        db.countStaged "cases" ⟨1, 7⟩ = .ok 2 := by
  have ha : RunScope.IsSigned ⟨1, 7⟩ := ⟨by decide, by decide⟩
  obtain ⟨-, -, hread, hkeeps⟩ := scopes_apart ha
  have htext : ofText swappedText = .ok ⟨1, 7⟩ := by decide +kernel
  have hdb := hkeeps (.migrated .empty)
  obtain ⟨db, hwrites, hcount⟩ := hdb.answered (by decide) StagingWrite.mixed
  refine ⟨ha, htext, (hread _).1.1 htext, db, hwrites, ?_⟩
  rw [hcount, hdb.written "cases" _ _ hwrites]
  rfl

end QaLake
