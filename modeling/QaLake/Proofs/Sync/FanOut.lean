import Mathlib.Data.List.Perm.Basic
import QaLake.Proofs.Endpoint.Inputs
import QaLake.Proofs.Store.Rows
import QaLake.Proofs.Sync.Course
import QaLake.Proofs.Sync.Extraction
import QaLake.Proofs.Sync.InFlight

namespace QaLake

open Store

variable {σ : Type}

theorem flatMap_eq_of_perm {α β : Type} {f : α → List β} {as bs : List α} (hperm : as.Perm bs)
    (h : as.Pairwise fun a b => f a ++ f b = f b ++ f a) : as.flatMap f = bs.flatMap f := by
  induction hperm with
  | nil => rfl
  | cons a _ ih => rw [List.flatMap_cons, List.flatMap_cons, ih (List.pairwise_cons.1 h).2]
  | swap a b as =>
    have hswap := (List.pairwise_cons.1 h).1 a List.mem_cons_self
    simp only [List.flatMap_cons, ← List.append_assoc, hswap]
  | trans h₁ h₂ ih₁ ih₂ => exact (ih₁ h).trans (ih₂ (h₁.pairwise h fun hab => hab.symm))

theorem Overwriting.foldl_eq_of_filter {S κ ρ : Type} [DecidableEq κ] {get : S → κ → Option ρ}
    {put : S → ρ → S} {key : ρ → κ} (h : Overwriting get put key) {rows rows' : List ρ}
    (hrows : ∀ k, (rows.filter fun r => key r = k) = rows'.filter fun r => key r = k) (s : S) :
    rows.foldl put s = rows'.foldl put s := by
  refine h.ext _ _ fun k => ?_
  rw [h.get_foldl, h.get_foldl, lastUnder, lastUnder, hrows k]

namespace Collector

variable {c : Collector} {gives : Request → Json → Prop} {input : Option Json} {path : String}
  {offset : Nat} {visits visits' : List Visit}

theorem Walk.withInputs (h : c.Walk gives input path offset visits) (inputs : Option (List Json)) :
    ({ c with inputs := inputs } : Collector).Walk gives input path offset visits := by
  induction h with
  | last hgives hpage hlast => exact .last hgives hpage hlast
  | more hgives hpage hmore _ ih => exact .more hgives hpage hmore ih

section Fixed

variable {service : Service σ} {answer : Request → Except Error Json}
  (hfixed : service.IsFixed answer)

include hfixed

theorem page_of_fixed {request : Request} {j j' : Json} {page page' : Page}
    (hj : service.Gives request j) (hj' : service.Gives request j')
    (hpage : c.form.page j = .ok page) (hpage' : c.form.page j' = .ok page') : page = page' := by
  have hanswer := (hfixed.answer_eq hj).symm.trans (hfixed.answer_eq hj')
  rw [Except.ok.inj hanswer, hpage'] at hpage
  exact (Except.ok.inj hpage).symm

theorem Walk.entries_eq {input' : Option Json} (url : Request → String)
    (hinput : input.map (fun j => Cell.ofText j.text) = input'.map fun j => Cell.ofText j.text)
    (h : c.Walk service.Gives input path offset visits)
    (h' : c.Walk service.Gives input' path offset visits') :
    visits.flatMap (Visit.entries url) = visits'.flatMap (Visit.entries url) := by
  have hentries : ∀ (request : Request) (page : Page),
      Visit.entries url ⟨input, request, page⟩ = Visit.entries url ⟨input', request, page⟩ := by
    intro request page
    refine List.map_congr_left fun record _ => ?_
    rw [Entry.ofRecord, Entry.ofRecord, hinput]
  induction h generalizing visits' with
  | @last offset j page hgives hpage hlast =>
    cases h' with
    | @last _ j' page' hgives' hpage' _ =>
      rw [page_of_fixed hfixed hgives hgives' hpage hpage']
      simp [hentries]
    | @more _ j' page' _ hgives' hpage' hmore' _ =>
      rw [page_of_fixed hfixed hgives hgives' hpage hpage', hmore'] at hlast
      cases hlast
  | @more offset j page visits hgives hpage hmore _ ih =>
    cases h' with
    | @last _ j' page' hgives' hpage' hlast' =>
      rw [page_of_fixed hfixed hgives hgives' hpage hpage', hlast'] at hmore
      cases hmore
    | @more _ j' page' visits' hgives' hpage' _ hrest' =>
      obtain rfl := page_of_fixed hfixed hgives hgives' hpage hpage'
      rw [List.flatMap_cons, List.flatMap_cons, ih hrest', hentries]

end Fixed

theorem Fetches.withInputs {input : Json} (h : c.Fetches gives input visits)
    (inputs : Option (List Json)) :
    ({ c with inputs := inputs } : Collector).Fetches gives input visits := by
  obtain ⟨path, hpath, hwalk⟩ := h
  exact ⟨path, hpath, hwalk.withInputs inputs⟩

theorem Fetches.entries_eq {service : Service σ} {answer : Request → Except Error Json}
    (hfixed : service.IsFixed answer) (url : Request → String) {i j : Json}
    (hcell : Cell.ofText i.text = Cell.ofText j.text) (h : c.Fetches service.Gives i visits)
    (h' : c.Fetches service.Gives j visits') :
    visits.flatMap (Visit.entries url) = visits'.flatMap (Visit.entries url) := by
  obtain ⟨path, hpath, hwalk⟩ := h
  obtain ⟨path', hpath', hwalk'⟩ := h'
  obtain rfl := Except.ok.inj ((PathTemplate.render_of_cell hcell hpath).symm.trans hpath')
  have hinput : (some i).map (fun j => Cell.ofText j.text) =
      (some j).map fun j => Cell.ofText j.text := congrArg some hcell
  exact hwalk.entries_eq hfixed url hinput hwalk'

theorem Walks.exists_units {inputs : List Json} (h : c.Walks gives (inputs.map some) visits) :
    ∃ units : List (Json × List Visit), units.map Prod.fst = inputs ∧
      (∀ unit ∈ units, c.Fetches gives unit.1 unit.2) ∧ visits = units.flatMap Prod.snd := by
  induction inputs generalizing visits with
  | nil =>
    cases h
    exact ⟨[], rfl, fun _ hunit => (nomatch hunit), rfl⟩
  | cons input inputs ih =>
    cases h with
    | @cons _ path _ visits more hpath hwalk hrest =>
      obtain ⟨units, rfl, hunits, rfl⟩ := ih hrest
      exact ⟨(input, visits) :: units, rfl,
        List.forall_mem_cons.2 ⟨⟨path, hpath, hwalk⟩, hunits⟩, rfl⟩

theorem walks_of_units {units : List (Json × List Visit)}
    (h : ∀ unit ∈ units, c.Fetches gives unit.1 unit.2) :
    c.Walks gives ((units.map Prod.fst).map some) (units.flatMap Prod.snd) := by
  induction units with
  | nil => exact .nil
  | cons unit units ih =>
    obtain ⟨⟨path, hpath, hwalk⟩, hunits⟩ := List.forall_mem_cons.1 h
    exact .cons hpath hwalk (ih hunits)

theorem execute_units {service : Service σ} {answer : Request → Except Error Json}
    (hfixed : service.IsFixed answer) (c : Collector) {units : List (Json × List Visit)}
    (h : ∀ unit ∈ units, c.Fetches service.Gives unit.1 unit.2) {w : World σ} {t : Tables}
    (hw : w.database = .migrated t) (hgoes : w.cancelled = false)
    (hbudget : (units.flatMap Prod.snd).length ≤ w.budget) :
    ∃ v, (execute { c with inputs := some (units.map Prod.fst) } service).runIn w =
        (.ok (Fetched.ofVisits (units.flatMap Prod.snd)).stats, v) ∧
      v.database = .migrated (t.collected c.table c.scope.tag (stagedUrl service)
        (units.flatMap Prod.snd)) ∧ v.cancelled = false := by
  have hwalks := walks_of_units fun unit hunit =>
    (h unit hunit).withInputs (some (units.map Prod.fst))
  obtain ⟨v, hrun, hreach, hv⟩ := execute_of_fixed _ hfixed hwalks hw hbudget hgoes
  exact ⟨v, hrun, hreach.database, hv⟩

theorem exists_units_of_execute {service : Service σ} {inputs : List Json} {w v : World σ}
    {t : Tables} (hw : w.database = .migrated t) {stats : CollectStats}
    (h : (execute { c with inputs := some inputs } service).runIn w = (.ok stats, v)) :
    ∃ units : List (Json × List Visit), units.map Prod.fst = inputs ∧
      (∀ unit ∈ units, c.Fetches service.Gives unit.1 unit.2) ∧
      stats = (Fetched.ofVisits (units.flatMap Prod.snd)).stats ∧
      (units.flatMap Prod.snd).length ≤ w.budget := by
  obtain ⟨visits, hwalks, hstats, hreach⟩ := reaches_of_execute _ service.answersAtOnce_client hw h
  obtain ⟨units, hinputs, hfetches, rfl⟩ := Walks.exists_units hwalks
  have hbudget := hreach.budget
  exact ⟨units, hinputs, fun unit hunit => (hfetches unit hunit).withInputs c.inputs, hstats,
    by omega⟩

theorem inputs_eq_nil_of_cancelled {service : Service σ} {inputs : List Json} {w w' : World σ}
    {t : Tables} (hw : w.database = .migrated t) (hcancelled : w.cancelled = true)
    {stats : CollectStats}
    (h : (execute { c with inputs := some inputs } service).runIn w = (.ok stats, w')) :
    inputs = [] := by
  let fan : Collector := { c with inputs := some inputs }
  obtain ⟨visits, ending, hcourses⟩ := fan.exists_courses service w fan.walkInputs
  rw [fan.runIn_execute hw hcourses] at h
  obtain ⟨rfl, -⟩ := Ending.eq_through_of_outcome (Prod.mk.inj h).1
  obtain hnil | hgoes := hcourses.goes_of_through
  · exact List.map_eq_nil_iff.1 hnil
  · rw [hcancelled] at hgoes
    cases hgoes

def unitEntries (url : Request → String) (unit : Json × List Visit) : List Entry :=
  unit.2.flatMap (Visit.entries url)

theorem contents_collected (t : Tables) (table tag : String) (url : Request → String)
    (units : List (Json × List Visit)) :
    (t.collected table tag url (units.flatMap Prod.snd)).staging.contents table tag =
      units.flatMap (unitEntries url) := by
  rw [Tables.collected, Staging.contents_stageVisits, Staging.contents_delete, List.nil_append,
    List.flatMap_assoc]
  rfl

theorem input_of_mem_unitEntries {url : Request → String} {unit : Json × List Visit}
    (h : c.Fetches gives unit.1 unit.2) {a : Entry} (ha : a ∈ unitEntries url unit) :
    a.input = some (Cell.ofText unit.1.text) := by
  obtain ⟨path, -, hwalk⟩ := h
  obtain ⟨v, hv, ha⟩ := List.mem_flatMap.1 ha
  obtain ⟨record, -, rfl⟩ := List.mem_map.1 ha
  rw [Entry.ofRecord, hwalk.input_eq v hv]
  rfl

theorem filter_unitEntries_of_perm {service : Service σ}
    {answer : Request → Except Error Json} (hfixed : service.IsFixed answer)
    (url : Request → String) {units units' : List (Json × List Visit)}
    (hperm : units.Perm units') (h : ∀ unit ∈ units, c.Fetches service.Gives unit.1 unit.2)
    (x : Option Cell) :
    (units.flatMap (unitEntries url)).filter (fun a => a.input = x) =
      (units'.flatMap (unitEntries url)).filter fun a => a.input = x := by
  rw [List.filter_flatMap, List.filter_flatMap]
  refine flatMap_eq_of_perm hperm (List.pairwise_of_forall_mem_list fun p hp q hq => ?_)
  have hnone : ∀ unit ∈ units, some (Cell.ofText unit.1.text) ≠ x →
      (unitEntries url unit).filter (fun a => a.input = x) = [] := by
    intro unit hunit hne
    refine List.filter_eq_nil_iff.2 fun a ha => ?_
    rw [input_of_mem_unitEntries (h unit hunit) ha]
    simpa using hne
  by_cases hx : some (Cell.ofText p.1.text) = x
  · by_cases hy : some (Cell.ofText q.1.text) = x
    · -- Both are of the cell, and then both bring the same.
      have hcell : Cell.ofText p.1.text = Cell.ofText q.1.text := Option.some.inj (hx.trans hy.symm)
      have hsame : unitEntries url p = unitEntries url q :=
        (h p hp).entries_eq hfixed url hcell (h q hq)
      rw [hsame]
    · rw [hnone q hq hy, List.append_nil, List.nil_append]
  · rw [hnone p hp hx, List.append_nil, List.nil_append]

end Collector

theorem ExtractStats.of_perm {read read' : List (Option (List Tool.Row))}
    (h : read.Perm read') : ExtractStats.of read = ExtractStats.of read' := by
  rw [of, of, h.length_eq, (h.flatMap_right _).length_eq, h.countP_eq]

namespace RunContext

variable (ctx : RunContext)

def rowsOfEntry (kind : EntityKind) (a : Entry) : List Tool.Row :=
  match a.texts? with
  | some x => ctx.rowsRead kind x
  | none => []

/-- Whether a staged record can be read and parsed. -/
def Parses (kind : EntityKind) (a : Entry) : Prop :=
  ∃ x rows, a.texts? = some x ∧ Tool.rowsOfRecord kind ctx.scope x.1 x.2 = .ok rows

theorem parses_iff {kind : EntityKind} {a : Entry} :
    ctx.Parses kind a ↔ ∃ rows,
      (a.texts?.bind fun x => (Tool.rowsOfRecord kind ctx.scope x.1 x.2).toOption) = some rows := by
  constructor
  · rintro ⟨x, rows, hx, hrows⟩
    exact ⟨rows, by rw [hx, Option.bind_some, hrows]; rfl⟩
  · rintro ⟨rows, hrows⟩
    obtain ⟨x, hx, hrows⟩ := Option.bind_eq_some_iff.1 hrows
    cases hread : Tool.rowsOfRecord kind ctx.scope x.1 x.2 with
    | ok rows' => exact ⟨x, rows', hx, hread⟩
    | error e =>
      rw [hread] at hrows
      cases hrows

instance (kind : EntityKind) (a : Entry) : Decidable (ctx.Parses kind a) :=
  decidable_of_iff _ (Option.isSome_iff_exists.trans (ctx.parses_iff).symm)

theorem exists_texts_of_parses {kind : EntityKind} {entries : List Entry}
    (h : ∀ a ∈ entries, ctx.Parses kind a) :
    ∃ texts, entries.mapM Entry.texts? = some texts ∧
      texts.mapM (ctx.readRecord kind) =
        .ok (entries.map fun a => some (ctx.rowsOfEntry kind a)) := by
  induction entries with
  | nil => exact ⟨[], rfl, rfl⟩
  | cons a entries ih =>
    obtain ⟨⟨x, rows, hx, hrows⟩, hentries⟩ := List.forall_mem_cons.1 h
    obtain ⟨texts, htexts, hread⟩ := ih hentries
    have hfirst : ctx.readRecord kind x = .ok (some (ctx.rowsOfEntry kind a)) := by
      simp [readRecord, rowsOfEntry, hx, rowsRead, hrows, Except.toOption]
    refine ⟨x :: texts, ?_, ?_⟩
    · rw [List.mapM_cons, hx, htexts]
      rfl
    · rw [List.mapM_cons, hfirst, hread]
      rfl

theorem runIn_extract_of_parses {kind : EntityKind} {table : String}
    (htable : kind.stagingName = some table) {w : World σ} {t : Tables}
    (hw : w.database = .migrated t) (hgoes : w.cancelled = false)
    (h : ∀ a ∈ t.staging.contents table ctx.scope.tag, ctx.Parses kind a) :
    (ctx.extract kind).runIn w =
      (.ok (.of ((t.staging.contents table ctx.scope.tag).map fun a =>
          some (ctx.rowsOfEntry kind a))),
        w.holding { t with
          tool := ((t.staging.contents table ctx.scope.tag).flatMap
            (ctx.rowsOfEntry kind)).foldl ToolTables.insert t.tool }) := by
  obtain ⟨texts, htexts, hread⟩ := ctx.exists_texts_of_parses h
  rw [ctx.runIn_extract_ok_iff htable hw hgoes]
  refine ⟨texts, _, htexts, hread, rfl, ?_⟩
  rw [withRows, List.flatMap_map]
  rfl

/-- Records that are the same up to their order, and whose rows agree name by name, are extracted to
the same effect. -/
theorem extract_of_perm {kind : EntityKind} {table : String}
    (htable : kind.stagingName = some table) {v v' : World σ} {u u' : Tables}
    (hv : v.database = .migrated u) (hv' : v'.database = .migrated u')
    (hgoes : v.cancelled = false) (hgoes' : v'.cancelled = false) (htool : u.tool = u'.tool)
    (hperm : (u.staging.contents table ctx.scope.tag).Perm
      (u'.staging.contents table ctx.scope.tag))
    (hrows : ∀ n, ((u.staging.contents table ctx.scope.tag).flatMap
        (ctx.rowsOfEntry kind)).filter (fun r => r.name = n) =
      ((u'.staging.contents table ctx.scope.tag).flatMap (ctx.rowsOfEntry kind)).filter
        fun r => r.name = n)
    (hparse : ∀ a ∈ u.staging.contents table ctx.scope.tag, ctx.Parses kind a) :
    ∃ extracted z z' p p', (ctx.extract kind).runIn v = (.ok extracted, z) ∧
      (ctx.extract kind).runIn v' = (.ok extracted, z') ∧
      z.database = .migrated p ∧ z'.database = .migrated p' ∧ p.tool = p'.tool := by
  have hextract := ctx.runIn_extract_of_parses htable hv hgoes hparse
  have hextract' := ctx.runIn_extract_of_parses htable hv' hgoes' fun a ha =>
    hparse a (hperm.mem_iff.2 ha)
  have hcounts := ExtractStats.of_perm (hperm.map fun a => some (ctx.rowsOfEntry kind a))
  have htables := ToolTables.overwriting.foldl_eq_of_filter hrows u.tool
  rw [← hcounts, ← htool] at hextract'
  exact ⟨_, _, _, _, _, hextract, hextract', rfl, rfl, htables⟩

theorem filter_rows_of_perm {kind : EntityKind}
    (url : Request → String) {units units' : List (Json × List Visit)} (hperm : units.Perm units')
    (hapart : units.Pairwise fun p q => ∀ a ∈ Collector.unitEntries url p,
      ∀ b ∈ Collector.unitEntries url q, ∀ r ∈ ctx.rowsOfEntry kind a,
        ∀ r' ∈ ctx.rowsOfEntry kind b, r.name ≠ r'.name) (n : Tool.RowName) :
    ((units.flatMap (Collector.unitEntries url)).flatMap (ctx.rowsOfEntry kind)).filter
        (fun r => r.name = n) =
      ((units'.flatMap (Collector.unitEntries url)).flatMap (ctx.rowsOfEntry kind)).filter
        fun r => r.name = n := by
  rw [List.flatMap_assoc, List.flatMap_assoc, List.filter_flatMap, List.filter_flatMap]
  refine flatMap_eq_of_perm hperm (hapart.imp fun {p q} h => ?_)
  cases hp : ((Collector.unitEntries url p).flatMap (ctx.rowsOfEntry kind)).filter
      (fun r => r.name = n) with
  | nil => rw [List.append_nil, List.nil_append]
  | cons r rest =>
    have hq : ((Collector.unitEntries url q).flatMap (ctx.rowsOfEntry kind)).filter
        (fun r => r.name = n) = [] := by
      have hr : r ∈ ((Collector.unitEntries url p).flatMap (ctx.rowsOfEntry kind)).filter
          (fun r => r.name = n) := hp ▸ List.mem_cons_self
      obtain ⟨hmem, hname⟩ := List.mem_filter.1 hr
      obtain ⟨a, ha, har⟩ := List.mem_flatMap.1 hmem
      refine List.filter_eq_nil_iff.2 fun r' hr' => ?_
      obtain ⟨b, hb, hbr⟩ := List.mem_flatMap.1 hr'
      have hne := h a ha b hb r har r' hbr
      rw [of_decide_eq_true hname] at hne
      simpa using hne.symm
    rw [hq, List.append_nil, List.nil_append]

end RunContext

/-- Whether the records of two inputs never yield rows of one name. -/
def Collector.KeysApart (c : Collector) (service : Service σ) (ctx : RunContext)
    (kind : EntityKind) (i j : Json) : Prop :=
  ∀ visits visits', c.Fetches service.Gives i visits → c.Fetches service.Gives j visits' →
    ∀ a ∈ visits.flatMap (Visit.entries (stagedUrl service)),
    ∀ b ∈ visits'.flatMap (Visit.entries (stagedUrl service)),
    ∀ r ∈ ctx.rowsOfEntry kind a, ∀ r' ∈ ctx.rowsOfEntry kind b, r.name ≠ r'.name

theorem Collector.Fetches.keysApart {c : Collector} {service : Service σ}
    {answer : Request → Except Error Json} (hfixed : service.IsFixed answer) {ctx : RunContext}
    {kind : EntityKind} {i j : Json} {visits visits' : List Visit}
    (hi : c.Fetches service.Gives i visits) (hj : c.Fetches service.Gives j visits')
    (h : ∀ a ∈ visits.flatMap (Visit.entries (stagedUrl service)),
      ∀ b ∈ visits'.flatMap (Visit.entries (stagedUrl service)),
      ∀ r ∈ ctx.rowsOfEntry kind a, ∀ r' ∈ ctx.rowsOfEntry kind b, r.name ≠ r'.name) :
    c.KeysApart service ctx kind i j := by
  intro others others' hothers hothers'
  rw [hothers.entries_eq hfixed _ rfl hi, hothers'.entries_eq hfixed _ rfl hj]
  exact h

/-- The order of the inputs of a fan-out does not matter. -/
theorem fan_out_in_any_order {service : Service σ} {answer : Request → Except Error Json}
    (hfixed : service.IsFixed answer) (c : Collector) {inputs inputs' : List Json}
    (hperm : inputs.Perm inputs') {w v : World σ} {t : Tables} (hw : w.database = .migrated t)
    {stats : CollectStats}
    (h : (Collector.execute { c with inputs := some inputs } service).runIn w = (.ok stats, v)) :
    ∃ v' u u', (Collector.execute { c with inputs := some inputs' } service).runIn w =
        (.ok stats, v') ∧
      v.database = .migrated u ∧ v'.database = .migrated u' ∧
      (u.staging.contents c.table c.scope.tag).Perm (u'.staging.contents c.table c.scope.tag) ∧
      (∀ x, (u.staging.contents c.table c.scope.tag).filter (fun a => a.input = x) =
        (u'.staging.contents c.table c.scope.tag).filter fun a => a.input = x) ∧
      ∀ (ctx : RunContext) (kind : EntityKind), kind.stagingName = some c.table →
        ctx.scope = c.scope → w.cancelled = false →
        (∀ a ∈ u.staging.contents c.table c.scope.tag, ctx.Parses kind a) →
        inputs.Pairwise (c.KeysApart service ctx kind) →
        ∃ extracted z z' p p', (ctx.extract kind).runIn v = (.ok extracted, z) ∧
          (ctx.extract kind).runIn v' = (.ok extracted, z') ∧
          z.database = .migrated p ∧ z'.database = .migrated p' ∧ p.tool = p'.tool := by
  let url := Collector.stagedUrl service
  obtain ⟨units, rfl, hunit, hstats, hbudget⟩ := Collector.exists_units_of_execute hw h
  have hpermuted := congrFun₂ (List.eq_map_comp_perm Prod.fst) inputs' units
  obtain ⟨units', rfl, hunits⟩ := hpermuted.mpr hperm.symm
  cases hcancelled : w.cancelled with
  | true =>
    have hnil := Collector.inputs_eq_nil_of_cancelled hw hcancelled h
    obtain rfl := List.map_eq_nil_iff.1 hnil
    obtain rfl := hunits.eq_nil
    obtain ⟨_, -, -, hreach⟩ := Collector.reaches_of_execute _ service.answersAtOnce_client hw h
    exact ⟨v, _, _, h, hreach.database, hreach.database, .refl _, fun _ => rfl,
      fun _ _ _ _ hgoes => nomatch hgoes⟩
  | false =>
    have hunit' : ∀ unit ∈ units', c.Fetches service.Gives unit.1 unit.2 := fun unit hmem =>
      hunit unit (hunits.mem_iff.1 hmem)
    have hvisits : (units'.flatMap Prod.snd).Perm (units.flatMap Prod.snd) :=
      hunits.flatMap_right Prod.snd
    obtain ⟨v₁, hrun, hdb, hv⟩ := c.execute_units hfixed hunit hw hcancelled hbudget
    obtain ⟨v', hrun', hdb', hv'⟩ := c.execute_units hfixed hunit' hw hcancelled
      (hvisits.length_eq ▸ hbudget)
    obtain rfl : v = v₁ := (Prod.mk.inj (h.symm.trans hrun)).2
    have hsame : (Fetched.ofVisits (units'.flatMap Prod.snd)).stats = stats :=
      (Fetched.stats_of_perm hvisits).trans hstats.symm
    rw [hsame] at hrun'
    have hcontents := Collector.contents_collected t c.table c.scope.tag url
    have hentries : ((t.collected c.table c.scope.tag url
        (units.flatMap Prod.snd)).staging.contents c.table c.scope.tag).Perm
          ((t.collected c.table c.scope.tag url
            (units'.flatMap Prod.snd)).staging.contents c.table c.scope.tag) := by
      rw [hcontents, hcontents]
      exact (hunits.flatMap_right _).symm
    refine ⟨v', _, _, hrun', hdb, hdb', hentries, fun x => ?_,
      fun ctx kind htable hscope _ hparse hapart => ?_⟩
    · rw [hcontents, hcontents]
      exact Collector.filter_unitEntries_of_perm hfixed url hunits.symm hunit x
    · rw [← hscope] at hparse hcontents hentries hdb hdb'
      have hpairs := (List.pairwise_map.1 hapart).imp_of_mem fun {p q} hp hq hapart =>
        hapart p.2 q.2 (hunit p hp) (hunit q hq)
      refine ctx.extract_of_perm htable hdb hdb' hv hv' rfl hentries (fun n => ?_) hparse
      rw [hcontents, hcontents]
      exact ctx.filter_rows_of_perm url hunits.symm hpairs n

def suiteCases : Collector where
  table := "testrail_cases"
  scope := ⟨1, 7⟩
  path := ⟨"get_cases/\x7bprojectId\x7d&suite_id=\x7binput.id\x7d"⟩
  pageSize := none
  query := []
  inputs := none
  form := .listUnder "cases"

def withId (n : Int) : Json :=
  .obj [("id", .num (.int n))]

/-- A service with two suites, the first with one case and the second with two. -/
def suiteService : Service Unit :=
  .ofFunction id fun request =>
    if request.path = "get_cases/7&suite_id=5" then .ok (.arr [withId 21])
    else .ok (.arr [withId 11, withId 12])

def suiteContext : RunContext where
  options := { connection := 1, project := 7 }
  settings := {}
  config := none

def emptyWorld : World Unit :=
  ⟨.migrated .empty, (), [], 10, false⟩

/-- Two suites in either order, the cases of which have different ids. -/
theorem fan_out_in_any_order_suites :
    ∃ stats v v' extracted z z' p p',
      (Collector.execute { suiteCases with inputs := some [withId 5, withId 3] }
        suiteService).runIn emptyWorld = (.ok stats, v) ∧
      (Collector.execute { suiteCases with inputs := some [withId 3, withId 5] }
        suiteService).runIn emptyWorld = (.ok stats, v') ∧
      (suiteContext.extract .case).runIn v = (.ok extracted, z) ∧
      (suiteContext.extract .case).runIn v' = (.ok extracted, z') ∧
      z.database = .migrated p ∧ z'.database = .migrated p' ∧ p.tool = p'.tool := by
  have hfive : suiteCases.Fetches suiteService.Gives (withId 5)
      [⟨some (withId 5), ⟨"get_cases/7&suite_id=5", []⟩, ⟨[withId 21], none⟩⟩] :=
    ⟨"get_cases/7&suite_id=5", by decide +kernel, .last ⟨(), rfl⟩ rfl rfl⟩
  have hthree : suiteCases.Fetches suiteService.Gives (withId 3)
      [⟨some (withId 3), ⟨"get_cases/7&suite_id=3", []⟩, ⟨[withId 11, withId 12], none⟩⟩] :=
    ⟨"get_cases/7&suite_id=3", by decide +kernel, .last ⟨(), rfl⟩ rfl rfl⟩
  have hswap : [withId 5, withId 3].Perm [withId 3, withId 5] := List.Perm.swap _ _ _
  have hdone : ((Collector.execute { suiteCases with inputs := some [withId 5, withId 3] }
      suiteService).runIn emptyWorld).1.toOption = some ⟨2, 3⟩ := by decide +kernel
  obtain ⟨v, hrun⟩ := Action.runIn_of_toOption hdone
  have hfixed : suiteService.IsFixed _ := fun _ _ => rfl
  obtain ⟨v', u, u', hrun', hdb, -, -, -, hextract⟩ :=
    fan_out_in_any_order hfixed suiteCases hswap (rfl : emptyWorld.database = _) hrun
  have hparses : ∀ a ∈ u.staging.contents "testrail_cases" (RunScope.tag ⟨1, 7⟩),
      suiteContext.Parses .case a := by
    have hstaged : ∀ a ∈ ((Collector.execute { suiteCases with
        inputs := some [withId 5, withId 3] } suiteService).runIn
          emptyWorld).2.database.tables.toOption.elim []
            (fun u => u.staging.contents "testrail_cases" (RunScope.tag ⟨1, 7⟩)),
        suiteContext.Parses .case a := by decide +kernel
    rw [hrun, hdb] at hstaged
    exact hstaged
  have hapart : suiteCases.KeysApart suiteService suiteContext .case (withId 5) (withId 3) :=
    hfive.keysApart hfixed hthree (by decide +kernel)
  obtain ⟨extracted, z, z', p, p', hz, hz', hp, hp', htool⟩ := hextract suiteContext .case rfl rfl
    rfl hparses (List.pairwise_pair.2 hapart)
  exact ⟨⟨2, 3⟩, v, v', extracted, z, z', p, p', hrun, hrun', hz, hz', hp, hp', htool⟩

end QaLake
