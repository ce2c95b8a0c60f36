import QaLake.Proofs.Service.Served

namespace QaLake

open Store

namespace Catalogue

variable {cat : Catalogue} {ctx : RunContext} {tool : ToolTables} {kind : EntityKind}

/-- What takes part in a run is kept under some path, and its input is that of an id. -/
theorem mem_under_of_mem_served {p : Json × Option Json} (hp : p ∈ cat.served ctx tool kind) :
    (∃ path, p.1 ∈ cat.under path) ∧ ∀ j ∈ p.2, ∃ id, j = RunContext.inputOf id := by
  cases kind with
  | testSection | case | result =>
    obtain ⟨id, -, hp⟩ := List.mem_flatMap.1 hp
    obtain ⟨r, hr, rfl⟩ := List.mem_map.1 hp
    exact ⟨⟨_, hr⟩, fun j hj => ⟨.int id, (Option.some.inj hj).symm⟩⟩
  | plan =>
    obtain ⟨plan, -, hp⟩ := List.mem_filterMap.1 hp
    obtain ⟨id, -, rfl⟩ := Option.map_eq_some_iff.1 hp
    refine ⟨⟨planPath id, ?_⟩, fun j hj => ⟨id, (Option.some.inj hj).symm⟩⟩
    rw [under, if_pos (form?_planPath id)]
    exact List.mem_singleton_self _
  | planEntry => cases hp
  | _ =>
    obtain ⟨r, hr, rfl⟩ := List.mem_map.1 hp
    exact ⟨⟨_, hr⟩, fun j hj => absurd hj (by simp)⟩

end Catalogue

/-- What is staged of visits is read back as the texts of the records and their inputs. -/
theorem Visit.texts_entries (url : Request → String) (visits : List Visit)
    (h : ∀ p ∈ visits.flatMap Visit.pairs, p.1.isNumber = false ∧ ∀ j ∈ p.2, j.isNumber = false) :
    (visits.flatMap (Visit.entries url)).mapM Entry.texts? =
      some ((visits.flatMap Visit.pairs).map fun p => (p.1.text, p.2.map Json.text)) := by
  have hone : ∀ (v : Visit) (records : List Json),
      (∀ r ∈ records, r.isNumber = false ∧ ∀ j ∈ v.input, j.isNumber = false) →
      (records.map (Entry.ofRecord (url v.request) v.input)).mapM Entry.texts? =
        some (records.map fun r => (r.text, v.input.map Json.text)) := by
    intro v records hrecords
    induction records with
    | nil => rfl
    | cons r records ih =>
      obtain ⟨hr, hinput⟩ := hrecords r List.mem_cons_self
      rw [List.map_cons, List.mapM_cons, Entry.texts?_ofRecord _ hr hinput,
        ih fun x hx => hrecords x (List.mem_cons_of_mem _ hx)]
      rfl
  induction visits with
  | nil => rfl
  | cons v visits ih =>
    rw [List.flatMap_cons] at h
    have hfirst : (v.entries url).mapM Entry.texts? =
        some (v.page.records.map fun r => (r.text, v.input.map Json.text)) :=
      hone v v.page.records fun r hr => h (r, v.input)
        (List.mem_append_left _ (List.mem_map_of_mem hr))
    have hrest := ih fun p hp => h p (List.mem_append_right _ hp)
    rw [List.flatMap_cons, List.flatMap_cons, List.mapM_append, hfirst, hrest, List.map_append,
      Visit.pairs, List.map_map]
    rfl

namespace RunContext

variable {σ : Type} {cat : Catalogue} {service : Service σ} {ctx : RunContext} {kind : EntityKind}
  {table : String} {t : Tables} {w w' : World σ} {stats : CollectStats}

theorem Collects.mono {gives gives' : Request → Json → Prop}
    (hgives : ∀ r j, gives r j → gives' r j) {order : List Visit → List Visit → Prop}
    {tool : ToolTables} {listing visits : List Visit}
    (h : ctx.Collects gives order kind table tool listing visits) :
    ctx.Collects gives' order kind table tool listing visits := by
  unfold Collects at h ⊢
  cases hendpoint : Endpoint.of? kind with
  | none =>
    rw [hendpoint] at h
    obtain ⟨hlisting, walked, hwalks, horder⟩ := h
    exact ⟨hlisting.mono hgives, walked, hwalks.mono hgives, horder⟩
  | some e =>
    rw [hendpoint] at h
    obtain ⟨hlisting, walked, hwalks, horder⟩ := h
    exact ⟨hlisting, walked, hwalks.mono hgives, horder⟩

theorem length_of_pairs (visits : List Visit) :
    (Fetched.ofVisits visits).stats.records = (visits.flatMap Visit.pairs).length := by
  change (visits.flatMap fun v => v.page.records).length = _
  rw [List.length_flatMap, List.length_flatMap]
  simp [Visit.pairs]

/-- A collection that succeeds stages exactly the records that take part, in their order, and every
reader gets them back as they were served. Nothing else changes. -/
theorem collect_complete (hserved : cat.ServedBy service)
    (hplain : ∀ path, ∀ j ∈ cat.under path,
      j.IsPlain ∧ j.isNumber = false ∧ j.depth ≤ Json.Document.maxDepth)
    (htable : kind.stagingName = some table) (hw : w.database = .migrated t)
    (h : (ctx.collect service kind).runIn w = (.ok stats, w')) :
    ∃ t', w'.database = .migrated t' ∧
      (∀ batchSize, ∃ rows,
        (Cursor.start (stagedSource table ctx.scope) batchSize).toList w'.database = .ok rows ∧
        rows.map (fun r => (Json.parse? r.data, r.input)) =
          (cat.served ctx t.tool kind).map fun p => (some p.1, p.2.map Json.text)) ∧
      stats.records = (cat.served ctx t.tool kind).length ∧
      (∀ table' tag', ¬(table = table' ∧ ctx.scope.tag = tag') →
        t'.staging.rowsOf table' tag' = t.staging.rowsOf table' tag') ∧
      t'.tool = t.tool ∧ t'.domain = t.domain ∧ t'.scopes = t.scopes := by
  obtain ⟨listing, visits, hcollects, rfl, hreach⟩ := ctx.reaches_of_collect
    service.answersAtOnce_client.arranges htable hw h
  rw [Service.toService_client] at hcollects hreach
  have hkind : kind ≠ .planEntry := by
    rintro rfl
    cases htable
  have hpairs := Catalogue.pairs_of_collects (hcollects.mono hserved) hkind
  refine ⟨_, hreach.database, fun batchSize => ?_, ?_, fun table' tag' hne => ?_, rfl, rfl, rfl⟩
  · have htexts := Visit.texts_entries (Collector.stagedUrl service) visits fun p hp => by
      rw [hpairs] at hp
      obtain ⟨⟨path, hpath⟩, hinput⟩ := Catalogue.mem_under_of_mem_served hp
      refine ⟨(hplain path _ hpath).2.1, fun j hj => ?_⟩
      obtain ⟨id, rfl⟩ := hinput j hj
      rfl
    have hcontents : (t.collected table ctx.scope.tag (Collector.stagedUrl service)
        visits).staging.contents table ctx.scope.tag =
          visits.flatMap (Visit.entries (Collector.stagedUrl service)) := by
      change ((t.staging.delete table ctx.scope.tag).stageVisits table ctx.scope.tag _
        visits).contents table ctx.scope.tag = _
      rw [Staging.contents_stageVisits, Staging.contents_delete, List.nil_append]
    rw [← hcontents, ← Staging.records?_texts, hpairs] at htexts
    obtain ⟨rows, hrows, hmap⟩ := Option.map_eq_some_iff.1 htexts
    refine ⟨rows, ?_, ?_⟩
    · rw [hreach.database, toList_staged, hrows]
      rfl
    · have hparse : rows.map (fun r => (Json.parse? r.data, r.input)) =
          (rows.map fun r => (r.data, r.input)).map fun x => (Json.parse? x.1, x.2) := by
        rw [List.map_map]
        rfl
      rw [hparse, hmap, List.map_map]
      refine List.map_congr_left fun p hp => ?_
      obtain ⟨⟨path, hpath⟩, -⟩ := Catalogue.mem_under_of_mem_served hp
      obtain ⟨hp, -, hdepth⟩ := hplain path _ hpath
      exact Prod.ext (Json.parse?_text p.1 hp hdepth) rfl
  · rw [length_of_pairs, hpairs]
  · change ((t.staging.delete table ctx.scope.tag).stageVisits table ctx.scope.tag _
      visits).rowsOf table' tag' = _
    rw [Staging.rowsOf_stageVisits_of_ne _ _ _ hne, Staging.rowsOf_delete_of_ne _ hne]

def inPagesOf (pageSize batchSize : Nat) : RunContext where
  options := { connection := 1, project := 7 }
  settings := { pageSize, batchSize }
  config := none

def twoSuites : Tables :=
  { Tables.empty with
    tool := (ToolTables.empty.insert (.suite { connectionId := 1, id := 5, projectId := 7 })).insert
      (.suite { connectionId := 1, id := 3, projectId := 7 }) }

def smallProject : Catalogue :=
  .ofIds [("get_suites/7", [5, 3]), ("get_cases/7&suite_id=3", [11, 12, 13, 14]),
    ("get_cases/7&suite_id=5", [21]), ("get_runs/7", [31]), ("get_results_for_run/31", [41, 42])]

set_option maxRecDepth 100000 in
/-- Cases come suite by suite, here in pages of two. -/
theorem collect_complete_cases :
    ∃ stats w', ((inPagesOf 2 1).collect (smallProject.service id true) .case).runIn
        ⟨.migrated twoSuites, (), [], 20, false⟩ = (.ok stats, w') ∧
      ∃ t', w'.database = .migrated t' ∧
        (∀ batchSize, ∃ rows,
          (Cursor.start (stagedSource "testrail_cases" (inPagesOf 2 1).scope) batchSize).toList
            w'.database = .ok rows ∧
          rows.map (fun r => (Json.parse? r.data, r.input)) =
            (smallProject.served (inPagesOf 2 1) twoSuites.tool .case).map fun p =>
              (some p.1, p.2.map Json.text)) ∧
        stats.records = 5 := by
  have hrun : (((inPagesOf 2 1).collect (smallProject.service id true) .case).runIn
      ⟨.migrated twoSuites, (), [], 20, false⟩).1.toOption = some ⟨3, 5⟩ := by decide +kernel
  obtain ⟨w', hrun⟩ := Action.runIn_of_toOption hrun
  obtain ⟨t', hdb, hrows, hcount, -⟩ := collect_complete
    (smallProject.servedBy_service id true)
    (fun path j hj => Catalogue.ofIds_isPlain (by decide) path hj) rfl rfl hrun
  exact ⟨_, w', hrun, t', hdb, hrows, rfl⟩

end RunContext

end QaLake
