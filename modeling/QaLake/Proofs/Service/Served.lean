import QaLake.Proofs.Endpoint.Kinds
import QaLake.Proofs.Sync.Collection

namespace QaLake

open Store

variable {gives gives' : Request → Json → Prop}

namespace Collector

variable {c : Collector} {input : Option Json} {inputs : List (Option Json)} {path : String}
  {offset : Nat} {visits : List Visit}

theorem Walk.mono (hgives : ∀ r j, gives r j → gives' r j)
    (h : c.Walk gives input path offset visits) : c.Walk gives' input path offset visits := by
  induction h with
  | last hanswer hpage hlast => exact Walk.last (hgives _ _ hanswer) hpage hlast
  | more hanswer hpage hmore hrest ih => exact Walk.more (hgives _ _ hanswer) hpage hmore ih

theorem Walks.mono (hgives : ∀ r j, gives r j → gives' r j) (h : c.Walks gives inputs visits) :
    c.Walks gives' inputs visits := by
  induction h with
  | nil => exact Walks.nil
  | cons hpath hwalk hrest ih => exact Walks.cons hpath (hwalk.mono hgives) ih

theorem Walks.input_mem (h : c.Walks gives inputs visits) : ∀ v ∈ visits, v.input ∈ inputs := by
  induction h with
  | nil =>
    intro v hv
    cases hv
  | cons hpath hwalk hrest ih =>
    intro v hv
    obtain hv | hv := List.mem_append.1 hv
    · exact List.mem_cons.2 (.inl (hwalk.input_eq v hv))
    · exact List.mem_cons_of_mem _ (ih v hv)

/-- Whether a collector takes single answers without a query, or lists in pages. -/
def IsRegular (c : Collector) : Prop :=
  (c.pageSize = none ∧ c.query = []) ∨
    ∃ key size, c.form = .listUnder key ∧ c.pageSize = some size ∧ 0 < size

end Collector

def Visit.pairs (v : Visit) : List (Json × Option Json) :=
  v.page.records.map fun r => (r, v.input)

theorem Collector.Walk.pairs_eq {c : Collector} {input : Option Json} {path : String} {offset : Nat}
    {visits : List Visit} (h : c.Walk gives input path offset visits) :
    visits.flatMap Visit.pairs =
      (visits.flatMap fun v => v.page.records).map fun r => (r, input) := by
  have hpairs : visits.map Visit.pairs =
      visits.map fun v => v.page.records.map fun r => (r, input) :=
    List.map_congr_left fun v hv => by rw [Visit.pairs, h.input_eq v hv]
  rw [List.map_flatMap, List.flatMap_def, List.flatMap_def, hpairs]

namespace Catalogue

variable {cat : Catalogue} {c : Collector} {visits : List Visit}

theorem records_of_walk {input : Option Json} {path : String} (hc : c.IsRegular)
    (hform : form? path = some c.form) (h : c.Walk cat.Answers input path 0 visits) :
    (visits.flatMap fun v => v.page.records) = cat.under path := by
  obtain ⟨hsize, hquery⟩ | ⟨key, size, hkey, hsize, hpos⟩ := hc
  · exact (records_of_unpaged hsize hquery hform h).2
  · rw [hkey] at hform
    rw [records_of_paged hkey hsize hpos hform h, under, hform, if_neg (by simp), List.drop_zero]

theorem pairs_of_walks {ι : Type} {items : List ι} {toInput : ι → Option Json}
    (pathFor : ι → String) (hc : c.IsRegular)
    (hpath : ∀ i ∈ items, ∀ path, c.path.render c.scope (toInput i) = .ok path →
      path = pathFor i ∧ form? path = some c.form)
    (h : c.Walks cat.Answers (items.map toInput) visits) :
    visits.flatMap Visit.pairs =
      items.flatMap fun i => (cat.under (pathFor i)).map fun r => (r, toInput i) := by
  induction items generalizing visits with
  | nil =>
    cases h
    rfl
  | cons i items ih =>
    cases h with
    | @cons _ path _ visits more hrender hwalk hrest =>
      obtain ⟨rfl, hform⟩ := hpath i List.mem_cons_self path hrender
      rw [List.flatMap_append, List.flatMap_cons, hwalk.pairs_eq, records_of_walk hc hform hwalk,
        ih (fun i hi => hpath i (List.mem_cons_of_mem _ hi)) hrest]

theorem length_of_walks {inputs : List (Option Json)} (hsize : c.pageSize = none)
    (h : c.Walks gives inputs visits) :
    visits.length = inputs.length := by
  induction h with
  | nil => rfl
  | @cons input path inputs visits more hrender hwalk hrest ih =>
    have hone : visits.length = 1 := by
      cases hwalk with
      | last hanswer hpage hlast => rfl
      | more hanswer hpage hmore hrest => simp [Collector.isLast, hsize] at hmore
    rw [List.length_append, hone, ih, List.length_cons, Nat.add_comm]

end Catalogue

namespace RunContext

variable (ctx : RunContext)

/-- The ids of the suites that take part among some tool rows, in ascending order. -/
def suiteIds (tool : ToolTables) : List Int :=
  ((tool.streamed Tool.Suite ctx.scope).filter ctx.allowsSuite).map Tool.Suite.id

def runIds (tool : ToolTables) : List Int :=
  ((tool.streamed Tool.Run ctx.scope).filter ctx.allowsRun).map Tool.Run.id

def parentIds (tool : ToolTables) : Parents → List Int
  | .suites => ctx.suiteIds tool
  | .runs => ctx.runIds tool

theorem parentInputs_eq (tool : ToolTables) (parents : Parents) :
    ctx.parentInputs tool parents = (ctx.parentIds tool parents).map fun id =>
      inputOf (.int id) := by
  cases parents with
  | suites => rw [parentInputs, parentIds, suiteIds, List.map_map]; rfl
  | runs => rw [parentInputs, parentIds, runIds, List.map_map]; rfl

theorem pageSize_pos : 0 < ctx.pageSize := by
  rw [pageSize, PipelineSettings.maxPageSize]
  omega

theorem isRegular_endpoint {kind : EntityKind} {e : Endpoint} (he : Endpoint.of? kind = some e)
    (table : String) (tool : ToolTables) : (ctx.endpointCollector table e tool).IsRegular := by
  cases kind with
  | status | priority | caseType | caseField | user | suite | project =>
    cases he
    refine .inl ⟨rfl, ?_⟩
    rw [endpointCollector, Endpoint.collector]
    cases ctx.options.createdAfter <;> rfl
  | milestone | run | testSection | case | result =>
    cases he
    exact .inr ⟨_, _, rfl, rfl, ctx.pageSize_pos⟩
  | plan | planEntry => cases he

theorem isRegular_listing (table : String) : (ctx.listingCollector table).IsRegular :=
  .inr ⟨_, _, rfl, rfl, ctx.pageSize_pos⟩

theorem isRegular_plans (table : String) (listed : List Json) :
    (ctx.planCollector table listed).IsRegular := by
  refine .inl ⟨rfl, ?_⟩
  rw [planCollector, Endpoint.collector]
  cases ctx.options.createdAfter <;> rfl

end RunContext

namespace Catalogue

variable (cat : Catalogue) (ctx : RunContext) (tool : ToolTables)

/-- The records of a kind that take part in a run, each with the input it is fetched for. -/
def served (kind : EntityKind) : List (Json × Option Json) :=
  let under := fun parent => cat.under (pathOf ctx.scope.project parent kind)
  match kind with
  | .testSection | .case => (ctx.suiteIds tool).flatMap fun id =>
      (under id).map fun r => (r, some (RunContext.inputOf (.int id)))
  | .result => (ctx.runIds tool).flatMap fun id =>
      (under id).map fun r => (r, some (RunContext.inputOf (.int id)))
  | .plan => (under 0).filterMap fun plan => (plan.get? "id").map fun id =>
      (.obj (cat.object (planPath id)), some (RunContext.inputOf id))
  | .planEntry => []
  | _ => (under 0).map fun r => (r, none)

variable {cat ctx tool} {kind : EntityKind} {table : String} {listing visits : List Visit}

theorem pairs_of_endpoint {e : Endpoint} (he : Endpoint.of? kind = some e)
    (h : (ctx.endpointCollector table e tool).Walks cat.Answers
      (ctx.endpointCollector table e tool).walkInputs visits) :
    visits.flatMap Visit.pairs =
      match e.parents with
      | none => (cat.under (pathOf ctx.scope.project 0 kind)).map fun r => (r, none)
      | some parents => (ctx.parentIds tool parents).flatMap fun id =>
          (cat.under (pathOf ctx.scope.project id kind)).map fun r =>
            (r, some (RunContext.inputOf (.int id))) := by
  have hregular := ctx.isRegular_endpoint he table tool
  rw [Collector.walkInputs] at h
  cases hparents : e.parents with
  | none =>
    have hinputs : (ctx.endpointCollector table e tool).inputs = none := by
      rw [RunContext.endpointCollector, hparents]
      rfl
    rw [hinputs] at h
    have hwalks : (ctx.endpointCollector table e tool).Walks cat.Answers
        ([()].map fun _ => none) visits := h
    rw [pairs_of_walks (fun _ => pathOf ctx.scope.project 0 kind) hregular ?_ hwalks]
    · simp
    · intro _ _ path hrender
      have hpath : path = pathOf ctx.scope.project 0 kind :=
        Except.ok.inj (hrender.symm.trans (render_endpoint he ctx.scope (.inl hparents)))
      exact ⟨hpath, hpath ▸ form?_pathOf he _ _⟩
  | some parents =>
    have hinputs : (ctx.endpointCollector table e tool).inputs =
        some ((ctx.parentIds tool parents).map fun id => RunContext.inputOf (.int id)) := by
      rw [← ctx.parentInputs_eq, RunContext.endpointCollector, hparents]
      rfl
    rw [hinputs] at h
    simp only [List.map_map] at h
    refine pairs_of_walks (fun id => pathOf ctx.scope.project id kind) hregular
      (fun id _ path hrender => ?_) h
    have hpath : path = pathOf ctx.scope.project id kind :=
      Except.ok.inj (hrender.symm.trans (render_endpoint he ctx.scope (.inr rfl)))
    exact ⟨hpath, hpath ▸ form?_pathOf he _ _⟩

theorem records_of_listing (h : (ctx.listingCollector table).Walks cat.Answers
      (ctx.listingCollector table).walkInputs listing) :
    (Fetched.ofVisits listing).records = cat.under (pathOf ctx.scope.project 0 .plan) := by
  obtain ⟨path, hrender, hwalk⟩ := (Collector.walks_singleton _).1 h
  have hpath : path = pathOf ctx.scope.project 0 .plan :=
    Except.ok.inj (hrender.symm.trans (render_listing ctx.scope none))
  have hform : form? path = some (ctx.listingCollector table).form := hpath ▸ form?_listing _
  rw [← hpath]
  exact records_of_walk (ctx.isRegular_listing table) hform hwalk

theorem pairs_of_plans {listed : List Json}
    (h : (ctx.planCollector table listed).Walks cat.Answers
      (ctx.planCollector table listed).walkInputs visits) :
    visits.flatMap Visit.pairs = listed.filterMap fun plan => (plan.get? "id").map fun id =>
      (.obj (cat.object (planPath id)), some (RunContext.inputOf id)) := by
  have hwalks : (ctx.planCollector table listed).Walks cat.Answers
      ((listed.filterMap (·.get? "id")).map fun id => some (RunContext.inputOf id)) visits := by
    have hinputs : (ctx.planCollector table listed).walkInputs =
        (listed.filterMap (·.get? "id")).map fun id => some (RunContext.inputOf id) := by
      change (listed.filterMap fun plan => (plan.get? "id").map RunContext.inputOf).map some = _
      rw [← List.map_filterMap, List.map_map]
      rfl
    rwa [hinputs] at h
  rw [pairs_of_walks planPath (ctx.isRegular_plans table listed) ?_ hwalks]
  · have hunder : ∀ id, cat.under (planPath id) = [.obj (cat.object (planPath id))] := fun id => by
      rw [under, if_pos (form?_planPath id)]
    simp only [hunder, List.map_cons, List.map_nil]
    rw [← List.map_eq_flatMap, List.map_filterMap]
  · intro id _ path hrender
    have hpath : path = planPath id := eq_of_render_plan hrender
    exact ⟨hpath, hpath ▸ form?_planPath id⟩

theorem pairs_of_collects (h : ctx.Collects cat.Answers Eq kind table tool listing visits)
    (hkind : kind ≠ .planEntry) : visits.flatMap Visit.pairs = cat.served ctx tool kind := by
  unfold RunContext.Collects at h
  cases hendpoint : Endpoint.of? kind with
  | none =>
    rw [hendpoint] at h
    obtain ⟨hlisting, visits, hplans, rfl⟩ := h
    have hpairs := pairs_of_plans hplans
    rw [records_of_listing hlisting] at hpairs
    cases kind with
    | plan => exact hpairs
    | planEntry => exact absurd rfl hkind
    | _ => cases hendpoint
  | some e =>
    rw [hendpoint] at h
    obtain ⟨-, visits, hwalks, rfl⟩ := h
    have hpairs := pairs_of_endpoint hendpoint hwalks
    cases kind with
    | plan | planEntry => cases hendpoint
    | _ =>
      cases hendpoint
      exact hpairs

end Catalogue

end QaLake
