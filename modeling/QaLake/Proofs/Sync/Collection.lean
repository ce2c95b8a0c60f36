import QaLake.Proofs.Sync.InFlight
import QaLake.Sync.Collection

namespace QaLake

open Store

variable {σ : Type}

namespace RunContext

variable (ctx : RunContext)

def parentInputs (tool : ToolTables) : Parents → List Json
  | .suites => ((tool.streamed Tool.Suite ctx.scope).filter ctx.allowsSuite).map fun s =>
      inputOf (.int s.id)
  | .runs => ((tool.streamed Tool.Run ctx.scope).filter ctx.allowsRun).map fun r =>
      inputOf (.int r.id)

theorem runIn_inputsOf (parents : Parents) {w : World σ} {t : Tables}
    (hw : w.database = .migrated t) :
    (ctx.inputsOf parents).runIn w = (.ok (ctx.parentInputs t.tool parents), w) := by
  cases parents with
  | suites =>
    have hquery : (Action.query (Cursor.start (toolSource Tool.Suite ctx.scope)
        ctx.settings.batchSize).toList : Action σ _).runIn w =
        (.ok (t.tool.streamed Tool.Suite ctx.scope), w) := by
      rw [Action.runIn_query, hw, toList_tool]
    exact Action.runIn_bind_of_ok hquery
  | runs =>
    have hquery : (Action.query (Cursor.start (toolSource Tool.Run ctx.scope)
        ctx.settings.batchSize).toList : Action σ _).runIn w =
        (.ok (t.tool.streamed Tool.Run ctx.scope), w) := by
      rw [Action.runIn_query, hw, toList_tool]
    exact Action.runIn_bind_of_ok hquery

/-- The collector of an endpoint, with the parents that take part among some tool rows. -/
def endpointCollector (table : String) (e : Endpoint) (tool : ToolTables) : Collector :=
  e.collector ctx table (e.parents.map (ctx.parentInputs tool))

def listingCollector (table : String) : Collector :=
  Endpoint.planListing.collector ctx table none

def planCollector (table : String) (listed : List Json) : Collector :=
  Endpoint.singlePlan.collector ctx table
    (some (listed.filterMap fun plan => (plan.get? "id").map inputOf))

/-- The visits that a collection of a kind consists of: those that are not staged and those that
are, which `order` says how the walks may have been mixed. -/
def Collects (gives : Request → Json → Prop) (order : List Visit → List Visit → Prop)
    (kind : EntityKind) (table : String) (tool : ToolTables) (listing visits : List Visit) : Prop :=
  match Endpoint.of? kind with
  | some e =>
    listing = [] ∧ ∃ walked, (ctx.endpointCollector table e tool).Walks gives
      (ctx.endpointCollector table e tool).walkInputs walked ∧ order walked visits
  | none =>
    (ctx.listingCollector table).Walks gives (ctx.listingCollector table).walkInputs listing ∧
      ∃ walked, (ctx.planCollector table (Fetched.ofVisits listing).records).Walks gives
        (ctx.planCollector table (Fetched.ofVisits listing).records).walkInputs walked ∧
          order walked visits

variable {client : Client σ} {service : Service σ} {w : World σ} {t : Tables}

theorem runIn_collectEndpoint (table : String) (e : Endpoint) (hw : w.database = .migrated t) :
    (ctx.collectEndpoint client table e).runIn w =
      ((ctx.endpointCollector table e t.tool).execute client).runIn w := by
  rw [collectEndpoint, endpointCollector]
  cases e.parents with
  | none => rfl
  | some parents =>
    have hinputs : (some <$> ctx.inputsOf parents : Action σ _).runIn w =
        (.ok (some (ctx.parentInputs t.tool parents)), w) := by
      rw [Action.runIn_map, ctx.runIn_inputsOf parents hw]
      rfl
    exact Action.runIn_bind_of_ok hinputs

theorem reaches_of_collect {order : List Visit → List Visit → Prop} (horder : client.Arranges order)
    {kind : EntityKind} {table : String} (htable : kind.stagingName = some table)
    {stats : CollectStats} {w' : World σ} (hw : w.database = .migrated t)
    (h : (ctx.collect client kind).runIn w = (.ok stats, w')) :
    ∃ listing visits, ctx.Collects client.Gives order kind table t.tool listing visits ∧
      stats = (Fetched.ofVisits visits).stats ∧
      w.Reaches w' (.migrated (t.collected table ctx.scope.tag
        (Collector.stagedUrl client.toService) visits)) (listing.length + visits.length) := by
  rw [collect, htable] at h
  unfold Collects
  cases hendpoint : Endpoint.of? kind with
  | some e =>
    simp only [hendpoint] at h
    rw [ctx.runIn_collectEndpoint table e hw] at h
    obtain ⟨walked, visits, hwalks, harranged, hstats, hreach⟩ := horder _ _ _ _ _ hw h
    refine ⟨[], visits, ⟨rfl, walked, hwalks, harranged⟩, hstats, ?_⟩
    rw [List.length_nil, Nat.zero_add]
    exact hreach
  | none =>
    simp only [hendpoint, collectPlans] at h
    obtain ⟨listed, u, hlist, hplans⟩ := Action.runIn_bind_ok_iff.1 h
    obtain ⟨listing, hlisting, rfl, hreach⟩ := Collector.reaches_of_fetchAll _ rfl hw hlist
    obtain ⟨walked, visits, hwalks, harranged, hstats, hreach'⟩ :=
      horder _ _ _ _ _ hreach.database hplans
    exact ⟨listing, visits, ⟨hlisting, walked, hwalks, harranged⟩, hstats, hreach.trans hreach'⟩

theorem collect_of_fixed {answer : Request → Except Error Json} (hfixed : service.IsFixed answer)
    {kind : EntityKind} {table : String} (htable : kind.stagingName = some table)
    {listing visits : List Visit}
    (hcollects : ctx.Collects service.Gives Eq kind table t.tool listing visits)
    (hw : w.database = .migrated t) (hbudget : listing.length + visits.length ≤ w.budget)
    (hgoes : w.cancelled = false) :
    ∃ w', (ctx.collect service kind).runIn w = (.ok (Fetched.ofVisits visits).stats, w') ∧
      w.Reaches w' (.migrated (t.collected table ctx.scope.tag
        (Collector.stagedUrl service) visits)) (listing.length + visits.length) ∧
      w'.cancelled = false := by
  unfold Collects at hcollects
  rw [collect, htable]
  cases hendpoint : Endpoint.of? kind with
  | some e =>
    rw [hendpoint] at hcollects
    obtain ⟨rfl, visits, hwalks, rfl⟩ := hcollects
    rw [List.length_nil, Nat.zero_add] at hbudget ⊢
    simp only [ctx.runIn_collectEndpoint table e hw]
    exact Collector.execute_of_fixed _ hfixed hwalks hw hbudget hgoes
  | none =>
    rw [hendpoint] at hcollects
    obtain ⟨hlisting, visits, hwalks, rfl⟩ := hcollects
    obtain ⟨u, hlist, hreach, hu⟩ := Collector.fetchAll_of_fixed _ hfixed hlisting hw
      (Nat.le_trans (Nat.le_add_right _ _) hbudget) hgoes
    have hleft : visits.length ≤ u.budget := by
      have := hreach.budget
      omega
    obtain ⟨w', hplans, hreach', hw'⟩ :=
      Collector.execute_of_fixed _ hfixed hwalks hreach.database hleft hu
    refine ⟨w', ?_, hreach.trans hreach', hw'⟩
    simp only [collectPlans]
    exact (Action.runIn_bind_of_ok hlist).trans hplans

end RunContext

end QaLake
