import QaLake.Proofs.Sync.Places

namespace QaLake.RunContext

open Store

variable {ctx : RunContext} {gives : Request → Json → Prop}
  {order : List Visit → List Visit → Prop} {url : Request → String} {s : Subtask}
  {o : StepOutcome} {requests : Nat} {t₀ t t' : Tables}

/-- What can be told of a step from tables behind it, where `t₀` are the tables before the run. -/
inductive Holds (ctx : RunContext) (gives : Request → Json → Prop)
    (order : List Visit → List Visit → Prop) (url : Request → String) (t₀ : Tables) (s : Subtask)
    (t : Tables) : StepOutcome → Nat → Prop
  | collect {table : String} {listing visits : List Visit} (hphase : s.phase = .collect)
      (htable : s.entity.stagingName = some table)
      (hvisits : ctx.Collects gives order s.entity table t.tool listing visits)
      (hcontents : t.staging.contents table ctx.scope.tag = visits.flatMap (Visit.entries url)) :
      Holds ctx gives order url t₀ s t (.collected (Fetched.ofVisits visits).stats)
        (listing.length + visits.length)
  | extract {table : String} {texts : List RecordTexts} {read : List (Option (List Tool.Row))}
      (hphase : s.phase = .extract) (htable : s.entity.stagingName = some table)
      (htexts : (t.staging.contents table ctx.scope.tag).mapM Entry.texts? = some texts)
      (hread : texts.mapM (ctx.readRecord s.entity) = .ok read)
      (hrows : ∀ n : Tool.RowName, n.kind ∈ s.entity.described → t.tool.find? n =
        (lastUnder Tool.Row.name (read.flatMap (·.getD [])) n).or (t₀.tool.find? n)) :
      Holds ctx gives order url t₀ s t (.extracted (.of read)) 0
  | convert (hphase : s.phase = .convert)
      (hrows : ∀ n : Domain.Kind × String, n.1 ∈ s.entity.convertedKinds → t.domain.find? n =
        (lastUnder (fun r => (r.kind, r.id))
          ((ctx.outcomes t.tool s.entity).filterMap Domain.Outcome.row?) n).or
          (t₀.domain.find? n)) :
      Holds ctx gives order url t₀ s t (.converted (.of (ctx.outcomes t.tool s.entity))) 0

theorem parentInputs_congr {tool tool' : ToolTables} {parents : Parents}
    (h : ∀ n : Tool.RowName,
      (parents = .suites → n.kind = .suite) → (parents = .runs → n.kind = .run) →
      tool.find? n = tool'.find? n) :
    ctx.parentInputs tool parents = ctx.parentInputs tool' parents := by
  cases parents with
  | suites =>
    rw [parentInputs, parentInputs, streamed_congr Tool.Suite ctx.scope fun n hn =>
      h n (fun _ => hn) (fun hruns => nomatch hruns)]
  | runs =>
    rw [parentInputs, parentInputs, streamed_congr Tool.Run ctx.scope fun n hn =>
      h n (fun hsuites => nomatch hsuites) (fun _ => hn)]

theorem collects_congr {table : String} {listing visits : List Visit}
    (hphase : s.phase = .collect) (hsame : ∀ p ∈ s.reads, p.Same ctx.scope t t')
    (h : ctx.Collects gives order s.entity table t.tool listing visits) :
    ctx.Collects gives order s.entity table t'.tool listing visits := by
  unfold Collects at h ⊢
  cases hendpoint : Endpoint.of? s.entity with
  | none =>
    rw [hendpoint] at h
    exact h
  | some e =>
    simp only [hendpoint] at h ⊢
    have hcollector : ctx.endpointCollector table e t.tool =
        ctx.endpointCollector table e t'.tool := by
      rw [endpointCollector, endpointCollector]
      cases hparents : e.parents with
      | none => rfl
      | some parents =>
        have hs : s.parents = some parents := by
          rw [Subtask.parents, hendpoint, Option.bind_some, hparents]
        rw [Option.map_some, Option.map_some, parentInputs_congr]
        intro n hsuites hruns
        cases parents with
        | suites => exact hsame (.tool .suite) (by simp [Subtask.reads, hphase, hs]) n (hsuites rfl)
        | runs => exact hsame (.tool .run) (by simp [Subtask.reads, hphase, hs]) n (hruns rfl)
    rwa [← hcollector]

theorem outcomes_congr {tool tool' : ToolTables} {kind : EntityKind}
    (h : ∀ n : Tool.RowName, n.kind = kind → tool.find? n = tool'.find? n) :
    ctx.outcomes tool kind = ctx.outcomes tool' kind := by
  have hconverted : tool.converted ctx.scope kind = tool'.converted ctx.scope kind := by
    cases kind with
    | project =>
      exact congrArg (List.map Tool.Row.project) (streamed_congr Tool.Project ctx.scope h)
    | case => exact congrArg (List.map Tool.Row.case) (streamed_congr Tool.Case ctx.scope h)
    | run => exact congrArg (List.map Tool.Row.run) (streamed_congr Tool.Run ctx.scope h)
    | result => exact congrArg (List.map Tool.Row.result) (streamed_congr Tool.Result ctx.scope h)
    | _ => rfl
  rw [outcomes, outcomes, hconverted]

/-- Behind a step it can be told from the tables, if the places it writes were as before the run. -/
theorem Does.holds (h : ctx.Does gives order url s t o requests t')
    (hsame : ∀ p ∈ s.writes, p.Same ctx.scope t₀ t) :
    ctx.Holds gives order url t₀ s t' o requests := by
  have hreads : ∀ p ∈ s.reads, p.Same ctx.scope t t' := fun p hp =>
    h.same (s.reads_not_written p hp)
  cases h with
  | @collect table listing visits hphase htable hvisits =>
    refine Holds.collect hphase htable (collects_congr hphase hreads hvisits) ?_
    change ((t.staging.delete table ctx.scope.tag).stageVisits table ctx.scope.tag url
      visits).contents table ctx.scope.tag = _
    rw [Staging.contents_stageVisits, Staging.contents_delete, List.nil_append]
  | @extract table texts read hphase htable htexts hread =>
    refine Holds.extract hphase htable htexts hread fun n hn => ?_
    have hp : Place.tool n.kind ∈ s.writes := by
      rw [Subtask.writes, hphase]
      exact List.mem_map_of_mem hn
    rw [hsame _ hp n rfl]
    exact ToolTables.overwriting.get_foldl _ _ n
  | convert hphase =>
    refine Holds.convert hphase fun n hn => ?_
    have hp : Place.domain n.1 ∈ s.writes := by
      rw [Subtask.writes, hphase]
      exact List.mem_map_of_mem hn
    rw [show t₀.domain.find? n = t.domain.find? n from hsame _ hp n.2]
    exact DomainTables.overwriting.get_foldl _ _ n

theorem Holds.congr (h : ctx.Holds gives order url t₀ s t o requests)
    (hsame : ∀ p ∈ s.reads ++ s.writes, p.Same ctx.scope t t') :
    ctx.Holds gives order url t₀ s t' o requests := by
  have hreads : ∀ p ∈ s.reads, p.Same ctx.scope t t' := fun p hp =>
    hsame p (List.mem_append_left _ hp)
  have hwrites : ∀ p ∈ s.writes, p.Same ctx.scope t t' := fun p hp =>
    hsame p (List.mem_append_right _ hp)
  cases h with
  | @collect table listing visits hphase htable hvisits hcontents =>
    refine Holds.collect hphase htable (collects_congr hphase hreads hvisits) ?_
    have hp : Place.staged s.entity ∈ s.writes := by simp [Subtask.writes, hphase]
    rw [← hwrites _ hp table htable, hcontents]
  | @extract table texts read hphase htable htexts hread hrows =>
    have hstaged : Place.staged s.entity ∈ s.reads := by simp [Subtask.reads, hphase]
    rw [hreads _ hstaged table htable] at htexts
    refine Holds.extract hphase htable htexts hread fun n hn => ?_
    have hp : Place.tool n.kind ∈ s.writes := by
      rw [Subtask.writes, hphase]
      exact List.mem_map_of_mem hn
    rw [← hwrites _ hp n rfl, hrows n hn]
  | convert hphase hrows =>
    have htool : Place.tool s.entity ∈ s.reads := by simp [Subtask.reads, hphase]
    have houtcomes : ctx.outcomes t.tool s.entity = ctx.outcomes t'.tool s.entity :=
      outcomes_congr (hreads _ htool)
    rw [houtcomes] at hrows ⊢
    refine Holds.convert hphase fun n hn => ?_
    have hp : Place.domain n.1 ∈ s.writes := by
      rw [Subtask.writes, hphase]
      exact List.mem_map_of_mem hn
    rw [← show t.domain.find? n = t'.domain.find? n from hwrites _ hp n.2, hrows n hn]

/-- Behind a run each of its steps can be told from the tables, if none writes what an earlier one
reads or writes. -/
theorem Runs.holds {done : List Done} {u : Tables} (h : ctx.Runs gives order url u done t)
    (hspares : (done.map Done.subtask).Pairwise Subtask.Spares)
    (hfresh : ∀ d ∈ done, ∀ p ∈ d.subtask.writes, p.Same ctx.scope t₀ u) :
    ∀ d ∈ done, ctx.Holds gives order url t₀ d.subtask t d.outcome d.requests := by
  induction h with
  | nil =>
    intro d hd
    cases hd
  | @cons t u t' first rest hdoes hrest ih =>
    rw [List.map_cons, List.pairwise_cons] at hspares
    obtain ⟨hfirst, hpairs⟩ := hspares
    have hlater : ∀ d ∈ rest, first.subtask.Spares d.subtask := fun d hd =>
      hfirst _ (List.mem_map_of_mem hd)
    intro d hd
    obtain rfl | hd := List.mem_cons.1 hd
    · refine (hdoes.holds (hfresh _ List.mem_cons_self)).congr fun p hp => ?_
      exact hrest.same fun e he hw => hlater e he p hw hp
    · refine ih hpairs (fun e he p hp => ?_) d hd
      have hnot : p ∉ first.subtask.writes := fun hw =>
        hlater e he p hp (List.mem_append_right _ hw)
      exact (hfresh e (List.mem_cons_of_mem _ he) p hp).trans (hdoes.same hnot)

end QaLake.RunContext
