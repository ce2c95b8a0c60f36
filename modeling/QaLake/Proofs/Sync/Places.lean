import QaLake.Proofs.Sync.Step
import QaLake.Proofs.Tool.Record

namespace QaLake

open Store

namespace EntityKind

def convertedKinds : EntityKind → List Domain.Kind
  | .project => [.project]
  | .case => [.testCase]
  | .run => [.testRun]
  | .result => [.execution]
  | _ => []

theorem mem_all (kind : EntityKind) : kind ∈ all := by
  cases kind <;> decide

theorem stagingName_ne_of_ne {kind kind' : EntityKind} {table table' : String} (h : kind ≠ kind')
    (htable : kind.stagingName = some table) (htable' : kind'.stagingName = some table') :
    table ≠ table' := by
  have hall : ∀ a ∈ all, ∀ b ∈ all, a ≠ b → a.stagingName ≠ none →
      a.stagingName ≠ b.stagingName := by decide +kernel
  rintro rfl
  refine hall kind kind.mem_all kind' kind'.mem_all h ?_ (htable.trans htable'.symm)
  rw [htable]
  exact Option.some_ne_none _

end EntityKind

/-- A part of the tables: what is staged of a kind for the scope of a run, the tool rows of a kind,
or the domain rows of a kind. -/
inductive Place
  | staged (kind : EntityKind)
  | tool (kind : EntityKind)
  | domain (kind : Domain.Kind)
  deriving DecidableEq, Repr

namespace Place

/-- Whether two sets of tables hold the same in a place. -/
def Same (scope : RunScope) : Place → Tables → Tables → Prop
  | staged kind, t, u => ∀ table, kind.stagingName = some table →
      t.staging.contents table scope.tag = u.staging.contents table scope.tag
  | tool kind, t, u => ∀ n : Tool.RowName, n.kind = kind → t.tool.find? n = u.tool.find? n
  | domain kind, t, u => ∀ id, t.domain.find? (kind, id) = u.domain.find? (kind, id)

variable {scope : RunScope} {p : Place} {t u v : Tables}

theorem Same.refl (t : Tables) : p.Same scope t t := by
  cases p with
  | staged kind => exact fun _ _ => rfl
  | tool kind => exact fun _ _ => rfl
  | domain kind => exact fun _ => rfl

theorem Same.trans (h : p.Same scope t u) (h' : p.Same scope u v) : p.Same scope t v := by
  cases p with
  | staged kind => exact fun table htable => (h table htable).trans (h' table htable)
  | tool kind => exact fun n hn => (h n hn).trans (h' n hn)
  | domain kind => exact fun id => (h id).trans (h' id)

end Place

namespace Subtask

def parents (s : Subtask) : Option Parents :=
  (Endpoint.of? s.entity).bind Endpoint.parents

def reads (s : Subtask) : List Place :=
  match s.phase with
  | .collect =>
    match s.parents with
    | none => []
    | some .suites => [.tool .suite]
    | some .runs => [.tool .run]
  | .extract => [.staged s.entity]
  | .convert => [.tool s.entity]

def writes (s : Subtask) : List Place :=
  match s.phase with
  | .collect => [.staged s.entity]
  | .extract => s.entity.described.map .tool
  | .convert => s.entity.convertedKinds.map .domain

def Spares (s s' : Subtask) : Prop :=
  ∀ p ∈ s'.writes, p ∉ s.reads ++ s.writes

instance (s s' : Subtask) : Decidable (s.Spares s') :=
  inferInstanceAs (Decidable (∀ p ∈ s'.writes, p ∉ s.reads ++ s.writes))

theorem all_spares : all.Pairwise Spares := by
  decide +kernel

theorem reads_not_written (s : Subtask) : ∀ p ∈ s.reads, p ∉ s.writes := by
  have hall : ∀ s ∈ all, ∀ p ∈ s.reads, p ∉ s.writes := by decide +kernel
  exact hall s s.mem_all

theorem inOrder_spares (selection : List Subtask) : (inOrder selection).Pairwise Spares :=
  all_spares.filter _

end Subtask

namespace RunContext

variable {ctx : RunContext}

theorem mem_read {kind : EntityKind} {texts : List RecordTexts}
    {read : List (Option (List Tool.Row))} (h : texts.mapM (ctx.readRecord kind) = .ok read)
    {r : Tool.Row} (hr : r ∈ read.flatMap (·.getD [])) :
    r.kind ∈ kind.described ∧ r.IsOf ctx.scope := by
  rw [ctx.flatMap_of_readRecord h] at hr
  obtain ⟨x, -, hr⟩ := List.mem_flatMap.1 hr
  obtain ⟨rows, hrows, hr⟩ := mem_rowsRead hr
  exact Tool.mem_rowsOfRecord hrows hr

theorem kind_of_mem_converted {tool : ToolTables} {scope : RunScope} {kind : EntityKind}
    {r : Tool.Row} (hr : r ∈ tool.converted scope kind) : r.kind = kind := by
  cases kind with
  | project | case | run | result =>
    obtain ⟨x, -, rfl⟩ := List.mem_map.1 hr
    rfl
  | _ => cases hr

theorem kind_of_convert {config : Option ScopeConfig} {r : Tool.Row} {d : Domain.Row}
    (h : (Domain.convert config r).row? = some d) : d.kind ∈ r.kind.convertedKinds := by
  obtain ⟨p, rfl, rfl⟩ | ⟨c, x, rfl, -, rfl⟩ | ⟨u, x, rfl, -, rfl⟩ | ⟨e, rfl, rfl⟩ :=
    Domain.cases_of_convert (Domain.Outcome.row?_eq_some_iff.1 h)
  all_goals exact List.mem_singleton_self _

theorem kind_of_mem_outcomes {tool : ToolTables} {kind : EntityKind} {d : Domain.Row}
    (hd : d ∈ (ctx.outcomes tool kind).filterMap Domain.Outcome.row?) :
    d.kind ∈ kind.convertedKinds := by
  obtain ⟨o, ho, hd⟩ := List.mem_filterMap.1 hd
  obtain ⟨r, hr, rfl⟩ := List.mem_map.1 ho
  rw [← kind_of_mem_converted hr]
  exact kind_of_convert hd

variable {gives : Request → Json → Prop} {order : List Visit → List Visit → Prop}
  {url : Request → String} {s : Subtask} {o : StepOutcome}
  {requests : Nat} {t t' : Tables}

theorem Does.same (h : ctx.Does gives order url s t o requests t') {p : Place} (hp : p ∉ s.writes) :
    p.Same ctx.scope t t' := by
  cases h with
  | @collect table listing visits hphase htable hvisits =>
    simp only [Subtask.writes, hphase, List.mem_singleton] at hp
    cases p with
    | staged kind =>
      intro table' htable'
      have hkind : s.entity ≠ kind := fun e => hp (by rw [e])
      have hne : ¬(table = table' ∧ ctx.scope.tag = ctx.scope.tag) := fun e =>
        EntityKind.stagingName_ne_of_ne hkind htable htable' e.1
      change _ = ((t.staging.delete table ctx.scope.tag).stageVisits table ctx.scope.tag url
        visits).contents table' ctx.scope.tag
      rw [Staging.contents, Staging.contents, Staging.rowsOf_stageVisits_of_ne _ url visits hne,
        Staging.rowsOf_delete_of_ne _ hne]
    | tool kind => exact fun _ _ => rfl
    | domain kind => exact fun _ => rfl
  | @extract table texts read hphase htable htexts hread =>
    simp only [Subtask.writes, hphase] at hp
    cases p with
    | staged kind => exact fun _ _ => rfl
    | tool kind =>
      intro n hn
      refine (ToolTables.overwriting.get_foldl_of_ne (fun r hr hname => hp ?_) t.tool).symm
      have hkind : r.kind = kind := by rw [← r.kind_name, hname, hn]
      exact List.mem_map_of_mem (hkind ▸ (mem_read hread hr).1)
    | domain kind => exact fun _ => rfl
  | convert hphase =>
    simp only [Subtask.writes, hphase] at hp
    cases p with
    | staged kind => exact fun _ _ => rfl
    | tool kind => exact fun _ _ => rfl
    | domain kind =>
      intro id
      refine (DomainTables.overwriting.get_foldl_of_ne (fun d hd hname => hp ?_) t.domain).symm
      have hkind : d.kind = kind := congrArg Prod.fst hname
      exact List.mem_map_of_mem (hkind ▸ kind_of_mem_outcomes hd)

theorem Does.scopes_eq (h : ctx.Does gives order url s t o requests t') : t'.scopes = t.scopes := by
  cases h <;> rfl

theorem Runs.scopes_eq {done : List Done} (h : ctx.Runs gives order url t done t') :
    t'.scopes = t.scopes := by
  induction h with
  | nil => rfl
  | cons hdoes hrest ih => exact ih.trans hdoes.scopes_eq

theorem Runs.same {done : List Done} (h : ctx.Runs gives order url t done t') {p : Place}
    (hp : ∀ d ∈ done, p ∉ d.subtask.writes) : p.Same ctx.scope t t' := by
  induction h with
  | nil => exact Place.Same.refl _
  | cons hdoes hrest ih =>
    have hfirst := hdoes.same (hp _ List.mem_cons_self)
    exact hfirst.trans (ih fun d hd => hp d (List.mem_cons_of_mem _ hd))

end RunContext

end QaLake
