import QaLake.Proofs.Domain.Overrides
import QaLake.Proofs.Sync.Accounting

namespace QaLake

open Store

variable {σ : Type}

namespace Store.DomainTables

/-- Tables with rows under the same names, and with related rows under each of them. -/
def Related (R : Domain.Row → Domain.Row → Prop) (t u : DomainTables) : Prop :=
  ∀ n, Option.Rel R (t.find? n) (u.find? n)

variable {R : Domain.Row → Domain.Row → Prop} {t u : DomainTables}

theorem Related.refl (hR : ∀ d, R d d) (t : DomainTables) : t.Related R t := by
  intro n
  cases t.find? n with
  | none => exact .none
  | some d => exact .some (hR d)

theorem Related.eq (h : t.Related R u) (hR : ∀ d d', R d d' → d = d') : t = u := by
  apply ext_find?
  intro n
  have hn := h n
  generalize t.find? n = a, u.find? n = b at hn
  cases hn with
  | none => rfl
  | some hd => rw [hR _ _ hd]

theorem Related.insert (h : t.Related R u) {d d' : Domain.Row} (hd : R d d')
    (hname : (d'.kind, d'.id) = (d.kind, d.id)) : (t.insert d).Related R (u.insert d') := by
  intro n
  rw [find?_insert, find?_insert, hname]
  split
  · exact .some hd
  · exact h n

/-- Rows that are written for each element of a list, related ones for the same element, leave
related tables. -/
theorem Related.foldl {α : Type} (hname : ∀ d d', R d d' → (d'.kind, d'.id) = (d.kind, d.id))
    {f g : α → Option Domain.Row} {l : List α} (hl : ∀ a ∈ l, Option.Rel R (f a) (g a))
    (h : t.Related R u) :
    ((l.filterMap f).foldl DomainTables.insert t).Related R
      ((l.filterMap g).foldl DomainTables.insert u) := by
  induction l generalizing t u with
  | nil => exact h
  | cons a l ih =>
    have ha := hl a List.mem_cons_self
    have hrest := fun b hb => hl b (List.mem_cons_of_mem a hb)
    rw [List.filterMap_cons, List.filterMap_cons]
    cases hf : f a with
    | none =>
      cases hg : g a with
      | none => exact ih hrest h
      | some d' =>
        rw [hf, hg] at ha
        cases ha
    | some d =>
      cases hg : g a with
      | none =>
        rw [hf, hg] at ha
        cases ha
      | some d' =>
        rw [hf, hg] at ha
        cases ha with
        | some hd => exact ih hrest (h.insert hd (hname d d' hd))

end Store.DomainTables

namespace RunContext

def under (ctx : RunContext) (config : ScopeConfig) : RunContext :=
  { ctx with config := some config }

section Steps

variable (ctx : RunContext) (client : Client σ) {t : Tables} {w : World σ}
  {steps : List Subtask}

theorem runIn_runStep_convert {s : Subtask} (hphase : s.phase = .convert)
    (hw : w.database = .migrated t) (hgoes : w.cancelled = false) :
    (ctx.runStep client s).runIn w =
      (.ok (.converted (.of (ctx.outcomes t.tool s.entity))),
        w.holding (withOutcomes t (ctx.outcomes t.tool s.entity))) := by
  have hcheck : (Action.checkCancelled : Action σ Unit).runIn w = (.ok (), w) :=
    Action.runIn_checkCancelled_ok.2 ⟨hgoes, rfl⟩
  rw [runStep, Action.runIn_bind_of_ok hcheck]
  simp only [hphase]
  rw [Action.runIn_bind_of_ok (ctx.runIn_convert s.entity hw hgoes)]
  rfl

theorem runSteps_convert (hsteps : ∀ s ∈ steps, s.phase = .convert)
    (hw : w.database = .migrated t) (hgoes : w.cancelled = false) :
    (ctx.runSteps client steps).run w =
      (⟨steps.map fun s => ⟨s, .converted (.of (ctx.outcomes t.tool s.entity))⟩, none⟩,
        w.holding (withOutcomes t (steps.flatMap fun s => ctx.outcomes t.tool s.entity))) := by
  induction steps generalizing w t with
  | nil =>
    obtain ⟨db, remote, calls, budget, cancelled⟩ := w
    cases hw
    rfl
  | cons s steps ih =>
    have hstep := ctx.runIn_runStep_convert client (hsteps s List.mem_cons_self) hw hgoes
    have hrest := ih (w := w.holding (withOutcomes t (ctx.outcomes t.tool s.entity)))
      (fun s' hs' => hsteps s' (List.mem_cons_of_mem s hs')) rfl hgoes
    rw [runSteps_cons_of_ok steps hstep, hrest, List.flatMap_cons, withOutcomes_append]
    rfl

/-- A run that is cancelled before its first step does nothing, and fails there if there is one. -/
theorem runSteps_of_cancelled (steps : List Subtask) (hcancelled : w.cancelled = true) :
    (ctx.runSteps client steps).run w =
      (⟨[], steps.head?.map fun s => (s, .cancelled)⟩, w) := by
  cases steps with
  | nil => rfl
  | cons s steps =>
    have hcheck : (Action.checkCancelled : Action σ Unit).runIn w = (.error .cancelled, w) := by
      rw [Action.runIn_checkCancelled, hcancelled]
      rfl
    have hstep : (ctx.runStep client s).runIn w = (.error .cancelled, w) := by
      rw [runStep, Action.runIn_bind_of_error hcheck]
    exact runSteps_cons_of_error steps hstep

end Steps

/-- Domain rows that are the same, or that a tool row of the scope becomes under each configuration,
and the same but for the word for its id, which is the key in decimal. -/
def SameButWord (ctx : RunContext) (tool : ToolTables) (v : Vocabulary) (key : String)
    (c c' : ScopeConfig) (d d' : Domain.Row) : Prop :=
  d' = d ∨ ∃ kind, ∃ r ∈ tool.rowsIn ctx.scope kind, ∃ id : Int,
    r.hasPositiveId = true ∧ r.code? v = some id ∧ toString id = key ∧
      Domain.convert (some c) r.reread = .row d ∧ Domain.convert (some c') r.reread = .row d' ∧
      d' = d.withWord v (v.word (some c') id)

variable {ctx : RunContext} {t : Tables} {v : Vocabulary} {key : String} {c c' : ScopeConfig}

theorem name_of_sameButWord {tool : ToolTables} {d d' : Domain.Row}
    (h : ctx.SameButWord tool v key c c' d d') : (d'.kind, d'.id) = (d.kind, d.id) := by
  obtain rfl | ⟨-, -, -, -, -, -, -, -, -, rfl⟩ := h
  · rfl
  · rw [Domain.Row.kind_withWord, Domain.Row.id_withWord]

variable (h : c.DiffersAt v key c')

include h

theorem stats_of_differsAt {kind : EntityKind} (hkind : kind.isConverted = true) :
    ConvertStats.of ((ctx.under c').outcomes t.tool kind) =
      ConvertStats.of ((ctx.under c).outcomes t.tool kind) := by
  have hrejects : Domain.rejects (ctx.under c').config = Domain.rejects (ctx.under c).config :=
    funext h.rejects_eq
  have hlength := (ctx.under c).length_converts (t := t) hkind
  have hlength' := (ctx.under c').length_converts (t := t) hkind
  rw [hrejects] at hlength'
  have hrows : ((ctx.under c').converts t.tool kind).length =
      ((ctx.under c).converts t.tool kind).length :=
    Nat.add_right_cancel (hlength'.trans hlength.symm)
  rw [ConvertStats.of, ConvertStats.of, filterMap_outcomes, filterMap_outcomes, countP_outcomes,
    countP_outcomes, hrejects, hrows]
  rfl

theorem rel_of_differsAt {kind : EntityKind} (hkind : kind.isConverted = true) {r : Tool.Row}
    (hr : r ∈ t.tool.converted ctx.scope kind) :
    Option.Rel (ctx.SameButWord t.tool v key c c') (Domain.convert (some c) r).row?
      (Domain.convert (some c') r).row? := by
  rw [t.tool.converted_eq ctx.scope hkind] at hr
  obtain ⟨stored, hstored, rfl⟩ := List.mem_map.1 hr
  obtain ⟨hmem, hpositive⟩ := List.mem_filter.1 hstored
  cases hd : Domain.convert (some c) stored.reread with
  | row d =>
    obtain hsame | ⟨id, hid, hkey, hword⟩ := h.convert_cases stored.reread
    · rw [hsame, hd]
      exact .some (.inl rfl)
    · rw [stored.code?_reread] at hid
      rw [hd] at hword
      rw [hword]
      exact .some (.inr ⟨kind, stored, hmem, id, hpositive, hid, hkey, hd, hword, rfl⟩)
  | filtered =>
    rw [Domain.convert_eq_filtered_iff, ← h.rejects_eq, ← Domain.convert_eq_filtered_iff] at hd
    rw [hd]
    exact .none
  | noCounterpart =>
    rw [Domain.convert_eq_noCounterpart_iff] at hd
    rw [Domain.convert_eq_noCounterpart_iff.2 hd]
    exact .none

theorem related_of_differsAt (ctx : RunContext) (t : Tables) {steps : List Subtask}
    (hkinds : ∀ s ∈ steps, s.entity.isConverted = true) :
    (withOutcomes t (steps.flatMap fun s =>
        (ctx.under c).outcomes t.tool s.entity)).domain.Related (ctx.SameButWord t.tool v key c c')
      (withOutcomes t (steps.flatMap fun s =>
        (ctx.under c').outcomes t.tool s.entity)).domain := by
  have houtcomes (config : ScopeConfig) :
      (steps.flatMap fun s => (ctx.under config).outcomes t.tool s.entity) =
        (steps.flatMap fun s => t.tool.converted ctx.scope s.entity).map
          (Domain.convert (some config)) :=
    List.map_flatMap.symm
  rw [houtcomes, houtcomes, withOutcomes, withOutcomes, List.filterMap_map, List.filterMap_map]
  apply DomainTables.Related.foldl fun _ _ => name_of_sameButWord
  · intro r hr
    obtain ⟨s, hs, hr⟩ := List.mem_flatMap.1 hr
    exact rel_of_differsAt h (hkinds s hs) hr
  · exact .refl (fun _ => .inl rfl) t.domain

/-- Conversions in any order and number, under configurations that are equal but for the override of
one key in one vocabulary, report the same and leave the same tables, except for the words of that
vocabulary in the domain rows of tool rows whose id is the key in decimal. A key that is not the
decimal of any id changes nothing. -/
theorem override_changes_own_words (ctx : RunContext) (client : Client σ) {steps : List Subtask}
    (hsteps : ∀ s ∈ steps, s.phase = .convert) {w : World σ} (hw : w.database = .migrated t) :
    ∃ report domain domain',
      ((ctx.under c).runSteps client steps).run w =
        (report, w.holding { t with domain := domain }) ∧
      ((ctx.under c').runSteps client steps).run w =
        (report, w.holding { t with domain := domain' }) ∧
      domain.Related (ctx.SameButWord t.tool v key c c') domain' ∧
      ((∀ id : Int, toString id ≠ key) → domain = domain') := by
  cases hgoes : w.cancelled with
  | true =>
    obtain ⟨db, remote, calls, budget, cancelled⟩ := w
    cases hw
    exact ⟨_, t.domain, t.domain, (ctx.under c).runSteps_of_cancelled client steps hgoes,
      (ctx.under c').runSteps_of_cancelled client steps hgoes,
      .refl (fun _ => .inl rfl) t.domain, fun _ => rfl⟩
  | false =>
    have hkinds : ∀ s ∈ steps, s.entity.isConverted = true := by
      intro s hs
      have hvalid := s.valid
      rwa [hsteps s hs] at hvalid
    have hreport : (steps.map fun s => (⟨s, .converted
          (.of ((ctx.under c').outcomes t.tool s.entity))⟩ : StepReport)) =
        steps.map fun s => ⟨s, .converted (.of ((ctx.under c).outcomes t.tool s.entity))⟩ := by
      apply List.map_congr_left
      intro s hs
      rw [stats_of_differsAt h (hkinds s hs)]
    have hrelated := related_of_differsAt h ctx t hkinds
    have hrun' := (ctx.under c').runSteps_convert client hsteps hw hgoes
    rw [hreport] at hrun'
    refine ⟨_, _, _, (ctx.under c).runSteps_convert client hsteps hw hgoes, hrun', hrelated,
      fun hinert => hrelated.eq fun d d' hd => ?_⟩
    obtain rfl | ⟨-, -, -, id, -, -, hkey, -⟩ := hd
    · rfl
    · exact absurd hkey (hinert id)

omit h

def callsLost : ScopeConfig :=
  { ScopeConfig.empty with statuses := Table.empty.insert "5" "lost" }

theorem differsAt_callsLost : ScopeConfig.empty.DiffersAt .status "5" callsLost where
  overrides k hk := by
    have hlost : (Table.empty.insert "5" "lost").get? k = Table.empty.get? k := by
      rw [Table.get?_insert, if_neg hk]
    exact hlost.symm
  others u hu := by
    cases u with
    | status => exact absurd rfl hu
    | _ => rfl
  customFields := rfl
  automationField := rfl
  automatedValues := rfl
  includedSuites := rfl
  excludedSuites := rfl
  includedMilestones := rfl

def twoResults : Tables :=
  { Tables.empty with
    tool := (ToolTables.empty.insert (.result {
      connectionId := 1, id := 3, projectId := 7, statusId := some 5 })).insert
        (.result { connectionId := 1, id := 4, projectId := 7 }) }

def convertSteps : List Subtask :=
  Subtask.all.filter fun s => s.phase = .convert

def executionStatuses (w : World σ) : Option (List String) :=
  w.database.tables.toOption.map fun t => t.domain.executions.rows.map (·.status)

theorem override_changes_own_words_lost :
    ∃ report domain domain',
      (((inPagesOf 2 1).under .empty).runSteps namelessRuns convertSteps).run
          ⟨.migrated twoResults, (), [], 0, false⟩ =
        (report, ⟨.migrated { twoResults with domain := domain }, (), [], 0, false⟩) ∧
      (((inPagesOf 2 1).under callsLost).runSteps namelessRuns convertSteps).run
          ⟨.migrated twoResults, (), [], 0, false⟩ =
        (report, ⟨.migrated { twoResults with domain := domain' }, (), [], 0, false⟩) ∧
      domain.executions.rows.map (·.status) = ["FAILED", "PENDING"] ∧
      domain'.executions.rows.map (·.status) = ["lost", "PENDING"] := by
  have hsteps : ∀ s ∈ convertSteps, s.phase = .convert := by decide +kernel
  obtain ⟨report, domain, domain', hrun, hrun', -, -⟩ :=
    override_changes_own_words differsAt_callsLost (inPagesOf 2 1) namelessRuns hsteps
      (w := ⟨.migrated twoResults, (), [], 0, false⟩) rfl
  have hfailed : executionStatuses ((((inPagesOf 2 1).under .empty).runSteps namelessRuns
      convertSteps).run ⟨.migrated twoResults, (), [], 0, false⟩).2 =
        some ["FAILED", "PENDING"] := by
    decide +kernel
  have hlost : executionStatuses ((((inPagesOf 2 1).under callsLost).runSteps namelessRuns
      convertSteps).run ⟨.migrated twoResults, (), [], 0, false⟩).2 =
        some ["lost", "PENDING"] := by
    decide +kernel
  rw [hrun] at hfailed
  rw [hrun'] at hlost
  exact ⟨report, domain, domain', hrun, hrun', Option.some.inj hfailed, Option.some.inj hlost⟩

end RunContext

end QaLake
