import QaLake.Proofs.Sync.Frame

namespace QaLake

open Store Relation

variable {σ : Type}

namespace Subtask

theorem filter_or_of_before {α : Type} {p q : α → Bool} {place : α → Nat}
    (hbefore : ∀ a b, p a = true → q b = true → place a < place b) {l : List α}
    (hl : l.Pairwise fun a b => place a < place b) :
    (l.filter fun a => p a || q a) = l.filter p ++ l.filter q := by
  induction l with
  | nil => rfl
  | cons a rest ih =>
    obtain ⟨hfirst, hrest⟩ := List.pairwise_cons.1 hl
    have ih := ih hrest
    by_cases hq : q a = true
    · have hp : p a ≠ true := fun hp => Nat.lt_irrefl _ (hbefore a a hp hq)
      have hnone : rest.filter p = [] := by
        rw [List.filter_eq_nil_iff]
        intro b hb hpb
        exact Nat.lt_asymm (hfirst b hb) (hbefore b a hpb hq)
      rw [hnone, List.nil_append] at ih
      simp [hp, hq, hnone, ih]
    · by_cases hp : p a = true
      · simp [hp, hq, ih]
      · simp [hp, hq, ih]

theorem inOrder_append {first later : List Subtask}
    (h : ∀ a ∈ first, ∀ b ∈ later, a.index < b.index) :
    inOrder (first ++ later) = inOrder first ++ inOrder later := by
  have hcontains : (first ++ later).contains = fun s => first.contains s || later.contains s := by
    funext s
    simp
  rw [inOrder, hcontains]
  apply filter_or_of_before _ pairwise_index
  intro a b ha hb
  exact h a (by simpa using ha) b (by simpa using hb)

end Subtask

namespace Store.Tables

variable {scope : RunScope} {s : Subtask} {t u : Tables} {p : Place}

/-- Tables that differ by the writes of a step hold the same in the places that it does not write.
-/
theorem Within.same (h : t.Within (s.writeSet scope) u) (hp : p ∉ s.writes) :
    p.Same scope t u := by
  cases p with
  | staged kind =>
    intro table htable
    have hout : ¬(s.writeSet scope).staged table scope.tag := by
      rintro ⟨hphase, hs, -⟩
      have hkind : s.entity = kind := by
        by_contra hne
        exact EntityKind.stagingName_ne_of_ne hne hs htable rfl
      apply hp
      simp [Subtask.writes, hphase, hkind]
    rw [Staging.contents, Staging.contents, h.staged table scope.tag hout]
  | tool kind =>
    intro n hn
    obtain hsame | ⟨r, ⟨hphase, hr, -⟩, hname, -⟩ := h.tool n
    · exact hsame.symm
    · have hkind : r.kind = kind := by rw [← r.kind_name, hname, hn]
      exfalso
      apply hp
      simpa [Subtask.writes, hphase, ← hkind] using hr
  | domain kind =>
    intro id
    obtain hsame | ⟨d, ⟨hphase, hd, -⟩, hname, -⟩ := h.domain (kind, id)
    · exact hsame.symm
    · have hkind : d.kind = kind := congrArg Prod.fst hname
      exfalso
      apply hp
      simpa [Subtask.writes, hphase, ← hkind] using hd

end Store.Tables

namespace RunContext

variable {ctx : RunContext} {client : Client σ}

theorem runSteps_append (first later : List Subtask) (w : World σ) :
    (ctx.runSteps client (first ++ later)).run w =
      match (ctx.runSteps client first).run w with
      | (⟨steps, none⟩, v) =>
        (⟨steps ++ ((ctx.runSteps client later).run v).1.steps,
          ((ctx.runSteps client later).run v).1.failure⟩, ((ctx.runSteps client later).run v).2)
      | failed => failed := by
  induction first generalizing w with
  | nil => rfl
  | cons s first ih =>
    rcases hstep : (ctx.runStep client s).runIn w with ⟨r, v⟩
    cases r with
    | error e =>
      rw [List.cons_append, runSteps_cons_of_error _ hstep, runSteps_cons_of_error _ hstep]
    | ok o =>
      rw [List.cons_append, runSteps_cons_of_ok _ hstep, runSteps_cons_of_ok _ hstep, ih]
      rcases (ctx.runSteps client first).run v with ⟨⟨steps, failure⟩, u⟩
      cases failure with
      | none => rfl
      | some f => rfl

/-- A run that fails has done the steps before the one that fails, and nothing behind it. -/
theorem exists_of_failure {steps : List Subtask} {s : Subtask} {e : Error} {report : RunReport}
    {w w' : World σ} (h : (ctx.runSteps client steps).run w = (report, w'))
    (hfails : report.failure = some (s, e)) :
    ∃ before after v, steps = before ++ s :: after ∧
      (ctx.runSteps client before).run w = (⟨report.steps, none⟩, v) ∧
      report.steps.map StepReport.subtask = before ∧
      (ctx.runStep client s).runIn v = (.error e, w') := by
  induction steps generalizing report w with
  | nil =>
    obtain ⟨rfl, -⟩ := Prod.mk.inj h
    cases hfails
  | cons s' steps ih =>
    rcases hstep : (ctx.runStep client s').runIn w with ⟨r, v⟩
    cases r with
    | error e' =>
      rw [runSteps_cons_of_error steps hstep] at h
      obtain ⟨rfl, rfl⟩ := Prod.mk.inj h
      cases hfails
      exact ⟨[], steps, w, rfl, rfl, rfl, hstep⟩
    | ok o =>
      rw [runSteps_cons_of_ok steps hstep] at h
      obtain ⟨rfl, rfl⟩ := Prod.mk.inj h
      obtain ⟨before, after, u, rfl, hbefore, hdone, hfailed⟩ := ih rfl hfails
      refine ⟨s' :: before, after, u, rfl, ?_, congrArg (s' :: ·) hdone, hfailed⟩
      rw [runSteps_cons_of_ok before hstep, hbefore]
      rfl

/-- Steps that do not write a place leave it as it is, also where one of them fails. -/
theorem same_of_runSteps (client : Client σ) {steps : List Subtask} {p : Place}
    (hp : ∀ s ∈ steps, p ∉ s.writes) {w : World σ} {t : Tables}
    (hw : w.database = .migrated t) :
    ∃ u, ((ctx.runSteps client steps).run w).2.database = .migrated u ∧ p.Same ctx.scope t u := by
  obtain ⟨u, hu, hmoves⟩ := ctx.moves_runSteps client steps hw
  refine ⟨u, hu, ?_⟩
  clear hu
  induction hmoves with
  | refl => exact Place.Same.refl t
  | tail _ hlast ih =>
    obtain ⟨s, hs, hwrite⟩ := hlast
    exact ih.trans (hwrite.within.same (hp s hs))

theorem kept_of_runSelection {selection first later : List Subtask}
    (horder : Subtask.inOrder selection = first ++ later) {w v : World σ}
    {steps : List StepReport} (hfirst : (ctx.runSteps client first).run w = (⟨steps, none⟩, v))
    {s : Subtask} (hs : s ∈ first) :
    ∃ t u, v.database = .migrated t ∧
      ((ctx.runSelection client selection).run w).2.database = .migrated u ∧
      ∀ p ∈ s.writes, p.Same ctx.scope t u := by
  have hw : ∃ t₀, w.database = .migrated t₀ := by
    cases hw : w.database with
    | migrated t₀ => exact ⟨t₀, rfl⟩
    | unmigrated =>
      rw [runSteps_nil_of_unmigrated hw hfirst rfl] at hs
      cases hs
  obtain ⟨t₀, hw⟩ := hw
  obtain ⟨t, hv, -⟩ := ctx.moves_runSteps client first hw
  rw [hfirst] at hv
  obtain ⟨u, hu, -⟩ := ctx.moves_runSteps client later hv
  have hspares := Subtask.inOrder_spares selection
  rw [horder, List.pairwise_append] at hspares
  have hend : ((ctx.runSelection client selection).run w).2 =
      ((ctx.runSteps client later).run v).2 := by
    rw [runSelection, horder, runSteps_append, hfirst]
  refine ⟨t, u, hv, by rw [hend]; exact hu, fun p hp => ?_⟩
  have hlater : ∀ s' ∈ later, p ∉ s'.writes := fun s' hs' hp' =>
    hspares.2.2 s hs s' hs' p hp' (List.mem_append_right _ hp)
  obtain ⟨u', hu', hsame⟩ := same_of_runSteps client hlater hv
  cases hu.symm.trans hu'
  exact hsame

/-- Two selections of which one stands before the other run together as one behind the other. Where
a step fails, the run fails with the error of that step, the steps before it have succeeded and what
they wrote is kept, and the world is the one that the failing step left. -/
theorem runSelection_append {first later : List Subtask}
    (h : ∀ a ∈ first, ∀ b ∈ later, a.index < b.index) (w : World σ) :
    ((ctx.runSelection client (first ++ later)).run w =
      match (ctx.runSelection client first).run w with
      | (⟨steps, none⟩, v) =>
        (⟨steps ++ ((ctx.runSelection client later).run v).1.steps,
          ((ctx.runSelection client later).run v).1.failure⟩,
          ((ctx.runSelection client later).run v).2)
      | failed => failed) ∧
    ∀ report w' s e, (ctx.runSelection client (first ++ later)).run w = (report, w') →
      report.failure = some (s, e) →
      report.error? = some (.subtask s.name e) ∧
      ∃ before after v, Subtask.inOrder (first ++ later) = before ++ s :: after ∧
        (ctx.runSteps client before).run w = (⟨report.steps, none⟩, v) ∧
        report.steps.map StepReport.subtask = before ∧
        (ctx.runStep client s).runIn v = (.error e, w') ∧
        ∀ done rest steps u, before = done ++ rest →
          (ctx.runSteps client done).run w = (⟨steps, none⟩, u) → ∀ b ∈ done,
            ∃ t t', u.database = .migrated t ∧ w'.database = .migrated t' ∧
              ∀ p ∈ b.writes, p.Same ctx.scope t t' := by
  constructor
  · simp only [runSelection, Subtask.inOrder_append h]
    exact runSteps_append (Subtask.inOrder first) (Subtask.inOrder later) w
  · intro report w' s e hrun hfails
    obtain ⟨before, after, v, horder, hbefore, hdone, hfailed⟩ := exists_of_failure hrun hfails
    have herror : report.error? = some (.subtask s.name e) := by
      rw [RunReport.error?, hfails]
      rfl
    refine ⟨herror, before, after, v, horder, hbefore, hdone, hfailed,
      fun done rest steps u hsplit hprefix b hb => ?_⟩
    have horder' : Subtask.inOrder (first ++ later) = done ++ (rest ++ s :: after) := by
      rw [horder, hsplit, List.append_assoc]
    obtain ⟨t, t', ht, ht', hsame⟩ := kept_of_runSelection horder' hprefix hb
    rw [hrun] at ht'
    exact ⟨t, t', ht, ht', hsame⟩

def failingSecond : Service Nat where
  url := id
  exchange n _ :=
    (⟨if n = 0 then .ok (.arr [.obj [("id", .int 1), ("name", .str "first")]])
      else .error (.http 500 "" "busy"), false⟩, n + 1)

def stepsOf (kind : EntityKind) : List Subtask :=
  Subtask.all.filter fun s => s.entity = kind

set_option maxRecDepth 100000 in
theorem runSelection_append_failing :
    ∃ report w' before after e, ((inPagesOf 250 100).runSelection failingSecond
        (stepsOf .status ++ stepsOf .priority)).run ⟨.migrated .empty, 0, [], 100, false⟩ =
          (report, w') ∧
      report.error? = some (.subtask "collectPriorities" e) ∧
      Subtask.inOrder (stepsOf .status ++ stepsOf .priority) =
        before ++ ⟨.collect, .priority, rfl⟩ :: after ∧
      report.steps.map StepReport.subtask = before := by
  have hbefore : ∀ a ∈ stepsOf .status, ∀ b ∈ stepsOf .priority, a.index < b.index := by
    decide +kernel
  have hfails : (((inPagesOf 250 100).runSelection failingSecond
      (stepsOf .status ++ stepsOf .priority)).run
        ⟨.migrated .empty, 0, [], 100, false⟩).1.failure.map Prod.fst =
          some ⟨.collect, .priority, rfl⟩ := by
    decide +kernel
  rcases hrun : ((inPagesOf 250 100).runSelection failingSecond
    (stepsOf .status ++ stepsOf .priority)).run
      ⟨.migrated .empty, 0, [], 100, false⟩ with ⟨report, w'⟩
  rw [hrun] at hfails
  obtain ⟨⟨s, e⟩, hfailure, rfl⟩ := Option.map_eq_some_iff.1 hfails
  obtain ⟨herror, before, after, -, horder, -, hdone, -⟩ :=
    (runSelection_append hbefore ⟨.migrated .empty, 0, [], 100, false⟩).2 report w' _ e hrun
      hfailure
  exact ⟨report, w', before, after, e, hrun, herror, horder, hdone⟩

end RunContext

end QaLake
