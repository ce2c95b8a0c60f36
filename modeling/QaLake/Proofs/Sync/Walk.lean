import QaLake.Proofs.Sync.Turns
import QaLake.Proofs.Sync.Visit

namespace QaLake

open Store

variable {σ : Type}

namespace Collector

variable (c : Collector)

/-- The visits of a walk from behind a number of records, where `gives` says what is answered. -/
inductive Walk (gives : Request → Json → Prop) (input : Option Json) (path : String) :
    Nat → List Visit → Prop
  | last {offset : Nat} {answer : Json} {page : Page}
      (hgives : gives ⟨path, c.queryAt offset⟩ answer)
      (hpage : c.form.page answer = .ok page) (hlast : c.isLast page = true) :
      Walk gives input path offset [⟨input, ⟨path, c.queryAt offset⟩, page⟩]
  | more {offset : Nat} {answer : Json} {page : Page} {visits : List Visit}
      (hgives : gives ⟨path, c.queryAt offset⟩ answer)
      (hpage : c.form.page answer = .ok page) (hmore : c.isLast page = false)
      (hrest : Walk gives input path (offset + page.records.length) visits) :
      Walk gives input path offset (⟨input, ⟨path, c.queryAt offset⟩, page⟩ :: visits)

/-- The visits of the walks for some inputs, in their order. -/
inductive Walks (gives : Request → Json → Prop) : List (Option Json) → List Visit → Prop
  | nil : Walks gives [] []
  | cons {input : Option Json} {path : String} {inputs : List (Option Json)}
      {visits more : List Visit} (hpath : c.path.render c.scope input = .ok path)
      (hwalk : c.Walk gives input path 0 visits) (hrest : Walks gives inputs more) :
      Walks gives (input :: inputs) (visits ++ more)

def Fetches (c : Collector) (gives : Request → Json → Prop) (input : Json)
    (visits : List Visit) : Prop :=
  ∃ path, c.path.render c.scope (some input) = .ok path ∧ c.Walk gives (some input) path 0 visits

theorem Walk.input_eq {c : Collector} {gives : Request → Json → Prop} {input : Option Json}
    {path : String} {offset : Nat} {visits : List Visit}
    (h : c.Walk gives input path offset visits) : ∀ v ∈ visits, v.input = input := by
  induction h with
  | last _ _ _ => exact fun v hv => List.mem_singleton.1 hv ▸ rfl
  | more _ _ _ _ ih => exact List.forall_mem_cons.2 ⟨rfl, ih⟩

def walkInputs : List (Option Json) :=
  match c.inputs with
  | none => [none]
  | some inputs => inputs.map some

theorem walk_succ (service : Service σ) (staged : Bool) (input : Option Json) (path : String)
    (n offset : Nat) :
    c.walk service staged input path (n + 1) offset = (do
      let page ← c.visit service staged input path offset
      if c.isLast page then return ⟨1, page.records⟩
      else do
        let rest ← c.walk service staged input path n (offset + page.records.length)
        return ⟨1, page.records⟩ ++ rest) := by
  cases staged <;> simp only [walk, visit, send, settle, Action.ask, bind_assoc, pure_bind, if_true,
    Bool.false_eq_true, if_false]

section Walk

variable {service : Service σ} {staged : Bool} {input : Option Json} {path : String} {offset : Nat}
  {w : World σ} {t : Tables}

theorem reaches_of_walk {n : Nat} {f : Fetched} {w' : World σ} (hw : w.database = .migrated t)
    (h : (c.walk service staged input path n offset).runIn w = (.ok f, w')) :
    ∃ visits, c.Walk service.Gives input path offset visits ∧ f = .ofVisits visits ∧
      w.Reaches w' (.migrated (c.tablesAfter (stagedUrl service) staged t visits))
        visits.length := by
  induction n generalizing offset f w t with
  | zero =>
    have hfail := congrArg Prod.fst h
    cases hfail
  | succ n ih =>
    rw [walk_succ] at h
    obtain ⟨page, u, hvisit, hrest⟩ := Action.runIn_bind_ok_iff.1 h
    obtain ⟨answer, hgives, hpage, hreach⟩ := c.reaches_of_visit hw hvisit
    cases hlast : c.isLast page with
    | true =>
      rw [hlast, if_pos rfl] at hrest
      obtain ⟨hf, rfl⟩ := Prod.mk.inj hrest
      cases hf
      refine ⟨_, Walk.last hgives hpage hlast, ?_, hreach⟩
      simp [Fetched.ofVisits]
    | false =>
      rw [hlast, if_neg Bool.false_ne_true] at hrest
      obtain ⟨rest, v, hwalk, hdone⟩ := Action.runIn_bind_ok_iff.1 hrest
      obtain ⟨hf, rfl⟩ := Prod.mk.inj hdone
      cases hf
      obtain ⟨visits, hvisits, rfl, hmore⟩ := ih hreach.database hwalk
      refine ⟨_, Walk.more hgives hpage hlast hvisits,
        (Fetched.ofVisits_cons ⟨input, _, page⟩ visits).symm, ?_⟩
      · have hboth := hreach.trans hmore
        rwa [← tablesAfter_append, List.singleton_append, Nat.add_comm] at hboth

theorem walk_of_fixed {answer : Request → Except Error Json} (hfixed : service.IsFixed answer)
    {visits : List Visit} (hwalk : c.Walk service.Gives input path offset visits) {n : Nat}
    (hn : visits.length ≤ n) (hw : w.database = .migrated t) (hbudget : visits.length ≤ w.budget)
    (hgoes : w.cancelled = false) :
    ∃ w', (c.walk service staged input path n offset).runIn w = (.ok (.ofVisits visits), w') ∧
      w.Reaches w' (.migrated (c.tablesAfter (stagedUrl service) staged t visits))
        visits.length ∧ w'.cancelled = false := by
  induction hwalk generalizing n w t with
  | @last offset j page hgives hpage hlast =>
    obtain ⟨m, rfl⟩ := Nat.exists_eq_add_of_le' hn
    obtain ⟨w', hvisit, hreach, hw'⟩ := c.visit_of_fixed staged input hfixed
      (hfixed.answer_eq hgives) hpage hw hbudget hgoes
    refine ⟨w', ?_, hreach, hw'⟩
    rw [List.length_singleton, walk_succ, Action.runIn_bind_of_ok hvisit, hlast, if_pos rfl]
    simp [Fetched.ofVisits]
  | @more offset j page visits hgives hpage hmore hrest ih =>
    obtain ⟨m, rfl⟩ := Nat.exists_eq_add_of_le' hn
    rw [List.length_cons] at hbudget
    obtain ⟨u, hvisit, hreach, hu⟩ := c.visit_of_fixed staged input hfixed
      (hfixed.answer_eq hgives) hpage hw (Nat.lt_of_lt_of_le (Nat.succ_pos _) hbudget) hgoes
    have hleft : visits.length ≤ u.budget := by
      have := hreach.budget
      omega
    obtain ⟨w', hwalk, hreach', hw'⟩ := ih (n := m + visits.length) (Nat.le_add_left _ _)
      hreach.database hleft hu
    refine ⟨w', ?_, ?_, hw'⟩
    · rw [List.length_cons, ← Nat.add_assoc, walk_succ, Action.runIn_bind_of_ok hvisit, hmore,
        if_neg Bool.false_ne_true, Action.runIn_bind_of_ok hwalk, Fetched.ofVisits_cons]
      rfl
    · have hboth := hreach.trans hreach'
      rwa [← tablesAfter_append, List.singleton_append, Nat.add_comm] at hboth

end Walk

section Gather

variable {service : Service σ} {staged : Bool} {w : World σ} {t : Tables}

theorem reaches_of_walkFor {input : Option Json} {f : Fetched} {w' : World σ}
    (hw : w.database = .migrated t)
    (h : (c.walkFor service staged input).runIn w = (.ok f, w')) :
    ∃ path visits, c.path.render c.scope input = .ok path ∧
      c.Walk service.Gives input path 0 visits ∧ f = .ofVisits visits ∧
      w.Reaches w' (.migrated (c.tablesAfter (stagedUrl service) staged t visits))
        visits.length := by
  rw [walkFor] at h
  obtain ⟨path, u, hpath, hrest⟩ := Action.runIn_bind_ok_iff.1 h
  obtain ⟨hok, rfl⟩ := Prod.mk.inj hpath
  rw [Action.runIn_bind_of_ok (Action.runIn_world _)] at hrest
  obtain ⟨visits, hwalk, hf, hreach⟩ := c.reaches_of_walk hw hrest
  exact ⟨path, visits, hok, hwalk, hf, hreach⟩

variable (staged) in
theorem walkFor_of_fixed {answer : Request → Except Error Json} (hfixed : service.IsFixed answer)
    {input : Option Json} {path : String} {visits : List Visit}
    (hpath : c.path.render c.scope input = .ok path)
    (hwalk : c.Walk service.Gives input path 0 visits) (hw : w.database = .migrated t)
    (hbudget : visits.length ≤ w.budget) (hgoes : w.cancelled = false) :
    ∃ w', (c.walkFor service staged input).runIn w = (.ok (.ofVisits visits), w') ∧
      w.Reaches w' (.migrated (c.tablesAfter (stagedUrl service) staged t visits))
        visits.length ∧ w'.cancelled = false := by
  rw [walkFor, hpath, Action.runIn_bind_of_ok (Action.runIn_ofExcept _ _),
    Action.runIn_bind_of_ok (Action.runIn_world _)]
  exact c.walk_of_fixed hfixed hwalk (Nat.le_succ_of_le hbudget) hw hbudget hgoes

theorem reaches_of_walkAll {inputs : List Json} {f : Fetched} {w' : World σ}
    (hw : w.database = .migrated t)
    (h : (c.walkAll service staged inputs).runIn w = (.ok f, w')) :
    ∃ visits, c.Walks service.Gives (inputs.map some) visits ∧ f = .ofVisits visits ∧
      w.Reaches w' (.migrated (c.tablesAfter (stagedUrl service) staged t visits))
        visits.length := by
  induction inputs generalizing f w t with
  | nil =>
    obtain ⟨hf, rfl⟩ := Prod.mk.inj h
    cases hf
    refine ⟨[], Walks.nil, rfl, ?_, rfl⟩
    rw [hw]
    cases staged <;> rfl
  | cons input inputs ih =>
    rw [walkAll] at h
    obtain ⟨first, u, hfirst, hrest⟩ := Action.runIn_bind_ok_iff.1 h
    obtain ⟨path, visits, hpath, hwalk, rfl, hreach⟩ := c.reaches_of_walkFor hw hfirst
    obtain ⟨rest, v, hall, hdone⟩ := Action.runIn_bind_ok_iff.1 hrest
    obtain ⟨hf, rfl⟩ := Prod.mk.inj hdone
    cases hf
    obtain ⟨more, hmore, rfl, hreach'⟩ := ih hreach.database hall
    refine ⟨visits ++ more, Walks.cons hpath hwalk hmore, Fetched.ofVisits_append visits more, ?_⟩
    rw [tablesAfter_append, List.length_append]
    exact hreach.trans hreach'

theorem walkAll_of_fixed {answer : Request → Except Error Json} (hfixed : service.IsFixed answer)
    {inputs : List Json} {visits : List Visit}
    (hwalks : c.Walks service.Gives (inputs.map some) visits) (hw : w.database = .migrated t)
    (hbudget : visits.length ≤ w.budget) (hgoes : w.cancelled = false) :
    ∃ w', (c.walkAll service staged inputs).runIn w = (.ok (.ofVisits visits), w') ∧
      w.Reaches w' (.migrated (c.tablesAfter (stagedUrl service) staged t visits))
        visits.length ∧ w'.cancelled = false := by
  induction inputs generalizing visits w t with
  | nil =>
    cases hwalks
    refine ⟨w, rfl, ⟨?_, rfl⟩, hgoes⟩
    rw [hw]
    cases staged <;> rfl
  | cons input inputs ih =>
    cases hwalks with
    | @cons _ path _ visits more hpath hwalk hrest =>
      rw [List.length_append] at hbudget
      obtain ⟨u, hfirst, hreach, hu⟩ := c.walkFor_of_fixed staged hfixed hpath hwalk hw
        (Nat.le_trans (Nat.le_add_right _ _) hbudget) hgoes
      have hleft : more.length ≤ u.budget := by
        have := hreach.budget
        omega
      obtain ⟨w', hall, hreach', hw'⟩ := ih hrest hreach.database hleft hu
      refine ⟨w', ?_, ?_, hw'⟩
      · rw [walkAll, Action.runIn_bind_of_ok hfirst, Action.runIn_bind_of_ok hall,
          ← Fetched.ofVisits_append]
        rfl
      · rw [tablesAfter_append, List.length_append]
        exact hreach.trans hreach'

theorem walks_singleton {gives : Request → Json → Prop} {input : Option Json}
    {visits : List Visit} :
    c.Walks gives [input] visits ↔
      ∃ path, c.path.render c.scope input = .ok path ∧ c.Walk gives input path 0 visits := by
  constructor
  · intro h
    cases h with
    | @cons _ path _ visits more hpath hwalk hrest =>
      cases hrest
      exact ⟨path, hpath, by rwa [List.append_nil]⟩
  · rintro ⟨path, hpath, hwalk⟩
    have h := Walks.cons hpath hwalk Walks.nil
    rwa [List.append_nil] at h

theorem reaches_of_gather {client : Client σ} (hclient : client.AnswersAtOnce) {f : Fetched}
    {w' : World σ} (hw : w.database = .migrated t)
    (h : (c.gather client staged).runIn w = (.ok f, w')) :
    ∃ visits, c.Walks client.Gives c.walkInputs visits ∧ f = .ofVisits visits ∧
      w.Reaches w' (.migrated (c.tablesAfter (stagedUrl client.toService) staged t visits))
        visits.length := by
  rw [c.gather_of_atOnce hclient] at h
  rw [walkInputs]
  cases hinputs : c.inputs with
  | none =>
    rw [hinputs] at h
    obtain ⟨path, visits, hpath, hwalk, hf, hreach⟩ := c.reaches_of_walkFor hw h
    exact ⟨visits, c.walks_singleton.2 ⟨path, hpath, hwalk⟩, hf, hreach⟩
  | some inputs =>
    rw [hinputs] at h
    exact c.reaches_of_walkAll hw h

variable (staged) in
theorem gather_of_fixed {answer : Request → Except Error Json} (hfixed : service.IsFixed answer)
    {visits : List Visit} (hwalks : c.Walks service.Gives c.walkInputs visits)
    (hw : w.database = .migrated t) (hbudget : visits.length ≤ w.budget)
    (hgoes : w.cancelled = false) :
    ∃ w', (c.gather service staged).runIn w = (.ok (.ofVisits visits), w') ∧
      w.Reaches w' (.migrated (c.tablesAfter (stagedUrl service) staged t visits))
        visits.length ∧ w'.cancelled = false := by
  rw [walkInputs] at hwalks
  rw [gather_client]
  cases hinputs : c.inputs with
  | none =>
    rw [hinputs] at hwalks
    obtain ⟨path, hpath, hwalk⟩ := c.walks_singleton.1 hwalks
    exact c.walkFor_of_fixed staged hfixed hpath hwalk hw hbudget hgoes
  | some inputs =>
    rw [hinputs] at hwalks
    exact c.walkAll_of_fixed hfixed hwalks hw hbudget hgoes

theorem runIn_clearStaged (hw : w.database = .migrated t) :
    (Action.update fun db => db.clearStaged c.table c.scope : Action σ Unit).runIn w =
      (.ok (), w.holding { t with staging := t.staging.delete c.table c.scope.tag }) := by
  rw [Action.runIn_update, hw]
  rfl

theorem reaches_of_execute {client : Client σ} (hclient : client.AnswersAtOnce)
    {stats : CollectStats} {w' : World σ} (hw : w.database = .migrated t)
    (h : (c.execute client).runIn w = (.ok stats, w')) :
    ∃ visits, c.Walks client.Gives c.walkInputs visits ∧
      stats = (Fetched.ofVisits visits).stats ∧
      w.Reaches w' (.migrated (t.collected c.table c.scope.tag
        (stagedUrl client.toService) visits)) visits.length := by
  rw [execute, Action.runIn_bind_of_ok (c.runIn_clearStaged hw)] at h
  obtain ⟨f, u, hgather, hdone⟩ := Action.runIn_bind_ok_iff.1 h
  obtain ⟨hstats, rfl⟩ := Prod.mk.inj hdone
  cases hstats
  obtain ⟨visits, hwalks, rfl, hreach⟩ := c.reaches_of_gather hclient rfl hgather
  exact ⟨visits, hwalks, rfl, hreach.database, hreach.budget⟩

theorem execute_of_fixed {answer : Request → Except Error Json} (hfixed : service.IsFixed answer)
    {visits : List Visit} (hwalks : c.Walks service.Gives c.walkInputs visits)
    (hw : w.database = .migrated t) (hbudget : visits.length ≤ w.budget)
    (hgoes : w.cancelled = false) :
    ∃ w', (c.execute service).runIn w = (.ok (Fetched.ofVisits visits).stats, w') ∧
      w.Reaches w' (.migrated (t.collected c.table c.scope.tag
        (stagedUrl service) visits)) visits.length ∧
      w'.cancelled = false := by
  obtain ⟨w', hgather, hreach, hw'⟩ := c.gather_of_fixed true
    (w := w.holding { t with staging := t.staging.delete c.table c.scope.tag })
    hfixed hwalks rfl hbudget hgoes
  refine ⟨w', ?_, ⟨hreach.database, hreach.budget⟩, hw'⟩
  rw [execute, Action.runIn_bind_of_ok (c.runIn_clearStaged hw), Action.runIn_bind_of_ok hgather]
  rfl

theorem reaches_of_fetchAll {client : Client σ} (hinputs : c.inputs = none) {records : List Json}
    {w' : World σ} (hw : w.database = .migrated t)
    (h : (c.fetchAll client).runIn w = (.ok records, w')) :
    ∃ visits, c.Walks client.Gives c.walkInputs visits ∧
      records = (Fetched.ofVisits visits).records ∧
      w.Reaches w' (.migrated t) visits.length := by
  rw [fetchAll, gather, hinputs] at h
  obtain ⟨f, u, hgather, hdone⟩ := Action.runIn_bind_ok_iff.1 h
  obtain ⟨hrecords, rfl⟩ := Prod.mk.inj hdone
  cases hrecords
  obtain ⟨path, visits, hpath, hwalk, rfl, hreach⟩ := c.reaches_of_walkFor hw hgather
  refine ⟨visits, ?_, rfl, hreach⟩
  rw [walkInputs, hinputs]
  exact c.walks_singleton.2 ⟨path, hpath, hwalk⟩

theorem fetchAll_of_fixed {answer : Request → Except Error Json} (hfixed : service.IsFixed answer)
    {visits : List Visit} (hwalks : c.Walks service.Gives c.walkInputs visits)
    (hw : w.database = .migrated t) (hbudget : visits.length ≤ w.budget)
    (hgoes : w.cancelled = false) :
    ∃ w', (c.fetchAll service).runIn w = (.ok (Fetched.ofVisits visits).records, w') ∧
      w.Reaches w' (.migrated t) visits.length ∧ w'.cancelled = false := by
  obtain ⟨w', hgather, hreach, hw'⟩ := c.gather_of_fixed false hfixed hwalks hw hbudget hgoes
  refine ⟨w', ?_, hreach, hw'⟩
  rw [fetchAll, Action.runIn_bind_of_ok hgather]
  rfl

end Gather

end Collector

end QaLake
