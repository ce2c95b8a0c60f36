import Mathlib.Algebra.GroupWithZero.Nat
import Mathlib.Data.List.Forall2
import QaLake.Proofs.Sync.Walk
import QaLake.Proofs.Tool.Record

namespace QaLake

open Store

variable {σ : Type}

/-- Whether a list is made of others by taking, over and over, what comes first in one of them. -/
inductive Interleaves {α : Type} : List (List α) → List α → Prop
  | nil : Interleaves [] []
  | skip {before after : List (List α)} {rest : List α} (h : Interleaves (before ++ after) rest) :
      Interleaves (before ++ [] :: after) rest
  | take {before after : List (List α)} {l rest : List α} {a : α}
      (h : Interleaves (before ++ l :: after) rest) :
      Interleaves (before ++ (a :: l) :: after) (a :: rest)

namespace Interleaves

variable {α : Type} {lists : List (List α)} {list : List α}

theorem perm (h : Interleaves lists list) : list.Perm lists.flatten := by
  induction h with
  | nil => exact .refl _
  | skip _ ih => simpa using ih
  | take _ ih =>
    simp only [List.flatten_append, List.flatten_cons, List.cons_append] at ih ⊢
    exact (ih.cons _).trans List.perm_middle.symm

theorem filter_eq {p : α → Bool} (h : Interleaves lists list)
    (hone : lists.Pairwise fun as bs => ∀ a ∈ as, ∀ b ∈ bs, p a = true → p b = false) :
    list.filter p = lists.flatten.filter p := by
  induction h with
  | nil => rfl
  | @skip before after rest _ ih =>
    have hsub : (before ++ after).Sublist (before ++ [] :: after) :=
      (List.sublist_cons_self _ _).append_left _
    simpa using ih (hone.sublist hsub)
  | @take before after l rest a _ ih =>
    obtain ⟨hbefore, hrest, hacross⟩ := List.pairwise_append.1 hone
    obtain ⟨hfirst, hafter⟩ := List.pairwise_cons.1 hrest
    have hfewer := ih (List.pairwise_append.2 ⟨hbefore,
      List.pairwise_cons.2 ⟨fun bs hbs b hb => hfirst bs hbs b (List.mem_cons_of_mem _ hb), hafter⟩,
      fun as has => List.forall_mem_cons.2
        ⟨fun b hb c hc => hacross as has _ List.mem_cons_self b hb c (List.mem_cons_of_mem _ hc),
          fun bs hbs => hacross as has bs (List.mem_cons_of_mem _ hbs)⟩⟩)
    simp only [List.flatten_append, List.flatten_cons, List.filter_append] at hfewer ⊢
    cases ha : p a with
    | true =>
      have hnone : before.flatten.filter p = [] := by
        refine List.filter_eq_nil_iff.2 fun b hb hpb => ?_
        obtain ⟨as, has, hb⟩ := List.mem_flatten.1 hb
        rw [hacross as has _ List.mem_cons_self b hb a List.mem_cons_self hpb] at ha
        cases ha
      rw [hnone, List.nil_append] at hfewer ⊢
      rw [List.filter_cons_of_pos ha, List.filter_cons_of_pos ha, hfewer]
      rfl
    | false =>
      have hneg : ¬p a = true := by simp [ha]
      rw [List.filter_cons_of_neg hneg, List.filter_cons_of_neg hneg, hfewer]

end Interleaves

theorem Fetched.stats_of_perm {visits visits' : List Visit} (h : visits.Perm visits') :
    (ofVisits visits).stats = (ofVisits visits').stats := by
  have hrecords := (h.flatMap_right fun v => v.page.records).length_eq
  exact congrArg₂ CollectStats.mk h.length_eq hrecords

theorem exists_of_forall₂_append {α β : Type} {R : α → β → Prop} {as bs : List α} {cs : List β}
    (h : List.Forall₂ R (as ++ bs) cs) :
    ∃ xs ys, cs = xs ++ ys ∧ List.Forall₂ R as xs ∧ List.Forall₂ R bs ys := by
  induction as generalizing cs with
  | nil => exact ⟨[], cs, rfl, .nil, h⟩
  | cons a as ih =>
    obtain ⟨c, cs, hac, hrest, rfl⟩ := List.forall₂_cons_left_iff.1 h
    obtain ⟨xs, ys, rfl, hxs, hys⟩ := ih hrest
    exact ⟨c :: xs, ys, rfl, .cons hac hxs, hys⟩

namespace Collector

variable (c : Collector)

/-- A page that is taken in is one that the answer holds, and nothing but what is staged changes. -/
theorem settle_ok {service : Service σ} {staged : Bool} {p : Pending} {page : Page}
    {w v : World σ} {t : Tables} (hw : w.database = .migrated t)
    (h : (c.settle service staged p).runIn w = (.ok page, v)) :
    ∃ answer, p.answer = .ok answer ∧ c.form.page answer = .ok page ∧
      v = w.holding (c.tablesAfter (stagedUrl service) staged t [⟨p.input, p.request, page⟩]) := by
  rw [settle] at h
  obtain ⟨answer, u, hanswer, hrest⟩ := Action.runIn_bind_ok_iff.1 h
  obtain ⟨hheld, rfl⟩ := Prod.mk.inj hanswer
  obtain ⟨page', u', hpage, hstage⟩ := Action.runIn_bind_ok_iff.1 hrest
  obtain ⟨hread, rfl⟩ := Prod.mk.inj hpage
  refine ⟨answer, hheld, ?_⟩
  cases staged with
  | true =>
    simp only [if_true] at hstage
    rw [Action.runIn_bind_of_ok (c.runIn_stage p.input p.request page' hw)] at hstage
    obtain ⟨hsame, rfl⟩ := Prod.mk.inj hstage
    cases hsame
    exact ⟨hread, rfl⟩
  | false =>
    obtain ⟨hsame, rfl⟩ := Prod.mk.inj hstage
    cases hsame
    refine ⟨hread, ?_⟩
    obtain ⟨db, remote, calls, budget, cancelled⟩ := w
    cases hw
    rfl

variable {c} {client : Client σ} {staged : Bool}

/-- What a fan-out that succeeds does from some turn on: the rests of the walks that wait, the walks
for the inputs that are left, and the visits of all of them as they follow each other. -/
structure Flown (c : Collector) (client : Client σ) (staged : Bool) (inputs : List Json)
    (waiting : List Waiting) (w : World σ) (t : Tables) (f : Fetched) (w' : World σ)
    (rests others : List (List Visit)) (visits : List Visit) : Prop where
  waited : List.Forall₂ (fun (p : Waiting) l => c.Walk client.Gives p.input p.path p.offset l)
    waiting rests
  started : List.Forall₂ (c.Fetches client.Gives) inputs others
  answered : ∀ p ∈ waiting, ∃ j, p.answer = .ok j
  interleaves : Interleaves (rests ++ others) visits
  requests : f.requests = (waiting.map (·.fetched.requests)).sum + visits.length
  records : f.records.length = (waiting.map (·.fetched.records.length)).sum +
    (visits.flatMap (·.page.records)).length
  database : w'.database = .migrated (c.tablesAfter (stagedUrl client.toService) staged t visits)
  budget : w'.budget + visits.length = w.budget + waiting.length

section Turns

variable {inputs : List Json} {waiting : List Waiting} {f : Fetched} {w v w' : World σ} {t : Tables}
  {rests others : List (List Visit)} {visits : List Visit}

theorem Flown.start {input : Json} {path : String} {p : Pending}
    (hpath : c.path.render c.scope (some input) = .ok path)
    (hsend : (c.send client.toService (some input) path 0).runIn w = (.ok p, v))
    (h : c.Flown client staged inputs (waiting ++ [⟨p, ∅⟩]) v t f w' rests others visits) :
    ∃ rests others,
      c.Flown client staged (input :: inputs) waiting w t f w' rests others visits := by
  obtain ⟨hinput, hpathp, hoffset, -, -, hleft⟩ := c.send_ok hsend
  obtain ⟨xs, ys, rfl, hxs, hys⟩ := exists_of_forall₂_append h.waited
  obtain ⟨l, zs, hwalk, hnil, rfl⟩ := List.forall₂_cons_left_iff.1 hys
  cases hnil
  obtain ⟨j, hj⟩ := h.answered ⟨p, ∅⟩ (by simp)
  refine ⟨xs, l :: others, hxs, .cons ⟨path, hpath, ?_⟩ h.started,
    fun q hq => h.answered q (List.mem_append_left _ hq), ?_, ?_, ?_, h.database, ?_⟩
  · rw [← hinput, ← hpathp, ← hoffset]
    exact hwalk
  · simpa using h.interleaves
  · simpa using h.requests
  · simpa using h.records
  · have hbudget := h.budget
    rw [List.length_append, List.length_singleton] at hbudget
    obtain hleft | ⟨-, e, he⟩ := hleft
    · omega
    · rw [hj] at he
      cases he

variable {before after : List Waiting} {p : Waiting} {page : Page}

theorem Flown.last (hsent : c.Sent client.toService p.toPending) (hw : w.database = .migrated t)
    (hsettle : (c.settle client.toService staged p.toPending).runIn w = (.ok page, v))
    (hlast : c.isLast page = true)
    (h : c.Flown client staged inputs (before ++ after) v
      (c.tablesAfter (stagedUrl client.toService) staged t [⟨p.input, p.request, page⟩]) f w'
      rests others visits) :
    ∃ rests, c.Flown client staged inputs (before ++ p :: after) w t
      (p.fetched ++ ⟨1, page.records⟩ ++ f) w' rests others
      (⟨p.input, p.request, page⟩ :: visits) := by
  obtain ⟨answer, hanswer, hpage, rfl⟩ := c.settle_ok hw hsettle
  obtain ⟨xs, ys, rfl, hxs, hys⟩ := exists_of_forall₂_append h.waited
  have hwalk : c.Walk client.Gives p.input p.path p.offset [⟨p.input, p.request, page⟩] := by
    rw [hsent.request]
    exact .last (hsent.request ▸ hsent.gives answer hanswer) hpage hlast
  refine ⟨xs ++ [⟨p.input, p.request, page⟩] :: ys, List.rel_append hxs (.cons hwalk hys),
    h.started, ?_, ?_, ?_, ?_, ?_, ?_⟩
  · intro q hq
    obtain hq | rfl | hq := by simpa using hq
    · exact h.answered q (List.mem_append_left _ hq)
    · exact ⟨answer, hanswer⟩
    · exact h.answered q (List.mem_append_right _ hq)
  · have hrest := h.interleaves
    rw [List.append_assoc] at hrest ⊢
    exact hrest.skip.take
  · have hrequests := h.requests
    simp only [List.map_append, List.map_cons, List.sum_append, List.sum_cons, List.length_cons,
      Fetched.requests_append] at hrequests ⊢
    omega
  · have hrecords := h.records
    simp only [List.map_append, List.map_cons, List.sum_append, List.sum_cons, List.length_append,
      List.flatMap_cons, Fetched.records_append] at hrecords ⊢
    omega
  · rw [h.database, ← tablesAfter_append, List.singleton_append]
  · have hbudget := h.budget
    simp only [List.length_append, List.length_cons] at hbudget ⊢
    have hsame : (w.holding (c.tablesAfter (stagedUrl client.toService) staged t
      [⟨p.input, p.request, page⟩])).budget = w.budget := rfl
    omega

theorem Flown.more (hsent : c.Sent client.toService p.toPending) (hw : w.database = .migrated t)
    {u : World σ} {q : Pending}
    (hsettle : (c.settle client.toService staged p.toPending).runIn w = (.ok page, v))
    (hmore : c.isLast page = false)
    (hsend : (c.send client.toService p.input p.path (p.offset + page.records.length)).runIn v =
      (.ok q, u))
    (h : c.Flown client staged inputs (before ++ ⟨q, p.fetched ++ ⟨1, page.records⟩⟩ :: after) u
      (c.tablesAfter (stagedUrl client.toService) staged t [⟨p.input, p.request, page⟩]) f w'
      rests others visits) :
    ∃ rests, c.Flown client staged inputs (before ++ p :: after) w t f w' rests others
      (⟨p.input, p.request, page⟩ :: visits) := by
  obtain ⟨answer, hanswer, hpage, rfl⟩ := c.settle_ok hw hsettle
  obtain ⟨hinput, hpath, hoffset, -, -, hleft⟩ := c.send_ok hsend
  obtain ⟨xs, zs, rfl, hxs, hzs⟩ := exists_of_forall₂_append h.waited
  obtain ⟨l, ys, hrest, hys, rfl⟩ := List.forall₂_cons_left_iff.1 hzs
  simp only [hinput, hpath, hoffset] at hrest
  have hwalk : c.Walk client.Gives p.input p.path p.offset (⟨p.input, p.request, page⟩ :: l) := by
    rw [hsent.request]
    exact .more (hsent.request ▸ hsent.gives answer hanswer) hpage hmore hrest
  obtain ⟨j, hj⟩ := h.answered _ (List.mem_append_right _ List.mem_cons_self)
  refine ⟨xs ++ (⟨p.input, p.request, page⟩ :: l) :: ys, List.rel_append hxs (.cons hwalk hys),
    h.started, ?_, ?_, ?_, ?_, ?_, ?_⟩
  · intro r hr
    obtain hr | rfl | hr := by simpa using hr
    · exact h.answered r (List.mem_append_left _ hr)
    · exact ⟨answer, hanswer⟩
    · exact h.answered r (List.mem_append_right _ (List.mem_cons_of_mem _ hr))
  · have hrest := h.interleaves
    rw [List.append_assoc, List.cons_append] at hrest ⊢
    exact hrest.take
  · have hrequests := h.requests
    simp only [List.map_append, List.map_cons, List.sum_append, List.sum_cons, List.length_cons,
      Fetched.requests_append] at hrequests ⊢
    omega
  · have hrecords := h.records
    simp only [List.map_append, List.map_cons, List.sum_append, List.sum_cons, List.length_append,
      List.flatMap_cons, Fetched.records_append] at hrecords ⊢
    omega
  · rw [h.database, ← tablesAfter_append, List.singleton_append]
  · have hbudget := h.budget
    simp only [List.length_append, List.length_cons] at hbudget ⊢
    obtain hleft | ⟨-, e, he⟩ := hleft
    · have hsame : (w.holding (c.tablesAfter (stagedUrl client.toService) staged t
        [⟨p.input, p.request, page⟩])).budget = w.budget := rfl
      omega
    · rw [hj] at he
      cases he

end Turns

theorem exists_flown {n : Nat} {inputs : List Json} {waiting : List Waiting} {f : Fetched}
    {w w' : World σ} {t : Tables} (hw : w.database = .migrated t)
    (hsent : ∀ p ∈ waiting, c.Sent client.toService p.toPending)
    (h : (c.fanOut client staged n inputs waiting).runIn w = (.ok f, w')) :
    ∃ rests others visits,
      c.Flown client staged inputs waiting w t f w' rests others visits := by
  induction n generalizing inputs waiting f w t with
  | zero =>
    have hfail := congrArg Prod.fst h
    cases hfail
  | succ n ih =>
    rw [fanOut, Action.runIn_bind_of_ok (Action.runIn_world w)] at h
    obtain ⟨input, rest, hturn, rfl, -⟩ | ⟨before, p, after, hturn, rfl⟩ | ⟨hturn, rfl, rfl⟩ :=
      c.turn_cases (client.arrived w.remote (waiting.map (·.request))) inputs waiting
    · simp only [hturn] at h
      obtain ⟨path, u, hpath, hrest⟩ := Action.runIn_bind_ok_iff.1 h
      obtain ⟨hok, rfl⟩ := Prod.mk.inj hpath
      obtain ⟨p, v, hsend, hrest⟩ := Action.runIn_bind_ok_iff.1 hrest
      obtain ⟨-, -, -, hp, hdb, -⟩ := c.send_ok hsend
      have hboth : ∀ q ∈ waiting ++ [⟨p, ∅⟩], c.Sent client.toService q.toPending :=
        List.forall_mem_append.2 ⟨hsent, List.forall_mem_singleton.2 hp⟩
      obtain ⟨rests, others, visits, hflown⟩ := ih (hdb.trans hw) hboth hrest
      obtain ⟨rests, others, hflown⟩ := hflown.start hok hsend
      exact ⟨rests, others, visits, hflown⟩
    · simp only [hturn] at h
      obtain ⟨page, v, hsettle, hrest⟩ := Action.runIn_bind_ok_iff.1 h
      obtain ⟨hbefore, hp, hafter⟩ := List.forall_mem_append.1 hsent |>.imp_right
        List.forall_mem_cons.1
      have hv : v.database = .migrated (c.tablesAfter (stagedUrl client.toService) staged t
          [⟨p.input, p.request, page⟩]) := by
        obtain ⟨answer, -, -, rfl⟩ := c.settle_ok hw hsettle
        rfl
      cases hlast : c.isLast page with
      | true =>
        simp only [hlast, if_true] at hrest
        obtain ⟨rest, u, hothers, hdone⟩ := Action.runIn_bind_ok_iff.1 hrest
        obtain ⟨hf, rfl⟩ := Prod.mk.inj hdone
        cases hf
        obtain ⟨rests, others, visits, hflown⟩ :=
          ih hv (List.forall_mem_append.2 ⟨hbefore, hafter⟩) hothers
        obtain ⟨rests, hflown⟩ := hflown.last hp hw hsettle hlast
        exact ⟨rests, others, _, hflown⟩
      | false =>
        simp only [hlast, Bool.false_eq_true, if_false] at hrest
        obtain ⟨q, u, hsend, hrest⟩ := Action.runIn_bind_ok_iff.1 hrest
        obtain ⟨-, -, -, hq, hdb, -⟩ := c.send_ok hsend
        obtain ⟨rests, others, visits, hflown⟩ := ih (hdb.trans hv)
          (List.forall_mem_append.2 ⟨hbefore, List.forall_mem_cons.2 ⟨hq, hafter⟩⟩) hrest
        obtain ⟨rests, hflown⟩ := hflown.more hp hw hsettle hlast hsend
        exact ⟨rests, others, _, hflown⟩
    · simp only [hturn] at h
      obtain ⟨hf, rfl⟩ := Prod.mk.inj h
      cases hf
      refine ⟨[], [], [], .nil, .nil, List.forall_mem_nil _, .nil, rfl, rfl, ?_, rfl⟩
      rw [hw]
      cases staged <;> rfl

theorem walks_of_forall₂ {gives : Request → Json → Prop} {inputs : List Json}
    {lists : List (List Visit)} (h : List.Forall₂ (c.Fetches gives) inputs lists) :
    c.Walks gives (inputs.map some) lists.flatten := by
  induction h with
  | nil => exact .nil
  | cons hfirst _ ih =>
    obtain ⟨path, hpath, hwalk⟩ := hfirst
    exact .cons hpath hwalk ih

theorem exists_interleaves_of_execute {inputs : List Json} (hinputs : c.inputs = some inputs)
    {w w' : World σ} {t : Tables} (hw : w.database = .migrated t) {stats : CollectStats}
    (h : (c.execute client).runIn w = (.ok stats, w')) :
    ∃ lists visits, List.Forall₂ (c.Fetches client.Gives) inputs lists ∧
      Interleaves lists visits ∧ stats = (Fetched.ofVisits visits).stats ∧
      w.Reaches w' (.migrated (t.collected c.table c.scope.tag
        (stagedUrl client.toService) visits)) visits.length := by
  rw [execute, Action.runIn_bind_of_ok (c.runIn_clearStaged hw), gather, hinputs] at h
  obtain ⟨f, u, hgather, hdone⟩ := Action.runIn_bind_ok_iff.1 h
  obtain ⟨hstats, rfl⟩ := Prod.mk.inj hdone
  cases hstats
  rw [Action.runIn_bind_of_ok (Action.runIn_world _)] at hgather
  have hnone : ∀ p ∈ ([] : List Waiting), c.Sent client.toService p.toPending :=
    List.forall_mem_nil _
  obtain ⟨rests, lists, visits, hflown⟩ := exists_flown rfl hnone hgather
  have hrests : rests = [] := List.forall₂_nil_left_iff.1 hflown.waited
  subst hrests
  refine ⟨lists, visits, hflown.started, hflown.interleaves, ?_, hflown.database, ?_⟩
  · have hrequests := hflown.requests
    have hrecords := hflown.records
    simp only [List.map_nil, List.sum_nil, Nat.zero_add] at hrequests hrecords
    exact congrArg₂ CollectStats.mk hrequests hrecords
  · exact hflown.budget

theorem filter_entries (url : Request → String) (x : Option Cell) (visits : List Visit) :
    (visits.flatMap (Visit.entries url)).filter (fun a => a.input = x) =
      (visits.filter fun v => v.input.map (fun j => Cell.ofText j.text) = x).flatMap
        (Visit.entries url) := by
  induction visits with
  | nil => rfl
  | cons v visits ih =>
    have hinput : ∀ a ∈ v.entries url, a.input = v.input.map fun j => Cell.ofText j.text := by
      intro a ha
      obtain ⟨record, -, rfl⟩ := List.mem_map.1 ha
      rfl
    rw [List.flatMap_cons, List.filter_append, ih]
    by_cases hx : v.input.map (fun j => Cell.ofText j.text) = x
    · rw [List.filter_eq_self.2 (fun a ha => by simpa [hinput a ha] using hx),
        List.filter_cons_of_pos (by simpa using hx), List.flatMap_cons]
    · rw [List.filter_eq_nil_iff.2 (fun a ha => by simpa [hinput a ha] using hx),
        List.filter_cons_of_neg (by simpa using hx), List.nil_append]

/-- Where every input is given once, no cell is that of the visits for two of them. -/
theorem pairwise_of_nodup {gives : Request → Json → Prop} {inputs : List Json}
    {lists : List (List Visit)} (h : List.Forall₂ (c.Fetches gives) inputs lists)
    (hnodup : (inputs.map fun i => Cell.ofText i.text).Nodup) (x : Option Cell) :
    lists.Pairwise fun as bs => ∀ a ∈ as, ∀ b ∈ bs,
      decide (a.input.map (fun j => Cell.ofText j.text) = x) = true →
        decide (b.input.map (fun j => Cell.ofText j.text) = x) = false := by
  induction h with
  | nil => exact .nil
  | @cons input visits inputs lists hfirst hrest ih =>
    obtain ⟨hnew, hnodup⟩ := List.nodup_cons.1 hnodup
    refine List.pairwise_cons.2 ⟨fun bs hbs a ha b hb hax => ?_, ih hnodup⟩
    obtain ⟨other, hother, hfetches⟩ := Tool.exists_mem_of_forall₂ hrest hbs
    obtain ⟨_, -, hwalk⟩ := hfirst
    obtain ⟨_, -, hwalk'⟩ := hfetches
    have hx := of_decide_eq_true hax
    rw [hwalk.input_eq a ha] at hx
    rw [hwalk'.input_eq b hb, ← hx]
    refine decide_eq_false fun hsame => hnew ?_
    rw [← Option.some.inj hsame]
    exact List.mem_map_of_mem hother

/-- Where answers do not change, a fan-out that succeeds stages what it would if every answer came
at once, however many walks are under way and whichever answer comes first. Only the order may
differ, and not that of the records of one input, unless it is given twice. -/
theorem execute_in_flight {answer : Request → Except Error Json} (hfixed : client.IsFixed answer)
    {inputs : List Json} (hinputs : c.inputs = some inputs) {w v : World σ} {t : Tables}
    (hw : w.database = .migrated t) (hgoes : w.cancelled = false) {stats : CollectStats}
    (h : (c.execute client).runIn w = (.ok stats, v)) :
    ∃ v' u u', (c.execute client.toService).runIn w = (.ok stats, v') ∧
      v.database = .migrated u ∧ v'.database = .migrated u' ∧
      (u.staging.contents c.table c.scope.tag).Perm (u'.staging.contents c.table c.scope.tag) ∧
      ((inputs.map fun i => Cell.ofText i.text).Nodup → ∀ x,
        (u.staging.contents c.table c.scope.tag).filter (fun a => a.input = x) =
          (u'.staging.contents c.table c.scope.tag).filter fun a => a.input = x) := by
  obtain ⟨lists, visits, hlists, hinterleaves, rfl, hreach⟩ :=
    exists_interleaves_of_execute hinputs hw h
  have hperm := hinterleaves.perm
  have hwalks : c.Walks client.Gives c.walkInputs lists.flatten := by
    rw [walkInputs, hinputs]
    exact walks_of_forall₂ hlists
  have hbudget : lists.flatten.length ≤ w.budget := by
    have := hreach.budget
    rw [← hperm.length_eq]
    omega
  obtain ⟨v', hexecute, hreach', -⟩ := c.execute_of_fixed hfixed hwalks hw hbudget hgoes
  have hcontents : ∀ visits, (t.collected c.table c.scope.tag (stagedUrl client.toService)
      visits).staging.contents c.table c.scope.tag =
        visits.flatMap (Visit.entries (stagedUrl client.toService)) := by
    intro visits
    rw [Tables.collected, Staging.contents_stageVisits, Staging.contents_delete, List.nil_append]
  refine ⟨v', _, _, ?_, hreach.database, hreach'.database, ?_, fun hnodup x => ?_⟩
  · rw [hexecute, Fetched.stats_of_perm hperm]
  · rw [hcontents, hcontents]
    exact hperm.flatMap_right _
  · rw [hcontents, hcontents, filter_entries, filter_entries,
      hinterleaves.filter_eq (pairwise_of_nodup hlists hnodup x)]

/-- A client that has no answer while one request is under way, and of two answers the later one
first. -/
def laterFirst : Client Unit where
  url := id
  exchange _ _ := (⟨.ok (.arr [.obj []]), false⟩, ())
  arrived _ requests := if requests.length = 2 then some 1 else none

def overTwo (concurrency : Nat) : Collector where
  table := "testrail_cases"
  scope := ⟨1, 7⟩
  path := ⟨"get_cases/\x7binput.id\x7d"⟩
  pageSize := none
  query := []
  inputs := some [.obj [("id", .str "a")], .obj [("id", .str "b")]]
  form := .listUnder "cases"
  concurrency := concurrency

def stagedFrom (concurrency : Nat) : List String :=
  (((overTwo concurrency).execute laterFirst).runIn
    ⟨.migrated .empty, (), [], 10, false⟩).2.database.tables.toOption.elim [] fun t =>
      (t.staging.contents "testrail_cases" (RunScope.tag ⟨1, 7⟩)).map Entry.url

example : stagedFrom 1 = ["get_cases/a", "get_cases/b"] ∧
    stagedFrom 2 = ["get_cases/b", "get_cases/a"] := by
  decide +kernel

end Collector

/-- Whether what a collector stages through a client are the visits of its walks, up to an order. -/
def Client.Arranges (client : Client σ) (order : List Visit → List Visit → Prop) : Prop :=
  ∀ (c : Collector) (t : Tables) (w w' : World σ) (stats : CollectStats),
    w.database = .migrated t → (c.execute client).runIn w = (.ok stats, w') →
    ∃ walked visits, c.Walks client.Gives c.walkInputs walked ∧ order walked visits ∧
      stats = (Fetched.ofVisits visits).stats ∧
      w.Reaches w' (.migrated (t.collected c.table c.scope.tag
        (Collector.stagedUrl client.toService) visits)) visits.length

theorem Client.AnswersAtOnce.arranges {client : Client σ} (h : client.AnswersAtOnce) :
    client.Arranges Eq := by
  intro c t w w' stats hw hexecute
  obtain ⟨visits, hwalks, hstats, hreach⟩ := c.reaches_of_execute h hw hexecute
  exact ⟨visits, visits, hwalks, rfl, hstats, hreach⟩

theorem Client.arranges (client : Client σ) : client.Arranges List.Perm := by
  intro c t w w' stats hw hexecute
  cases hinputs : c.inputs with
  | none =>
    -- A single walk does not depend on when its answers arrive.
    have hsame : c.execute client = c.execute client.toService := by
      rw [Collector.execute, Collector.execute, Collector.gather, Collector.gather, hinputs]
      rfl
    rw [hsame] at hexecute
    obtain ⟨visits, hwalks, hstats, hreach⟩ :=
      c.reaches_of_execute client.toService.answersAtOnce_client hw hexecute
    exact ⟨visits, visits, hwalks, .refl _, hstats, hreach⟩
  | some inputs =>
    obtain ⟨lists, visits, hlists, hinterleaves, hstats, hreach⟩ :=
      Collector.exists_interleaves_of_execute hinputs hw hexecute
    refine ⟨lists.flatten, visits, ?_, hinterleaves.perm.symm, hstats, hreach⟩
    rw [Collector.walkInputs, hinputs]
    exact Collector.walks_of_forall₂ hlists

end QaLake
