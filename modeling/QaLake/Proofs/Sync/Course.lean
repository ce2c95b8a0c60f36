import QaLake.Proofs.Sync.Walk

namespace QaLake

open Store

variable {σ : Type}

namespace World

def withDatabase (w : World σ) (db : Database) : World σ :=
  { w with database := db }

def reply (service : Service σ) (w : World σ) (request : Request) : Except Error Json :=
  ((Action.ask service request).runIn w).1

/-- The world behind some requests, whatever they were answered. -/
def asked (service : Service σ) (w : World σ) (requests : List Request) : World σ :=
  requests.foldl (fun w request => ((Action.ask service request).runIn w).2) w

variable (service : Service σ) (w : World σ)

theorem asked_cons (request : Request) (requests : List Request) :
    w.asked service (request :: requests) = (w.asked service [request]).asked service requests :=
  rfl

theorem asked_append (requests more : List Request) :
    w.asked service (requests ++ more) = (w.asked service requests).asked service more :=
  List.foldl_append

theorem calls_asked (requests : List Request) :
    (w.asked service requests).calls = w.calls ++ requests := by
  induction requests generalizing w with
  | nil => exact (List.append_nil w.calls).symm
  | cons request requests ih =>
    have hone : (w.asked service [request]).calls = w.calls ++ [request] := by
      obtain ⟨db, remote, calls, budget, cancelled⟩ := w
      cases budget <;> rfl
    rw [asked_cons, ih, hone, List.append_assoc, List.singleton_append]

theorem reply_withDatabase (db : Database) (request : Request) :
    (w.withDatabase db).reply service request = w.reply service request := by
  obtain ⟨db', remote, calls, budget, cancelled⟩ := w
  cases budget <;> rfl

theorem asked_withDatabase (db : Database) (requests : List Request) :
    (w.withDatabase db).asked service requests = (w.asked service requests).withDatabase db := by
  induction requests generalizing w with
  | nil => rfl
  | cons request requests ih =>
    have hone : (w.withDatabase db).asked service [request] =
        (w.asked service [request]).withDatabase db := by
      obtain ⟨db', remote, calls, budget, cancelled⟩ := w
      cases budget <;> rfl
    rw [asked_cons, hone, ih, ← asked_cons]

theorem runIn_ask (request : Request) :
    (Action.ask service request).runIn w = (w.reply service request, w.asked service [request]) :=
  rfl

variable {service w} in
theorem budget_asked {request : Request} {answer : Json}
    (h : w.reply service request = .ok answer) :
    (w.asked service [request]).budget + 1 = w.budget :=
  (Action.reaches_of_ask (Prod.ext h rfl)).2.budget

end World

/-- How a course ends: it is through, a request was refused or its answer has not the right form, or
no further request was made. -/
inductive Ending
  | through
  | refused (request : Request) (e : Error)
  | stopped (e : Error)

namespace Ending

def requests : Ending → List Request
  | through => []
  | refused request _ => [request]
  | stopped _ => []

def outcome {α : Type} (x : α) : Ending → Except Error α
  | through => .ok x
  | refused _ e => .error e
  | stopped e => .error e

theorem eq_through_of_outcome {ending : Ending} {α : Type} {x y : α}
    (h : ending.outcome x = .ok y) : ending = .through ∧ x = y := by
  cases ending with
  | through => exact ⟨rfl, Except.ok.inj h⟩
  | refused request e => cases h
  | stopped e => cases h

end Ending

def requestsOf (visits : List Visit) (ending : Ending) : List Request :=
  visits.map Visit.request ++ ending.requests

theorem requestsOf_cons (v : Visit) (visits : List Visit) (ending : Ending) :
    requestsOf (v :: visits) ending = v.request :: requestsOf visits ending :=
  rfl

theorem requestsOf_append (visits more : List Visit) (ending : Ending) :
    requestsOf (visits ++ more) ending =
      visits.map Visit.request ++ requestsOf more ending := by
  rw [requestsOf, requestsOf, List.map_append, List.append_assoc]

theorem requestsOf_drop {visits : List Visit} (ending : Ending) {k : Nat}
    (hk : k ≤ visits.length) :
    requestsOf (visits.drop k) ending = (requestsOf visits ending).drop k := by
  rw [requestsOf, requestsOf, List.map_drop,
    List.drop_append_of_le_length (by rwa [List.length_map])]

theorem requestsOf_through (visits : List Visit) :
    requestsOf visits .through = visits.map Visit.request :=
  List.append_nil _

namespace Collector

variable (c : Collector)

def pageIn (service : Service σ) (w : World σ) (request : Request) : Except Error Page :=
  w.reply service request >>= c.form.page

theorem pageIn_eq_ok {service : Service σ} {w : World σ} {request : Request} {page : Page} :
    c.pageIn service w request = .ok page ↔
      ∃ answer, w.reply service request = .ok answer ∧ c.form.page answer = .ok page := by
  rw [pageIn]
  cases w.reply service request with
  | error e => exact ⟨nofun, fun ⟨_, h, _⟩ => nomatch h⟩
  | ok answer =>
    refine ⟨fun h => ⟨answer, rfl, h⟩, ?_⟩
    rintro ⟨_, h, hpage⟩
    cases h
    exact hpage

theorem runIn_askPage (service : Service σ) (w : World σ) (request : Request) :
    (Action.ask service request >>= fun answer =>
        Action.ofExcept (c.form.page answer) : Action σ Page).runIn w =
      (c.pageIn service w request, w.asked service [request]) := by
  rw [Action.runIn_bind, World.runIn_ask, pageIn]
  cases w.reply service request <;> rfl

/-- The courses of a walk in a world from behind a number of records. -/
inductive Course (service : Service σ) (input : Option Json) (path : String) :
    World σ → Nat → List Visit → Ending → Prop
  | cancelled {w : World σ} {offset : Nat} (h : w.cancelled = true) :
      Course service input path w offset [] (.stopped .cancelled)
  | refused {w : World σ} {offset : Nat} {e : Error} (hgoes : w.cancelled = false)
      (hread : c.pageIn service w ⟨path, c.queryAt offset⟩ = .error e) :
      Course service input path w offset [] (.refused ⟨path, c.queryAt offset⟩ e)
  | last {w : World σ} {offset : Nat} {page : Page} (hgoes : w.cancelled = false)
      (hread : c.pageIn service w ⟨path, c.queryAt offset⟩ = .ok page)
      (hlast : c.isLast page = true) :
      Course service input path w offset [⟨input, ⟨path, c.queryAt offset⟩, page⟩] .through
  | more {w : World σ} {offset : Nat} {page : Page} {visits : List Visit} {ending : Ending}
      (hgoes : w.cancelled = false)
      (hread : c.pageIn service w ⟨path, c.queryAt offset⟩ = .ok page)
      (hmore : c.isLast page = false)
      (hrest : Course service input path (w.asked service [⟨path, c.queryAt offset⟩])
        (offset + page.records.length) visits ending) :
      Course service input path w offset (⟨input, ⟨path, c.queryAt offset⟩, page⟩ :: visits) ending

/-- The courses of the walks for some inputs, in their order. -/
inductive Courses (service : Service σ) :
    World σ → List (Option Json) → List Visit → Ending → Prop
  | nil {w : World σ} : Courses service w [] [] .through
  | pathless {w : World σ} {input : Option Json} {inputs : List (Option Json)} {e : Error}
      (hpath : c.path.render c.scope input = .error e) :
      Courses service w (input :: inputs) [] (.stopped e)
  | broken {w : World σ} {input : Option Json} {inputs : List (Option Json)} {path : String}
      {visits : List Visit} {ending : Ending} (hpath : c.path.render c.scope input = .ok path)
      (hcourse : c.Course service input path w 0 visits ending) (hending : ending ≠ .through) :
      Courses service w (input :: inputs) visits ending
  | more {w : World σ} {input : Option Json} {inputs : List (Option Json)} {path : String}
      {visits more : List Visit} {ending : Ending}
      (hpath : c.path.render c.scope input = .ok path)
      (hcourse : c.Course service input path w 0 visits .through)
      (hrest : Courses service (w.asked service (visits.map Visit.request)) inputs more ending) :
      Courses service w (input :: inputs) (visits ++ more) ending

section Course

variable {c} {service : Service σ} {input : Option Json} {path : String} {w : World σ}
  {offset : Nat} {visits : List Visit} {ending : Ending}

theorem Course.ne_nil (h : c.Course service input path w offset visits .through) :
    visits ≠ [] := by
  cases h <;> exact List.cons_ne_nil _ _

theorem Course.requestsOf_ne_nil_iff
    (h : c.Course service input path w offset visits ending) :
    requestsOf visits ending ≠ [] ↔ w.cancelled = false := by
  cases h with
  | cancelled hcancelled => simp [requestsOf, Ending.requests, hcancelled]
  | refused hgoes _ => simp [requestsOf, Ending.requests, hgoes]
  | last hgoes _ _ => simp [requestsOf, hgoes]
  | more hgoes _ _ _ => simp [requestsOf, hgoes]

theorem Course.drop (h : c.Course service input path w offset visits ending) (k : Nat)
    (hk : visits.drop k ≠ [] ∨ ending ≠ .through) :
    c.Course service input path (w.asked service ((visits.take k).map Visit.request))
      (offset + (Fetched.ofVisits (visits.take k)).records.length) (visits.drop k) ending := by
  induction h generalizing k with
  | cancelled hcancelled =>
    rw [List.take_nil, List.drop_nil]
    exact .cancelled hcancelled
  | refused hgoes hread =>
    rw [List.take_nil, List.drop_nil]
    exact .refused hgoes hread
  | last hgoes hread hlast =>
    cases k with
    | zero => exact .last hgoes hread hlast
    | succ k =>
      rw [List.drop_succ_cons, List.drop_nil] at hk
      exact absurd hk (not_or.2 ⟨fun hne => hne rfl, fun hne => hne rfl⟩)
  | @more w offset page visits ending hgoes hread hmore hrest ih =>
    cases k with
    | zero => exact .more hgoes hread hmore hrest
    | succ k =>
      have hlength : (Fetched.ofVisits ((⟨input, ⟨path, c.queryAt offset⟩, page⟩ :: visits).take
          (k + 1))).records.length = page.records.length +
            (Fetched.ofVisits (visits.take k)).records.length := by
        simp [Fetched.ofVisits]
      rw [hlength, ← Nat.add_assoc]
      exact ih k hk

theorem Course.ends_refused {request : Request} {e : Error}
    (h : c.Course service input path w offset visits (.refused request e)) :
    c.pageIn service (w.asked service (visits.map Visit.request)) request = .error e := by
  have hend := h.drop visits.length (.inr nofun)
  rw [List.drop_length, List.take_length] at hend
  cases hend with
  | refused _ hread => exact hread

theorem Course.ends_stopped {e : Error}
    (h : c.Course service input path w offset visits (.stopped e)) :
    e = .cancelled ∧ (w.asked service (visits.map Visit.request)).cancelled = true := by
  have hend := h.drop visits.length (.inr nofun)
  rw [List.drop_length, List.take_length] at hend
  cases hend with
  | cancelled hcancelled => exact ⟨rfl, hcancelled⟩

theorem Course.head_request (h : c.Course service input path w offset visits ending)
    {request : Request} (hrequest : (requestsOf visits ending).head? = some request) :
    request = ⟨path, c.queryAt offset⟩ := by
  cases h <;> cases hrequest <;> rfl

end Course

def databaseAfter (url : Request → String) (staged : Bool) (visits : List Visit) :
    Database → Database
  | .unmigrated => .unmigrated
  | .migrated t => .migrated (c.tablesAfter url staged t visits)

theorem databaseAfter_append (url : Request → String) (staged : Bool) (visits more : List Visit)
    (db : Database) :
    c.databaseAfter url staged (visits ++ more) db =
      c.databaseAfter url staged more (c.databaseAfter url staged visits db) := by
  cases db with
  | unmigrated => rfl
  | migrated t => rw [databaseAfter, tablesAfter_append]; rfl

theorem databaseAfter_nil (url : Request → String) (staged : Bool) (db : Database) :
    c.databaseAfter url staged [] db = db := by
  cases db with
  | unmigrated => rfl
  | migrated t => cases staged <;> rfl

theorem databaseAfter_unstaged (url : Request → String) (visits : List Visit) (db : Database) :
    c.databaseAfter url false visits db = db := by
  cases db <;> rfl

section Walk

variable {service : Service σ} {staged : Bool} {db : Database}
  (hdb : staged = false ∨ ∃ t, db = .migrated t)

theorem stages_databaseAfter (hdb : staged = false ∨ ∃ t, db = .migrated t)
    (url : Request → String) (visits : List Visit) :
    staged = false ∨ ∃ t, c.databaseAfter url staged visits db = .migrated t := by
  obtain hstaged | ⟨t, rfl⟩ := hdb
  · exact .inl hstaged
  · exact .inr ⟨_, rfl⟩

variable (service) in
theorem exists_course (input : Option Json) (path : String) (w : World σ) (offset : Nat) :
    ∃ visits ending, c.Course service input path w offset visits ending := by
  induction hn : w.budget using Nat.strongRecOn generalizing w offset with
  | ind n ih =>
    cases hgoes : w.cancelled with
    | true => exact ⟨[], _, .cancelled hgoes⟩
    | false =>
      cases hread : c.pageIn service w ⟨path, c.queryAt offset⟩ with
      | error e => exact ⟨[], _, .refused hgoes hread⟩
      | ok page =>
        cases hlast : c.isLast page with
        | true => exact ⟨_, _, .last hgoes hread hlast⟩
        | false =>
          obtain ⟨answer, hreply, -⟩ := c.pageIn_eq_ok.1 hread
          have hless : (w.asked service [⟨path, c.queryAt offset⟩]).budget < n :=
            hn ▸ Nat.lt_of_succ_le (Nat.le_of_eq (World.budget_asked hreply))
          obtain ⟨visits, ending, hrest⟩ := ih _ hless _ (offset + page.records.length) rfl
          exact ⟨_, ending, .more hgoes hread hlast hrest⟩

include hdb

theorem runIn_stage_withDatabase (input : Option Json) (request : Request) (page : Page)
    (w : World σ) :
    (if staged then c.stage service input request page else pure () : Action σ Unit).runIn
        (w.withDatabase db) =
      (.ok (), w.withDatabase
        (c.databaseAfter (stagedUrl service) staged [⟨input, request, page⟩] db)) := by
  obtain rfl | ⟨t, rfl⟩ := hdb
  · rw [databaseAfter_unstaged]
    rfl
  · exact c.runIn_stage_if request page rfl

theorem runIn_visit (service : Service σ) (input : Option Json) (path : String) (offset : Nat)
    {w : World σ} (hgoes : w.cancelled = false) :
    (c.visit service staged input path offset).runIn (w.withDatabase db) =
      match c.pageIn service w ⟨path, c.queryAt offset⟩ with
      | .error e => (.error e, (w.asked service [⟨path, c.queryAt offset⟩]).withDatabase db)
      | .ok page => (.ok page, (w.asked service [⟨path, c.queryAt offset⟩]).withDatabase
          (c.databaseAfter (stagedUrl service) staged
            [⟨input, ⟨path, c.queryAt offset⟩, page⟩] db)) := by
  let request : Request := ⟨path, c.queryAt offset⟩
  have hcheck : (Action.checkCancelled : Action σ Unit).runIn (w.withDatabase db) =
      (.ok (), w.withDatabase db) := Action.runIn_checkCancelled_ok.2 ⟨hgoes, rfl⟩
  have hpage := c.runIn_askPage service (w.withDatabase db) request
  rw [pageIn, World.reply_withDatabase, World.asked_withDatabase, ← pageIn] at hpage
  have hvisit : (c.visit service staged input path offset).runIn (w.withDatabase db) =
      ((Action.ask service request >>= fun answer => Action.ofExcept (c.form.page answer)) >>=
        fun page => do
          (if staged then c.stage service input request page else pure () : Action σ Unit)
          return page).runIn (w.withDatabase db) := by
    rw [visit, Action.runIn_bind_of_ok hcheck, bind_assoc]
  rw [hvisit, Action.runIn_bind, hpage]
  cases c.pageIn service w request with
  | error e => rfl
  | ok page => exact Action.runIn_bind_of_ok (c.runIn_stage_withDatabase hdb input request page _)

theorem runIn_walk {input : Option Json} {path : String} {offset : Nat} {w : World σ}
    {visits : List Visit} {ending : Ending}
    (hcourse : c.Course service input path w offset visits ending) {n : Nat} (hn : w.budget < n) :
    (c.walk service staged input path n offset).runIn (w.withDatabase db) =
      (ending.outcome (Fetched.ofVisits visits),
        (w.asked service (requestsOf visits ending)).withDatabase
          (c.databaseAfter (stagedUrl service) staged visits db)) := by
  induction hcourse generalizing n db with
  | @cancelled w offset hcancelled =>
    obtain ⟨m, rfl⟩ := Nat.exists_eq_add_of_lt hn
    have hcheck : (Action.checkCancelled : Action σ Unit).runIn (w.withDatabase db) =
        (.error .cancelled, w.withDatabase db) := by
      rw [Action.runIn_checkCancelled]
      exact if_pos hcancelled
    rw [databaseAfter_nil, walk_succ, visit, bind_assoc]
    exact Action.runIn_bind_of_error hcheck
  | @refused w offset e hgoes hread =>
    obtain ⟨m, rfl⟩ := Nat.exists_eq_add_of_lt hn
    have hvisit := c.runIn_visit hdb service input path offset hgoes
    rw [hread] at hvisit
    rw [walk_succ, Action.runIn_bind_of_error hvisit, databaseAfter_nil]
    rfl
  | @last w offset page hgoes hread hlast =>
    obtain ⟨m, rfl⟩ := Nat.exists_eq_add_of_lt hn
    have hvisit := c.runIn_visit hdb service input path offset hgoes
    rw [hread] at hvisit
    rw [walk_succ, Action.runIn_bind_of_ok hvisit, hlast, if_pos rfl]
    simp [Fetched.ofVisits, Ending.outcome, requestsOf, Ending.requests]
  | @more w offset page visits ending hgoes hread hmore hrest ih =>
    obtain ⟨m, rfl⟩ := Nat.exists_eq_add_of_lt hn
    have hvisit := c.runIn_visit hdb service input path offset hgoes
    rw [hread] at hvisit
    obtain ⟨answer, hreply, -⟩ := c.pageIn_eq_ok.1 hread
    have hbudget := World.budget_asked hreply
    have hwalk := ih (c.stages_databaseAfter hdb (stagedUrl service)
      [⟨input, ⟨path, c.queryAt offset⟩, page⟩]) (n := w.budget + m) (by omega)
    rw [walk_succ, Action.runIn_bind_of_ok hvisit, hmore, if_neg Bool.false_ne_true,
      Action.runIn_bind, hwalk, ← databaseAfter_append, requestsOf_cons, World.asked_cons]
    cases ending with
    | through => rw [Fetched.ofVisits_cons]; rfl
    | refused request e => rfl
    | stopped e => rfl

theorem runIn_walkFor {input : Option Json} {path : String} {w : World σ} {visits : List Visit}
    {ending : Ending} (hpath : c.path.render c.scope input = .ok path)
    (hcourse : c.Course service input path w 0 visits ending) :
    (c.walkFor service staged input).runIn (w.withDatabase db) =
      (ending.outcome (Fetched.ofVisits visits),
        (w.asked service (requestsOf visits ending)).withDatabase
          (c.databaseAfter (stagedUrl service) staged visits db)) := by
  rw [walkFor, hpath, Action.runIn_bind_of_ok (Action.runIn_ofExcept _ _),
    Action.runIn_bind_of_ok (Action.runIn_world _)]
  exact c.runIn_walk hdb hcourse (Nat.lt_succ_self _)

end Walk

section Walks

variable {service : Service σ} {staged : Bool} {db : Database} {w : World σ}

variable (service w) in
theorem exists_courses (inputs : List (Option Json)) :
    ∃ visits ending, c.Courses service w inputs visits ending := by
  induction inputs generalizing w with
  | nil => exact ⟨[], _, .nil⟩
  | cons input inputs ih =>
    cases hpath : c.path.render c.scope input with
    | error e => exact ⟨[], _, .pathless hpath⟩
    | ok path =>
      obtain ⟨visits, ending, hcourse⟩ := c.exists_course service input path w 0
      by_cases hending : ending = .through
      · subst hending
        obtain ⟨more, ending, hrest⟩ := ih (w.asked service (visits.map Visit.request))
        exact ⟨_, ending, .more hpath hcourse hrest⟩
      · exact ⟨visits, ending, .broken hpath hcourse hending⟩

theorem runIn_walkFor_of_pathless {input : Option Json} {e : Error}
    (hpath : c.path.render c.scope input = .error e) (w : World σ) :
    (c.walkFor service staged input).runIn w = (.error e, w) := by
  rw [walkFor, hpath]
  rfl

theorem runIn_walkAll (hdb : staged = false ∨ ∃ t, db = .migrated t) {inputs : List Json}
    {visits : List Visit} {ending : Ending}
    (hcourses : c.Courses service w (inputs.map some) visits ending) :
    (c.walkAll service staged inputs).runIn (w.withDatabase db) =
      (ending.outcome (Fetched.ofVisits visits),
        (w.asked service (requestsOf visits ending)).withDatabase
          (c.databaseAfter (stagedUrl service) staged visits db)) := by
  induction inputs generalizing w db visits ending with
  | nil =>
    cases hcourses
    rw [databaseAfter_nil]
    rfl
  | cons input inputs ih =>
    cases hcourses with
    | @pathless _ _ _ e hpath =>
      rw [walkAll, Action.runIn_bind_of_error (c.runIn_walkFor_of_pathless hpath _),
        databaseAfter_nil]
      rfl
    | @broken _ _ _ path _ _ hpath hcourse hending =>
      rw [walkAll, Action.runIn_bind, c.runIn_walkFor hdb hpath hcourse]
      cases ending with
      | through => exact absurd rfl hending
      | refused request e => rfl
      | stopped e => rfl
    | @more _ _ _ path visits more _ hpath hcourse hrest =>
      have hfirst := c.runIn_walkFor hdb hpath hcourse
      have hall := ih (c.stages_databaseAfter hdb (stagedUrl service) visits) hrest
      rw [requestsOf_through] at hfirst
      rw [walkAll, Action.runIn_bind_of_ok hfirst, Action.runIn_bind, hall, databaseAfter_append,
        requestsOf_append, World.asked_append]
      cases ending with
      | through =>
        rw [← Fetched.ofVisits_append]
        rfl
      | refused request e => rfl
      | stopped e => rfl

theorem runIn_gather (hdb : staged = false ∨ ∃ t, db = .migrated t) {visits : List Visit}
    {ending : Ending} (hcourses : c.Courses service w c.walkInputs visits ending) :
    (c.gather service staged).runIn (w.withDatabase db) =
      (ending.outcome (Fetched.ofVisits visits),
        (w.asked service (requestsOf visits ending)).withDatabase
          (c.databaseAfter (stagedUrl service) staged visits db)) := by
  rw [walkInputs] at hcourses
  rw [gather_client]
  cases hinputs : c.inputs with
  | some inputs =>
    rw [hinputs] at hcourses
    exact c.runIn_walkAll hdb hcourses
  | none =>
    rw [hinputs] at hcourses
    cases hcourses with
    | pathless hpath =>
      rw [databaseAfter_nil]
      exact c.runIn_walkFor_of_pathless hpath _
    | broken hpath hcourse _ => exact c.runIn_walkFor hdb hpath hcourse
    | more hpath hcourse hrest =>
      cases hrest
      rw [List.append_nil]
      exact c.runIn_walkFor hdb hpath hcourse

theorem runIn_execute {t : Tables} (hw : w.database = .migrated t) {visits : List Visit}
    {ending : Ending} (hcourses : c.Courses service w c.walkInputs visits ending) :
    (c.execute service).runIn w =
      (ending.outcome (Fetched.ofVisits visits).stats,
        (w.asked service (requestsOf visits ending)).withDatabase
          (.migrated (t.collected c.table c.scope.tag (stagedUrl service) visits))) := by
  let cleared : Database := .migrated { t with staging := t.staging.delete c.table c.scope.tag }
  have hmigrated : true = false ∨ ∃ t, cleared = .migrated t := .inr ⟨_, rfl⟩
  have hgather := c.runIn_gather hmigrated hcourses
  rw [execute, Action.runIn_bind_of_ok (c.runIn_clearStaged hw)]
  change (c.gather service true >>= _).runIn (w.withDatabase cleared) = _
  rw [Action.runIn_bind, hgather]
  cases ending <;> rfl

theorem runIn_fetchAll {visits : List Visit} {ending : Ending}
    (hcourses : c.Courses service w c.walkInputs visits ending) :
    (c.fetchAll service).runIn w =
      (ending.outcome (Fetched.ofVisits visits).records,
        (w.asked service (requestsOf visits ending)).withDatabase w.database) := by
  have hunstaged : false = false ∨ ∃ t, w.database = .migrated t := .inl rfl
  have hgather := c.runIn_gather hunstaged hcourses
  rw [databaseAfter_unstaged] at hgather
  change (c.gather service false >>= _).runIn (w.withDatabase w.database) = _
  rw [Action.runIn_bind, hgather]
  cases ending <;> rfl

variable {c} in
theorem Courses.goes_of_through {inputs : List (Option Json)} {visits : List Visit}
    (h : c.Courses service w inputs visits .through) : inputs = [] ∨ w.cancelled = false := by
  cases h with
  | nil => exact .inl rfl
  | broken _ _ hending => exact absurd rfl hending
  | more _ hcourse _ =>
    refine .inr (hcourse.requestsOf_ne_nil_iff.1 ?_)
    rw [requestsOf_through]
    exact mt List.map_eq_nil_iff.1 hcourse.ne_nil

variable {c} in
theorem Courses.exists_broken {inputs : List (Option Json)} {visits : List Visit} {ending : Ending}
    (h : c.Courses service w inputs visits ending) (hending : ending ≠ .through) :
    ∃ before input after done walked, inputs = before ++ input :: after ∧
      visits = done ++ walked ∧ c.Courses service w before done .through ∧
      ((∃ e, c.path.render c.scope input = .error e ∧ walked = [] ∧ ending = .stopped e) ∨
        ∃ path, c.path.render c.scope input = .ok path ∧
          c.Course service input path (w.asked service (done.map Visit.request)) 0 walked
            ending) := by
  induction h with
  | nil => exact absurd rfl hending
  | @pathless w input inputs e hpath =>
    exact ⟨[], input, inputs, [], [], rfl, rfl, .nil, .inl ⟨e, hpath, rfl, rfl⟩⟩
  | @broken w input inputs path visits ending hpath hcourse =>
    exact ⟨[], input, inputs, [], visits, rfl, rfl, .nil, .inr ⟨path, hpath, hcourse⟩⟩
  | @more w input inputs path visits more ending hpath hcourse hrest ih =>
    obtain ⟨before, input', after, done, walked, rfl, rfl, hdone, hbroken⟩ := ih hending
    rw [← World.asked_append, ← List.map_append] at hbroken
    exact ⟨input :: before, input', after, visits ++ done, walked, rfl,
      (List.append_assoc visits done walked).symm, .more hpath hcourse hdone, hbroken⟩

end Walks

end Collector

end QaLake
