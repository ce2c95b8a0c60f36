import QaLake.Proofs.Store.Contents
import QaLake.Proofs.Sync.Action
import QaLake.Sync.Collector

namespace QaLake

open Store

variable {σ : Type}

/-- Whether a service gives an answer to a request in some state. -/
def Service.Gives (service : Service σ) (request : Request) (answer : Json) : Prop :=
  ∃ s, (service.exchange s request).1.answer = .ok answer

/-- Whether a service always has the same answer to a request and never stops a run. -/
def Service.IsFixed (service : Service σ) (answer : Request → Except Error Json) : Prop :=
  ∀ s request, (service.exchange s request).1 = ⟨answer request, false⟩

theorem Service.IsFixed.answer_eq {service : Service σ} {answer : Request → Except Error Json}
    (h : service.IsFixed answer) {request : Request} {j : Json} (hj : service.Gives request j) :
    answer request = .ok j := by
  obtain ⟨s, hs⟩ := hj
  rwa [h s request] at hs

/-- A world with a database, some requests after another world. -/
structure World.Reaches (w w' : World σ) (db : Database) (requests : Nat) : Prop where
  database : w'.database = db
  budget : w'.budget + requests = w.budget

def World.holding (w : World σ) (t : Tables) : World σ :=
  { w with database := .migrated t }

theorem World.Reaches.trans {u v w : World σ} {db db' : Database} {m n : Nat}
    (h : u.Reaches v db m) (h' : v.Reaches w db' n) : u.Reaches w db' (m + n) := by
  refine ⟨h'.database, ?_⟩
  have hm := h.budget
  have hn := h'.budget
  omega

theorem Action.reaches_of_ask {service : Service σ} {request : Request} {w w' : World σ} {j : Json}
    (h : (Action.ask service request).runIn w = (.ok j, w')) :
    service.Gives request j ∧ w.Reaches w' w.database 1 := by
  obtain ⟨db, remote, calls, budget, cancelled⟩ := w
  cases budget with
  | zero =>
    have hfail := congrArg Prod.fst h
    cases hfail
  | succ n =>
    obtain ⟨hanswer, rfl⟩ := Prod.mk.inj h
    exact ⟨⟨remote, hanswer⟩, rfl, rfl⟩

theorem Action.ask_of_fixed {service : Service σ} {answer : Request → Except Error Json}
    (hfixed : service.IsFixed answer) {request : Request} {j : Json}
    (hj : answer request = .ok j) {w : World σ} (hbudget : 0 < w.budget)
    (hw : w.cancelled = false) :
    ∃ w', (Action.ask service request).runIn w = (.ok j, w') ∧ w.Reaches w' w.database 1 ∧
      w'.cancelled = false := by
  obtain ⟨db, remote, calls, budget, cancelled⟩ := w
  cases budget with
  | zero => exact absurd hbudget (Nat.lt_irrefl 0)
  | succ n =>
    have hexchange := hfixed remote request
    refine ⟨_, Prod.ext ?_ rfl, ⟨rfl, rfl⟩, ?_⟩
    · change (service.exchange remote request).1.answer = _
      rw [hexchange, hj]
    · change (cancelled || (service.exchange remote request).1.cancels) = false
      rw [hexchange]
      simpa using hw

/-- A request for an input, and the page it was answered with. -/
structure Visit where
  input : Option Json
  request : Request
  page : Page

def Visit.entries (url : Request → String) (v : Visit) : List Entry :=
  v.page.records.map (Entry.ofRecord (url v.request) v.input)

def Fetched.ofVisits (visits : List Visit) : Fetched :=
  ⟨visits.length, visits.flatMap fun v => v.page.records⟩

theorem Fetched.ofVisits_cons (v : Visit) (visits : List Visit) :
    Fetched.ofVisits (v :: visits) = ⟨1, v.page.records⟩ ++ Fetched.ofVisits visits := by
  change _ = Fetched.append _ _
  simp [Fetched.append, Fetched.ofVisits, Nat.add_comm]

theorem Fetched.ofVisits_append (visits more : List Visit) :
    Fetched.ofVisits visits ++ Fetched.ofVisits more = Fetched.ofVisits (visits ++ more) := by
  change Fetched.append _ _ = _
  simp [Fetched.append, Fetched.ofVisits]

namespace Store.Staging

def stageVisits (s : Staging) (table tag : String) (url : Request → String)
    (visits : List Visit) : Staging :=
  visits.foldl (fun s v => s.insertPage table tag (url v.request) v.input v.page.records) s

theorem stageVisits_cons (s : Staging) (table tag : String) (url : Request → String) (v : Visit)
    (visits : List Visit) :
    s.stageVisits table tag url (v :: visits) =
      (s.insertPage table tag (url v.request) v.input v.page.records).stageVisits table tag url
        visits :=
  rfl

theorem stageVisits_append (s : Staging) (table tag : String) (url : Request → String)
    (visits more : List Visit) :
    s.stageVisits table tag url (visits ++ more) =
      (s.stageVisits table tag url visits).stageVisits table tag url more :=
  List.foldl_append

theorem contents_stageVisits (s : Staging) (table tag : String) (url : Request → String)
    (visits : List Visit) :
    (s.stageVisits table tag url visits).contents table tag =
      s.contents table tag ++ visits.flatMap (Visit.entries url) := by
  induction visits generalizing s with
  | nil => simp [stageVisits]
  | cons v visits ih =>
    rw [stageVisits_cons, ih, contents_insertPage, List.flatMap_cons, List.append_assoc]
    rfl

theorem rowsOf_stageVisits_of_ne (s : Staging) (url : Request → String) (visits : List Visit)
    {table tag table' tag' : String} (h : ¬(table = table' ∧ tag = tag')) :
    (s.stageVisits table tag url visits).rowsOf table' tag' = s.rowsOf table' tag' := by
  induction visits generalizing s with
  | nil => rfl
  | cons v visits ih => rw [stageVisits_cons, ih, rowsOf_insertPage_of_ne s h]

theorem appends_stageVisits (s : Staging) (table tag : String) (url : Request → String)
    (visits : List Visit) :
    s.Appends (s.stageVisits table tag url visits) table tag
      (visits.flatMap (Visit.entries url)) := by
  induction visits generalizing s with
  | nil => exact Appends.refl s table tag
  | cons v visits ih =>
    rw [stageVisits_cons, List.flatMap_cons]
    exact (s.appends_insertPage table tag _ _ _).trans (ih _)

end Store.Staging

def Store.Tables.collected (t : Tables) (table tag : String) (url : Request → String)
    (visits : List Visit) : Tables :=
  { t with staging := (t.staging.delete table tag).stageVisits table tag url visits }

namespace Collector

variable (c : Collector)

def tablesAfter (url : Request → String) (staged : Bool) (t : Tables) (visits : List Visit) :
    Tables :=
  if staged then { t with staging := t.staging.stageVisits c.table c.scope.tag url visits } else t

theorem tablesAfter_append (url : Request → String) (staged : Bool) (t : Tables)
    (visits more : List Visit) :
    c.tablesAfter url staged t (visits ++ more) =
      c.tablesAfter url staged (c.tablesAfter url staged t visits) more := by
  cases staged with
  | false => rfl
  | true => simp [tablesAfter, Staging.stageVisits_append]

theorem runIn_stage {service : Service σ} (input : Option Json) (request : Request) (page : Page)
    {w : World σ} {t : Tables} (hw : w.database = .migrated t) :
    (c.stage service input request page).runIn w =
      (.ok (), w.holding (c.tablesAfter (stagedUrl service) true t [⟨input, request, page⟩])) := by
  obtain ⟨db, remote, calls, budget, cancelled⟩ := w
  cases hw
  obtain ⟨records, hasNext⟩ := page
  cases records with
  | nil => rfl
  | cons r records => rfl

def visit (service : Service σ) (staged : Bool) (input : Option Json) (path : String)
    (offset : Nat) : Action σ Page := do
  Action.checkCancelled
  let answer ← Action.ask service ⟨path, c.queryAt offset⟩
  let page ← Action.ofExcept (c.form.page answer)
  (if staged then c.stage service input ⟨path, c.queryAt offset⟩ page else pure () : Action σ Unit)
  return page

section Visit

variable {service : Service σ} {staged : Bool} {input : Option Json} {path : String} {offset : Nat}
  {w : World σ} {t : Tables}

theorem runIn_stage_if (request : Request) (page : Page) (hw : w.database = .migrated t) :
    (if staged then c.stage service input request page else pure () : Action σ Unit).runIn w =
      (.ok (), w.holding (c.tablesAfter (stagedUrl service) staged t
        [⟨input, request, page⟩])) := by
  cases staged with
  | true => exact c.runIn_stage input request page hw
  | false =>
    obtain ⟨db, remote, calls, budget, cancelled⟩ := w
    cases hw
    rfl

theorem reaches_of_visit {page : Page} {w' : World σ} (hw : w.database = .migrated t)
    (h : (c.visit service staged input path offset).runIn w = (.ok page, w')) :
    ∃ answer, service.Gives ⟨path, c.queryAt offset⟩ answer ∧ c.form.page answer = .ok page ∧
      w.Reaches w' (.migrated (c.tablesAfter (stagedUrl service) staged t
        [⟨input, ⟨path, c.queryAt offset⟩, page⟩])) 1 := by
  rw [visit] at h
  obtain ⟨_, v, hcheck, hrest⟩ := Action.runIn_bind_ok_iff.1 h
  obtain ⟨-, rfl⟩ := Action.runIn_checkCancelled_ok.1 hcheck
  obtain ⟨answer, u, hask, hread⟩ := Action.runIn_bind_ok_iff.1 hrest
  obtain ⟨hgives, hreach⟩ := Action.reaches_of_ask hask
  obtain ⟨page', u', hpage, hstage⟩ := Action.runIn_bind_ok_iff.1 hread
  obtain ⟨hok, rfl⟩ := Prod.mk.inj hpage
  have hu : u.database = .migrated t := hreach.database.trans hw
  rw [Action.runIn_bind_of_ok (c.runIn_stage_if ⟨path, c.queryAt offset⟩ page' hu)] at hstage
  obtain ⟨heq, rfl⟩ := Prod.mk.inj hstage
  cases heq
  exact ⟨answer, hgives, hok, rfl, hreach.budget⟩

variable (staged input) in
theorem visit_of_fixed {answer : Request → Except Error Json} (hfixed : service.IsFixed answer)
    {j : Json} {page : Page} (hj : answer ⟨path, c.queryAt offset⟩ = .ok j)
    (hpage : c.form.page j = .ok page) (hw : w.database = .migrated t) (hbudget : 0 < w.budget)
    (hgoes : w.cancelled = false) :
    ∃ w', (c.visit service staged input path offset).runIn w = (.ok page, w') ∧
      w.Reaches w' (.migrated (c.tablesAfter (stagedUrl service) staged t
        [⟨input, ⟨path, c.queryAt offset⟩, page⟩])) 1 ∧ w'.cancelled = false := by
  obtain ⟨u, hask, hreach, hu⟩ := Action.ask_of_fixed hfixed hj hbudget hgoes
  have hdb : u.database = .migrated t := hreach.database.trans hw
  have hcheck : (Action.checkCancelled : Action σ Unit).runIn w = (.ok (), w) :=
    Action.runIn_checkCancelled_ok.2 ⟨hgoes, rfl⟩
  refine ⟨u.holding (c.tablesAfter (stagedUrl service) staged t
    [⟨input, ⟨path, c.queryAt offset⟩, page⟩]), ?_, ⟨rfl, hreach.budget⟩, hu⟩
  rw [visit, Action.runIn_bind_of_ok hcheck, Action.runIn_bind_of_ok hask,
    hpage, Action.runIn_bind_of_ok (Action.runIn_ofExcept _ _),
    Action.runIn_bind_of_ok (c.runIn_stage_if ⟨path, c.queryAt offset⟩ page hdb)]
  rfl

end Visit

end Collector

end QaLake
