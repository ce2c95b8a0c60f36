import QaLake.Proofs.Sync.Course
import QaLake.Service.Scripted

namespace QaLake

open Store

variable {σ : Type}

namespace ResponseForm

/-- What an answer says about a next page: an envelope that has links names one. -/
def LinksOn (form : ResponseForm) (answer : Json) : Prop :=
  match form with
  | .single => True
  | .listUnder _ => ∀ links, answer.get? "_links" = some links →
      ∃ s, s ≠ "" ∧ links.get? "next" = some (.str s)

theorem linksToNext_iff (links : Json) :
    linksToNext links = true ↔ ∃ s, s ≠ "" ∧ links.get? "next" = some (.str s) := by
  rw [linksToNext]
  split
  · rename_i s hs
    simp [hs]
  · rename_i hother
    constructor
    · intro h
      cases h
    · rintro ⟨s, -, hs⟩
      exact absurd hs (hother s)

theorem hasNext_of_pageOfEnvelope {key : String} {envelope : Json} {page : Page}
    (h : pageOfEnvelope key envelope = .ok page) :
    page.hasNext = (envelope.get? "_links").map linksToNext := by
  rw [pageOfEnvelope] at h
  split at h <;> cases h <;> rfl

/-- A page says that there is no next one if its answer has links and does not name it. -/
theorem hasNext_ne_false_iff {form : ResponseForm} {answer : Json} {page : Page}
    (h : form.page answer = .ok page) : page.hasNext ≠ some false ↔ form.LinksOn answer := by
  cases form with
  | single =>
    cases answer <;> cases h
    simp [LinksOn]
  | listUnder key =>
    cases answer with
    | arr records =>
      cases h
      simp [LinksOn, Json.get?]
    | obj members =>
      rw [hasNext_of_pageOfEnvelope h, LinksOn]
      cases (Json.obj members).get? "_links" with
      | none => simp
      | some links => simp [← linksToNext_iff]
    | null | bool | num | str => cases h

end ResponseForm

namespace Collector

variable (c : Collector)

theorem isLast_eq_false_iff {size : Nat} (hsize : c.pageSize = some size) (hpos : 1 ≤ size)
    {answer : Json} {page : Page} (h : c.form.page answer = .ok page) :
    c.isLast page = false ↔ size ≤ page.records.length ∧ c.form.LinksOn answer := by
  rw [← ResponseForm.hasNext_ne_false_iff h, isLast, hsize]
  simp only [Bool.or_eq_false_iff, List.isEmpty_eq_false_iff, decide_eq_false_iff_not, Nat.not_lt]
  constructor
  · rintro ⟨⟨-, hfull⟩, hnext⟩
    exact ⟨hfull, by simpa using hnext⟩
  · rintro ⟨hfull, hnext⟩
    refine ⟨⟨?_, hfull⟩, by simpa using hnext⟩
    exact List.ne_nil_of_length_pos (Nat.lt_of_lt_of_le hpos hfull)

/-- What a course through pages of a size is like. -/
structure Paged (service : Service σ) (input : Option Json) (path : String) (size : Nat)
    (w : World σ) (visits : List Visit) (ending : Ending) : Prop where
  /-- A request says how many records it asks for, and behind how many. -/
  asks : ∀ (k : Nat) request, (requestsOf visits ending)[k]? = some request →
    request = ⟨path, ("limit", toString size) ::
      ("offset", toString (Fetched.ofVisits (visits.take k)).records.length) :: c.query⟩
  /-- The pages are what the service answers. -/
  answers : ∀ (k : Nat) v, visits[k]? = some v → v.input = input ∧ ∃ answer,
    (w.asked service ((visits.take k).map Visit.request)).reply service v.request = .ok answer ∧
    c.form.page answer = .ok v.page ∧
    -- A request follows if the page is full and there is a next one.
    (k + 1 < (requestsOf visits ending).length ↔
      size ≤ v.page.records.length ∧ c.form.LinksOn answer ∧
        (w.asked service ((visits.take (k + 1)).map Visit.request)).cancelled = false) ∧
    -- Only a page that is short or has no next one is the last of a course that is through.
    (k + 1 = visits.length ∧ ending = .through ↔
      ¬(size ≤ v.page.records.length ∧ c.form.LinksOn answer))
  /-- A course ends with a page, with the first failure, or when it is cancelled. -/
  ends : match ending with
    | .through => visits ≠ []
    | .refused request e =>
      c.pageIn service (w.asked service (visits.map Visit.request)) request = .error e
    | .stopped e =>
      e = .cancelled ∧ (w.asked service (visits.map Visit.request)).cancelled = true

variable {c} {service : Service σ} {input : Option Json} {path : String} {w : World σ}
  {offset : Nat} {visits : List Visit} {ending : Ending}

section Paged

variable {size : Nat} (hsize : c.pageSize = some size) (hpos : 1 ≤ size)

include hsize hpos

/-- The first page of a course is what the service answers, and the rest of the course depends on
whether it is full and there is a next one. -/
theorem Course.head_answer {v : Visit}
    (h : c.Course service input path w offset (v :: visits) ending) :
    v.input = input ∧ ∃ answer, w.reply service v.request = .ok answer ∧
      c.form.page answer = .ok v.page ∧
      (requestsOf visits ending ≠ [] ↔ size ≤ v.page.records.length ∧ c.form.LinksOn answer ∧
        (w.asked service [v.request]).cancelled = false) ∧
      (visits = [] ∧ ending = .through ↔
        ¬(size ≤ v.page.records.length ∧ c.form.LinksOn answer)) := by
  cases h with
  | @last _ _ page _ hread hlast =>
    obtain ⟨answer, hreply, hpage⟩ := c.pageIn_eq_ok.1 hread
    have hends : ¬(size ≤ page.records.length ∧ c.form.LinksOn answer) := by
      rw [← c.isLast_eq_false_iff hsize hpos hpage, hlast]
      exact Bool.noConfusion
    refine ⟨rfl, answer, hreply, hpage, iff_of_false (fun hne => hne rfl) ?_,
      iff_of_true ⟨rfl, rfl⟩ hends⟩
    rintro ⟨hfull, hlinks, -⟩
    exact hends ⟨hfull, hlinks⟩
  | @more _ _ page _ _ _ hread hmore hrest =>
    obtain ⟨answer, hreply, hpage⟩ := c.pageIn_eq_ok.1 hread
    have hgoes := (c.isLast_eq_false_iff hsize hpos hpage).1 hmore
    refine ⟨rfl, answer, hreply, hpage, ?_, iff_of_false ?_ (not_not_intro hgoes)⟩
    · rw [hrest.requestsOf_ne_nil_iff]
      exact ⟨fun hcancelled => ⟨hgoes.1, hgoes.2, hcancelled⟩, fun hall => hall.2.2⟩
    · rintro ⟨rfl, rfl⟩
      exact hrest.ne_nil rfl

theorem Course.paged (h : c.Course service input path w 0 visits ending) :
    c.Paged service input path size w visits ending where
  asks := by
    intro k request hk
    have hlt := (List.getElem?_eq_some_iff.1 hk).1
    rw [requestsOf, List.length_append, List.length_map] at hlt
    have hrest : k ≤ visits.length ∧ (visits.drop k ≠ [] ∨ ending ≠ .through) := by
      cases ending with
      | through =>
        have hlt : k < visits.length := hlt
        exact ⟨Nat.le_of_lt hlt, .inl fun hnil => Nat.not_le.2 hlt (List.drop_eq_nil_iff.1 hnil)⟩
      | refused request e => exact ⟨Nat.le_of_lt_succ hlt, .inr (by rintro ⟨⟩)⟩
      | stopped e => exact ⟨Nat.le_of_lt hlt, .inr (by rintro ⟨⟩)⟩
    rw [← List.head?_drop, ← requestsOf_drop ending hrest.1] at hk
    rw [(h.drop k hrest.2).head_request hk, queryAt, hsize, Nat.zero_add]
  answers := by
    intro k v hk
    obtain ⟨hlt, hv⟩ := List.getElem?_eq_some_iff.1 hk
    have hcons : visits.drop k = v :: visits.drop (k + 1) := by
      rw [List.drop_eq_getElem_cons hlt, hv]
    have hcourse := h.drop k (.inl (hcons ▸ List.cons_ne_nil _ _))
    rw [hcons] at hcourse
    obtain ⟨hinput, answer, hreply, hpage, hfollows, hends⟩ := hcourse.head_answer hsize hpos
    have hasked : (w.asked service ((visits.take k).map Visit.request)).asked service [v.request] =
        w.asked service ((visits.take (k + 1)).map Visit.request) := by
      rw [← World.asked_append, List.take_add_one, hk, List.map_append]
      rfl
    have hrequests : requestsOf (visits.drop (k + 1)) ending ≠ [] ↔
        k + 1 < (requestsOf visits ending).length := by
      rw [requestsOf_drop ending hlt, ne_eq, List.drop_eq_nil_iff, Nat.not_le]
    have hnil : visits.drop (k + 1) = [] ↔ k + 1 = visits.length := by
      rw [List.drop_eq_nil_iff]
      omega
    rw [hasked, hrequests] at hfollows
    rw [hnil] at hends
    exact ⟨hinput, answer, hreply, hpage, hfollows, hends⟩
  ends := by
    cases ending with
    | through => exact h.ne_nil
    | refused request e => exact h.ends_refused
    | stopped e => exact h.ends_stopped

end Paged

/-- Whatever a service answers, a walk goes from page to page. If it stages its pages, then all
their records, with the input and the address of their request, are behind what was staged before;
and from any database, a walk that only fetches them makes the same requests to the same effect. -/
theorem walks_paged (c : Collector) (service : Service σ) {size : Nat}
    (hsize : c.pageSize = some size) (hpos : 1 ≤ size) {input : Option Json} {path : String}
    (hpath : c.path.render c.scope input = .ok path) {w : World σ} {t : Tables}
    (hw : w.database = .migrated t) :
    ∃ visits ending, c.Paged service input path size w visits ending ∧
      ∃ w' t', (c.walkFor service true input).runIn w =
          (ending.outcome (Fetched.ofVisits visits), w') ∧
        w'.calls = w.calls ++ requestsOf visits ending ∧
        w'.database = .migrated t' ∧ { t' with staging := t.staging } = t ∧
        t.staging.Appends t'.staging c.table c.scope.tag
          (visits.flatMap (Visit.entries (stagedUrl service))) ∧
        (∀ f, ending.outcome (Fetched.ofVisits visits) = .ok f →
          f.stats = ⟨w'.calls.length - w.calls.length,
            t'.staging.rows.length - t.staging.rows.length⟩) ∧
        ∀ db, (c.walkFor service false input).runIn (w.withDatabase db) =
          (ending.outcome (Fetched.ofVisits visits), w'.withDatabase db) := by
  obtain ⟨visits, ending, hcourse⟩ := c.exists_course service input path w 0
  have hmigrated : true = false ∨ ∃ t, w.database = .migrated t := .inr ⟨t, hw⟩
  have hcalls := w.calls_asked service (requestsOf visits ending)
  have happends := t.staging.appends_stageVisits c.table c.scope.tag (stagedUrl service) visits
  refine ⟨visits, ending, hcourse.paged hsize hpos, _,
    c.tablesAfter (stagedUrl service) true t visits, c.runIn_walkFor hmigrated hpath hcourse,
    hcalls, ?_, rfl, happends, fun f hf => ?_, fun db => ?_⟩
  · rw [hw]
    rfl
  · obtain ⟨rfl, rfl⟩ := Ending.eq_through_of_outcome hf
    have hentries : (visits.flatMap (Visit.entries (stagedUrl service))).length =
        (Fetched.ofVisits visits).records.length := by
      simp [Fetched.ofVisits, Visit.entries, List.length_flatMap]
    have hmade : (w.asked service (requestsOf visits .through)).calls.length - w.calls.length =
        visits.length := by
      rw [hcalls, requestsOf_through, List.length_append, List.length_map, Nat.add_sub_cancel_left]
    have hrows := happends.length_rows
    rw [hentries] at hrows
    exact congrArg₂ CollectStats.mk hmade.symm (Nat.eq_sub_of_add_eq' hrows.symm)
  · have hunstaged : false = false ∨ ∃ t, db = .migrated t := .inl rfl
    have hfetched := c.runIn_walkFor hunstaged hpath hcourse
    rw [databaseAfter_unstaged] at hfetched
    exact hfetched

def casesByTwo : Collector where
  table := "testrail_cases"
  scope := ⟨1, 7⟩
  path := ⟨"get_cases/\x7bprojectId\x7d"⟩
  pageSize := some 2
  query := [("suite_id", "3")]
  inputs := none
  form := .listUnder "cases"

/-- A full page, one with more records than were asked for, and one that names no next page. -/
def threePages : Script where
  routes := [("get_cases/7", .sequence [.body (.arr [.str "a", .str "b"]),
    .body (.arr [.str "c", .str "d", .str "e"]),
    .body (Route.envelopeOf "cases" [.str "f", .str "g"] false)])]
  cancelAt := none

theorem walks_paged_threePages :
    let w : World ScriptState := ⟨.migrated .empty, ⟨[]⟩, [], 10, false⟩
    ∃ visits ending,
      casesByTwo.Paged (threePages.service id) none "get_cases/7" 2 w visits ending ∧
      ∃ w', (casesByTwo.walkFor (threePages.service id) true none).runIn w =
          (ending.outcome (Fetched.ofVisits visits), w') ∧
        w'.calls = requestsOf visits ending ∧
        (casesByTwo.walkFor (threePages.service id) false none).runIn (w.withDatabase .unmigrated) =
          (ending.outcome (Fetched.ofVisits visits), w'.withDatabase .unmigrated) := by
  intro w
  have hpath : casesByTwo.path.render casesByTwo.scope none = .ok "get_cases/7" := by
    decide +kernel
  obtain ⟨visits, ending, hpaged, w', t', hstaged, hcalls, -, -, -, -, hfetched⟩ :=
    walks_paged casesByTwo (threePages.service id) rfl (by decide) hpath (rfl : w.database = _)
  exact ⟨visits, ending, hpaged, w', hstaged, hcalls, hfetched .unmigrated⟩

/-- The offsets are the numbers of the records so far. -/
example :
    ((casesByTwo.walkFor (threePages.service id) true none).runIn
      ⟨.migrated .empty, ⟨[]⟩, [], 10, false⟩).2.calls.map Request.queryText =
        ["limit=2&offset=0&suite_id=3", "limit=2&offset=2&suite_id=3",
          "limit=2&offset=5&suite_id=3"] := by
  decide +kernel

end Collector

end QaLake
