import Mathlib.Data.List.TakeWhile
import QaLake.Proofs.Endpoint.Paths
import QaLake.Proofs.Sync.Walk
import QaLake.Service.Scripted

namespace QaLake

def Request.number (r : Request) (name : String) (default : Nat) : Nat :=
  ((r.query.lookup name).map fun s => Text.digitsValue s.toList).getD default

/-- The objects and the lists of records that a service holds under its paths. -/
structure Catalogue where
  object : String → List (String × Json)
  records : String → List Json

namespace Catalogue

def forms : List (String × ResponseForm) :=
  [("get_project", .single), ("get_plan", .single), ("get_statuses", .listUnder "statuses"),
    ("get_priorities", .listUnder "priorities"), ("get_case_types", .listUnder "case_types"),
    ("get_case_fields", .listUnder "case_fields"), ("get_users", .listUnder "users"),
    ("get_suites", .listUnder "suites"), ("get_sections", .listUnder "sections"),
    ("get_milestones", .listUnder "milestones"), ("get_cases", .listUnder "cases"),
    ("get_plans", .listUnder "plans"), ("get_runs", .listUnder "runs"),
    ("get_results_for_run", .listUnder "results")]

def form? (path : String) : Option ResponseForm :=
  forms.lookup (String.ofList (path.toList.takeWhile (· != '/')))

variable (cat : Catalogue)

def slice (r : Request) : List Json :=
  ((cat.records r.path).drop (r.number "offset" 0)).take
    (r.number "limit" (cat.records r.path).length)

def hasMore (r : Request) : Bool :=
  r.number "offset" 0 + r.number "limit" (cat.records r.path).length < (cat.records r.path).length

inductive Answers (r : Request) : Json → Prop
  | object (hform : form? r.path = some .single) : Answers r (.obj (cat.object r.path))
  | bare {key : String} (hform : form? r.path = some (.listUnder key)) :
      Answers r (.arr (cat.slice r))
  | envelope {key : String} {members : List (String × Json)}
      (hform : form? r.path = some (.listUnder key))
      (hrecords : (Json.obj members).get? key = some (.arr (cat.slice r)))
      (hnext : (((Json.obj members).get? "_links").map ResponseForm.linksToNext).getD false =
        cat.hasMore r) : Answers r (.obj members)

/-- Whether a service gives no answers but those of a catalogue. -/
def ServedBy {σ : Type} (service : Service σ) : Prop :=
  ∀ r answer, service.Gives r answer → cat.Answers r answer

/-- The records under a path. An object is a record of its own. -/
def under (path : String) : List Json :=
  if form? path = some .single then [.obj (cat.object path)] else cat.records path

theorem form?_append {literal : String} (h : '/' ∈ literal.toList) (rest : String) :
    form? (literal ++ rest) = form? literal := by
  have hstop : literal.toList.takeWhile (· != '/') ≠ literal.toList := by
    intro he
    have hall := List.takeWhile_eq_self_iff.1 he '/' h
    exact absurd hall (by decide)
  have htake : (literal.toList ++ rest.toList).takeWhile (· != '/') =
      literal.toList.takeWhile (· != '/') := by
    rw [List.takeWhile_append, if_neg]
    intro hlen
    exact hstop ((List.takeWhile_prefix _).eq_of_length hlen)
  rw [form?, form?, String.toList_append, htake]

theorem form?_prefix (literal rest : String) {form : ResponseForm} (h : '/' ∈ literal.toList)
    (hform : form? literal = some form) : form? (literal ++ rest) = some form :=
  (form?_append h rest).trans hform

def service (url : String → String) (enveloped : Bool) : Service Unit :=
  .ofFunction url fun r =>
    match form? r.path with
    | none => .error (.http 404 (url r.path) "")
    | some .single => .ok (.obj (cat.object r.path))
    | some (.listUnder key) =>
      if enveloped then .ok (Route.envelopeOf key (cat.slice r) (cat.hasMore r))
      else .ok (.arr (cat.slice r))

theorem ne_links_of_form? {path key : String} (h : form? path = some (.listUnder key)) :
    key ≠ "_links" := by
  have hall : ∀ f ∈ forms, f.2 ≠ .listUnder "_links" := by decide +kernel
  obtain ⟨before, after, hforms, -⟩ := List.lookup_eq_some_iff.1 h
  have hmem : (String.ofList (path.toList.takeWhile (· != '/')), ResponseForm.listUnder key) ∈
      forms := by
    rw [hforms]
    exact List.mem_append_right _ List.mem_cons_self
  rintro rfl
  exact hall _ hmem rfl

theorem answers_envelope {r : Request} {key : String}
    (hform : form? r.path = some (.listUnder key)) :
    cat.Answers r (Route.envelopeOf key (cat.slice r) (cat.hasMore r)) := by
  have hkey := ne_links_of_form? hform
  refine Answers.envelope hform ?_ ?_
  · change Keyed.get? key (Keyed.insert key _ _) = _
    rw [Keyed.get?_insert_self]
  · change ((Keyed.get? "_links" (Keyed.insert key _ (Keyed.insert "_links" _ []))).map
      _).getD _ = _
    rw [Keyed.get?_insert_of_ne hkey.symm, Keyed.get?_insert_self]
    cases cat.hasMore r <;> rfl

theorem servedBy_service (url : String → String) (enveloped : Bool) :
    cat.ServedBy (cat.service url enveloped) := by
  rintro r answer ⟨_, h⟩
  have hanswer : (match form? r.path with
      | none => .error (.http 404 (url r.path) "")
      | some .single => .ok (.obj (cat.object r.path))
      | some (.listUnder key) =>
        if enveloped then .ok (Route.envelopeOf key (cat.slice r) (cat.hasMore r))
        else .ok (.arr (cat.slice r)) : Except Error Json) = .ok answer := h
  cases hform : form? r.path with
  | none =>
    rw [hform] at hanswer
    cases hanswer
  | some form =>
    rw [hform] at hanswer
    cases form with
    | single =>
      cases hanswer
      exact Answers.object hform
    | listUnder key =>
      cases enveloped with
      | true =>
        cases hanswer
        exact answers_envelope cat hform
      | false =>
        cases hanswer
        exact Answers.bare hform

def ofIds (ids : List (String × List Int)) : Catalogue where
  object _ := [("id", .int 1)]
  records path := ((ids.lookup path).getD []).map fun n => .obj [("id", .int n)]

theorem ofIds_isPlain {ids : List (String × List Int)}
    (hids : ∀ e ∈ ids, ∀ n ∈ e.2, -Word.signedLimit ≤ n ∧ n < Word.unsignedLimit)
    (path : String) {j : Json} (hj : j ∈ (ofIds ids).under path) :
    j.IsPlain ∧ j.isNumber = false ∧ j.depth ≤ Json.Document.maxDepth := by
  have hobject : ∀ n : Int, (-Word.signedLimit ≤ n ∧ n < Word.unsignedLimit) →
      (Json.obj [("id", .int n)]).IsPlain ∧ (Json.obj [("id", .int n)]).isNumber = false ∧
        (Json.obj [("id", .int n)]).depth ≤ Json.Document.maxDepth := by
    intro n hn
    have hdepth : (Json.obj [("id", .int n)]).depth = 1 := rfl
    exact ⟨⟨List.pairwise_singleton _ _, hn, trivial⟩, rfl, hdepth ▸ by decide⟩
  rw [under] at hj
  split at hj
  · rw [List.mem_singleton.1 hj]
    exact hobject 1 (by decide)
  · obtain ⟨n, hn, rfl⟩ := List.mem_map.1 hj
    cases hlookup : ids.lookup path with
    | none =>
      rw [hlookup] at hn
      cases hn
    | some found =>
      rw [hlookup] at hn
      obtain ⟨before, after, rfl, -⟩ := List.lookup_eq_some_iff.1 hlookup
      have hmem : (path, found) ∈ before ++ (path, found) :: after :=
        List.mem_append_right _ List.mem_cons_self
      exact hobject n (hids _ hmem n hn)

variable {cat} {c : Collector} {input : Option Json} {path : String} {offset : Nat}

theorem page_of_answer {r : Request} {answer : Json} {key : String} {page : Page}
    (h : cat.Answers r answer) (hform : form? r.path = some (.listUnder key))
    (hpage : (ResponseForm.listUnder key).page answer = .ok page) :
    page.records = cat.slice r ∧ (page.hasNext = some false → cat.hasMore r = false) := by
  cases h with
  | object hsingle =>
    rw [hform] at hsingle
    cases hsingle
  | bare hbare =>
    cases hpage
    exact ⟨rfl, fun hnone => nomatch hnone⟩
  | @envelope key' members henvelope hrecords hnext =>
    rw [hform] at henvelope
    cases henvelope
    rw [ResponseForm.page, ResponseForm.pageOfEnvelope, hrecords] at hpage
    cases hpage
    refine ⟨rfl, fun hlast => ?_⟩
    have hlinks : ((Json.obj members).get? "_links").map ResponseForm.linksToNext = some false :=
      hlast
    rw [← hnext, hlinks]
    rfl

theorem records_of_paged {key : String} {size : Nat} {visits : List Visit}
    (hkey : c.form = .listUnder key) (hsize : c.pageSize = some size) (hpos : 0 < size)
    (hform : form? path = some (.listUnder key))
    (hwalk : c.Walk cat.Answers input path offset visits) :
    (visits.flatMap fun v => v.page.records) = (cat.records path).drop offset := by
  have hquery : ∀ offset, c.queryAt offset =
      ("limit", toString size) :: ("offset", toString offset) :: c.query := by
    intro offset
    rw [Collector.queryAt, hsize]
  have hslice : ∀ offset, cat.slice ⟨path, c.queryAt offset⟩ =
      ((cat.records path).drop offset).take size := by
    intro offset
    rw [hquery]
    simp [slice, Request.number, List.lookup_cons, Text.digitsValue_digits]
  have hmore : ∀ offset, cat.hasMore ⟨path, c.queryAt offset⟩ =
      decide (offset + size < (cat.records path).length) := by
    intro offset
    rw [hquery]
    simp [hasMore, Request.number, List.lookup_cons, Text.digitsValue_digits]
  induction hwalk with
  | @last offset answer page hgives hpage hlast =>
    rw [hkey] at hpage
    obtain ⟨hrecords, hnext⟩ := page_of_answer hgives hform hpage
    rw [hslice] at hrecords
    rw [hmore] at hnext
    have hall : (cat.records path).length ≤ offset + size := by
      simp only [Collector.isLast, hsize, hrecords, Bool.or_eq_true, List.isEmpty_iff,
        decide_eq_true_eq, beq_iff_eq, List.take_eq_nil_iff, List.drop_eq_nil_iff, List.length_take,
        List.length_drop] at hlast
      obtain (hempty | hshort) | hlink := hlast
      · omega
      · omega
      · have hno := of_decide_eq_false (hnext hlink)
        omega
    have htake : ((cat.records path).drop offset).take size = (cat.records path).drop offset := by
      apply List.take_of_length_le
      rw [List.length_drop]
      omega
    rw [List.flatMap_cons, List.flatMap_nil, List.append_nil, hrecords, htake]
  | @more offset answer page visits hgives hpage hgoes hrest ih =>
    rw [hkey] at hpage
    obtain ⟨hrecords, -⟩ := page_of_answer hgives hform hpage
    rw [hslice] at hrecords
    have hlength : page.records.length = size := by
      simp only [Collector.isLast, hsize, Bool.or_eq_false_iff, decide_eq_false_iff_not] at hgoes
      have hle : page.records.length ≤ size := by
        rw [hrecords]
        exact List.length_take_le _ _
      omega
    rw [List.flatMap_cons, ih, hlength, hrecords, ← List.drop_drop, List.take_append_drop]

theorem records_of_unpaged {visits : List Visit} (hsize : c.pageSize = none) (hquery : c.query = [])
    (hform : form? path = some c.form) (hwalk : c.Walk cat.Answers input path offset visits) :
    visits.length = 1 ∧ (visits.flatMap fun v => v.page.records) = cat.under path := by
  have hempty : ∀ offset, c.queryAt offset = [] := by
    intro offset
    rw [Collector.queryAt, hsize, hquery]
  cases hwalk with
  | @last offset answer page hgives hpage hlast =>
    refine ⟨rfl, ?_⟩
    rw [List.flatMap_cons, List.flatMap_nil, List.append_nil]
    change page.records = _
    cases hc : c.form with
    | single =>
      rw [hc] at hform hpage
      rw [under, if_pos hform]
      cases hgives with
      | object hsingle =>
        cases hpage
        rfl
      | bare hbare =>
        rw [show form? path = _ from hbare] at hform
        cases hform
      | envelope henvelope hrecords hnext =>
        rw [show form? path = _ from henvelope] at hform
        cases hform
    | listUnder key =>
      rw [hc] at hform hpage
      obtain ⟨hrecords, -⟩ := page_of_answer hgives hform hpage
      rw [hrecords, under, hform, if_neg (by simp), hempty]
      simp [slice, Request.number]
  | @more offset answer page visits hgives hpage hgoes hrest =>
    simp [Collector.isLast, hsize] at hgoes

end Catalogue

end QaLake
