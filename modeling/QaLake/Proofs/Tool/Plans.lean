import Mathlib.Algebra.Ring.Int.Defs
import QaLake.Proofs.Tool.Payloads

namespace QaLake

namespace Json

variable {σ α : Type}

def listed? : Option Json → Option (List Json)
  | none | some .null => some []
  | some (.arr items) => some items
  | some _ => none

theorem Decoder.string_eq_ok_iff {v : Json} {s : String} :
    Decoder.string (.ofJson v) = .ok s ↔ v = .str s := by
  cases v with
  | str t => simp [Document.ofJson, string]
  | bool b => cases b <;> simp [Document.ofJson, string, wrongType]
  | num n => cases n <;> simp [Document.ofJson, string, wrongType]
  | null | arr _ | obj _ => simp [Document.ofJson, string, wrongType]

theorem Decoder.list_eq_ok_iff {dec : Decoder α} {items : List Json} {as : List α} :
    Decoder.list dec (.ofJson (.arr items)) = .ok as ↔
      List.Forall₂ (fun item a => dec (.ofJson item) = .ok a) items as := by
  rw [Document.ofJson, ofItems_eq_map, list, Tool.mapM_eq_ok_iff, List.forall₂_map_left_iff]

theorem Decoder.listed_of_optional {dec : Decoder α} {v : Json} {o : Option (List α)}
    (h : Decoder.optional (Decoder.list dec) (.ofJson v) = .ok o) :
    ∃ items, listed? (some v) = some items ∧
      List.Forall₂ (fun item a => dec (.ofJson item) = .ok a) items (o.getD []) := by
  cases v with
  | null =>
    cases h
    exact ⟨[], rfl, .nil⟩
  | arr items =>
    change (Decoder.list dec (.ofJson (.arr items))).map some = .ok o at h
    cases hread : Decoder.list dec (.ofJson (.arr items)) with
    | error e =>
      rw [hread] at h
      cases h
    | ok as =>
      rw [hread] at h
      cases h
      exact ⟨items, rfl, list_eq_ok_iff.1 hread⟩
  | bool b => cases b <;> cases h
  | num n => cases n <;> cases h
  | str _ | obj _ => cases h

theorem Decoder.exists_optional {dec : Decoder α} {v : Json} {items : List Json}
    (h : listed? (some v) = some items) (hitems : ∀ item ∈ items, ∃ a, dec (.ofJson item) = .ok a) :
    ∃ o, Decoder.optional (Decoder.list dec) (.ofJson v) = .ok o := by
  cases v with
  | null => exact ⟨none, rfl⟩
  | arr written =>
    cases h
    obtain ⟨as, has⟩ := Tool.exists_forall₂_iff.2 hitems
    refine ⟨some as, ?_⟩
    change (Decoder.list dec (.ofJson (.arr items))).map some = .ok (some as)
    rw [list_eq_ok_iff.2 has]
    rfl
  | bool _ | num _ | str _ | obj _ => cases h

theorem wellFormed_of_listed? {members : List (String × Json)}
    (hmembers : ∀ m ∈ members, m.2.IsWellFormed) {name : String} {items : List Json}
    (hnames : (members.map Prod.fst).Nodup)
    (h : listed? (Keyed.get? name members) = some items) : ∀ item ∈ items, item.IsWellFormed := by
  cases hv : Keyed.get? name members with
  | none =>
    rw [hv] at h
    cases h
    exact List.forall_mem_nil _
  | some v =>
    rw [hv] at h
    have hwell := hmembers _ ((Keyed.get?_eq_some_iff hnames).1 hv)
    cases v with
    | null =>
      cases h
      exact List.forall_mem_nil _
    | arr written =>
      cases h
      exact itemsWellFormed_iff.1 hwell
    | bool _ | num _ | str _ | obj _ => cases h

namespace Shape

variable {shape : Shape σ} {members : List (String × Json)} {name : String}

theorem Holds.listed {dec : Decoder α} {get : σ → Option (List α)}
    (h : shape.Holds name (Decoder.optional (Decoder.list dec)) get) (hshape : shape.IsOptional)
    (hblank : get shape.blank = none) (hnames : (members.map Prod.fst).Nodup) {r : σ}
    (hr : members.foldlM shape.readMember shape.blank = .ok r) :
    ∃ items, listed? (Keyed.get? name members) = some items ∧
      List.Forall₂ (fun item a => dec (.ofJson item) = .ok a) items ((get r).getD []) := by
  cases hv : Keyed.get? name members with
  | none =>
    rw [h.get_of_absent (Keyed.get?_eq_none_iff.1 hv) hr, hblank]
    exact ⟨[], rfl, .nil⟩
  | some v =>
    exact Decoder.listed_of_optional
      (h.read_of_mem hshape hnames ((Keyed.get?_eq_some_iff hnames).1 hv) hr)

/-- A list that may be left out or null is accepted if each of its items is. -/
theorem accepts_listed {dec : Decoder α} {put : Option (List α) → σ → σ}
    (hnames : (members.map Prod.fst).Nodup) {items : List Json}
    (h : listed? (Keyed.get? name members) = some items)
    (hitems : ∀ item ∈ items, ∃ a, dec (.ofJson item) = .ok a) {v : Json}
    (hv : (name, v) ∈ members) :
    (Tool.payloadField name (Decoder.optional (Decoder.list dec)) put).Accepts v := by
  rw [(Keyed.get?_eq_some_iff hnames).2 hv] at h
  obtain ⟨o, ho⟩ := Decoder.exists_optional h hitems
  intro r
  refine ⟨put o r, ?_⟩
  change (Decoder.optional (Decoder.list dec) (.ofJson v)).map (fun a => put a r) = _
  rw [ho]
  rfl

end Shape

end Json

namespace Tool

open Json

section Counters

def Counts.parts : List (String × (Counts → Int)) :=
  [("passed_count", Counts.passed), ("blocked_count", Counts.blocked),
    ("untested_count", Counts.untested), ("retest_count", Counts.retest),
    ("failed_count", Counts.failed)]

/-- Whether a value is written with some counters, those that are left out being zero. -/
def IsTally (j : Json) (c : Counts) : Prop :=
  ∃ members, countsShape.members? j = some members ∧ countsShape.Accepts members ∧
    ∀ p ∈ Counts.parts, NumberAt p.1 members (p.2 c)

theorem countsShape_holds : ∀ p ∈ Counts.parts, countsShape.Holds p.1 Decoder.int64 p.2 := by
  simp only [Counts.parts, List.forall_mem_cons]
  refine ⟨.of_split [] rfl (fun _ _ => rfl) ?_ ?_, .of_split [_] rfl (fun _ _ => rfl) ?_ ?_,
    .of_split [_, _] rfl (fun _ _ => rfl) ?_ ?_, .of_split [_, _, _] rfl (fun _ _ => rfl) ?_ ?_,
    .of_split [_, _, _, _] rfl (fun _ _ => rfl) ?_ ?_, List.forall_mem_nil _⟩ <;>
  simp [payloadField]

theorem Counts.ext_parts {c c' : Counts} (h : ∀ p ∈ Counts.parts, p.2 c = p.2 c') : c = c' := by
  simp only [parts, List.forall_mem_cons] at h
  obtain ⟨hpassed, hblocked, huntested, hretest, hfailed, -⟩ := h
  cases c
  cases c'
  simp_all

theorem Counts.sum_part {part : Counts → Int}
    (hadd : ∀ a b, part (a + b) = Word.add (part a) (part b))
    (cs : List Counts) {c : Counts} (hc : Word.wrap (part c) = part c) :
    part (cs.foldl (· + ·) c) = Word.wrap (part c + (cs.map part).sum) := by
  induction cs generalizing c with
  | nil => simp [hc]
  | cons first rest ih =>
    have hfirst : Word.wrap (part (c + first)) = part (c + first) := by
      rw [hadd, Word.add, Word.wrap_wrap]
    rw [List.foldl_cons, ih hfirst, hadd, Word.add, Word.wrap_wrap_add, List.map_cons,
      List.sum_cons, Int.add_assoc]

theorem Counts.sum_parts {part : Counts → Int}
    (hadd : ∀ a b, part (a + b) = Word.add (part a) (part b))
    (hblank : part {} = 0) {cs : List Counts} (hsum : Word.IsSigned (cs.map part).sum) :
    part (cs.foldl (· + ·) {}) = (cs.map part).sum := by
  rw [sum_part hadd cs (by rw [hblank]; rfl), hblank, Int.zero_add, Word.wrap_of_isSigned hsum]

theorem Counts.parts_add :
    ∀ p ∈ Counts.parts, ∀ a b, p.2 (a + b) = Word.add (p.2 a) (p.2 b) := by
  simp only [parts, List.forall_mem_cons]
  exact ⟨fun _ _ => rfl, fun _ _ => rfl, fun _ _ => rfl, fun _ _ => rfl, fun _ _ => rfl,
    List.forall_mem_nil _⟩

theorem Counts.total_add (a b : Counts) : (a + b).total = Word.add a.total b.total := by
  change Word.add (Word.add (Word.add (Word.add (Word.add a.passed b.passed)
    (Word.add a.failed b.failed)) (Word.add a.blocked b.blocked)) (Word.add a.untested b.untested))
      (Word.add a.retest b.retest) = _
  simp only [total, Word.add, Word.wrap_wrap_add, Word.wrap_add_wrap]
  exact congrArg Word.wrap (by omega)

theorem Counts.parts_blank : ∀ p ∈ Counts.parts, p.2 {} = 0 := by
  decide

theorem numberAt_counts {members : List (String × Json)} (hnames : (members.map Prod.fst).Nodup)
    {c : Counts} (hc : members.foldlM countsShape.readMember countsShape.blank = .ok c) :
    ∀ p ∈ Counts.parts, NumberAt p.1 members (p.2 c) := fun p hp =>
  (countsShape_holds p hp).numberAt countsShape_isUnscoped.optional (Counts.parts_blank p hp)
    hnames hc

theorem decode_counts_iff {j : Json} (hj : j.IsWellFormed) {c : Counts} :
    countsShape.decode .value (.ofJson j) = .ok c ↔ IsTally j c := by
  have hshape := countsShape_isUnscoped.optional
  rw [Shape.decode_eq_ok_iff hshape hj]
  constructor
  · rintro ⟨members, hmembers, hc⟩
    have hnames := Shape.nodup_of_members? hshape hj hmembers
    exact ⟨members, hmembers, (Shape.exists_foldlM_iff hshape _).1 ⟨c, hc⟩,
      numberAt_counts hnames hc⟩
  · rintro ⟨members, hmembers, haccepts, hc⟩
    have hnames := Shape.nodup_of_members? hshape hj hmembers
    obtain ⟨c', hc'⟩ := (Shape.exists_foldlM_iff hshape countsShape.blank).2 haccepts
    have hsame : c = c' := Counts.ext_parts fun p hp =>
      (hc p hp).unique (numberAt_counts hnames hc' p hp)
    exact ⟨members, hmembers, hsame ▸ hc'⟩

end Counters

section Entries

/-- Whether an entry of a plan can be read, with an id and with the counters of its runs. -/
def IsEntry (j : Json) (id : String) (tallies : List Counts) : Prop :=
  id ≠ "" ∧ ∃ members runs, (entryShape .value).members? j = some members ∧
    (∀ f ∈ (entryShape .value).fields, f.name ≠ "runs" →
      ∀ v, (f.name, v) ∈ members → f.Accepts v) ∧
    Keyed.get? "id" members = some (.str id) ∧
    listed? (Keyed.get? "runs" members) = some runs ∧ List.Forall₂ IsTally runs tallies

theorem entryShape_isOptional : (entryShape .value).IsOptional :=
  ⟨by simp [entryShape, payloadField], by decide⟩

theorem entryShape_holds_id : (entryShape .value).Holds "id" Decoder.string EntryPayload.id :=
  .of_split [] rfl (fun _ _ => rfl) (by simp) (by simp [payloadField])

theorem entryShape_holds_runs : (entryShape .value).Holds "runs"
    (Decoder.optional (Decoder.list (countsShape.decode .value))) EntryPayload.runs :=
  .of_split [_, _, _, _, _, _] rfl (fun _ _ => rfl) (by simp [payloadField])
    (by simp)

theorem isEntry_of_decode {j : Json} (hj : j.IsWellFormed) {e : EntryPayload}
    (h : (entryShape .value).decode .value (.ofJson j) = .ok e) (hid : e.id ≠ "") :
    IsEntry j e.id (e.runs.getD []) := by
  obtain ⟨members, hmembers, hr⟩ := (Shape.decode_eq_ok_iff entryShape_isOptional hj).1 h
  have hnames := Shape.nodup_of_members? entryShape_isOptional hj hmembers
  have haccepts := (Shape.exists_foldlM_iff entryShape_isOptional _).1 ⟨e, hr⟩
  obtain ⟨runs, hruns, hread⟩ := entryShape_holds_runs.listed entryShape_isOptional rfl hnames hr
  refine ⟨hid, members, runs, hmembers, fun f hf _ => haccepts f hf, ?_, hruns, ?_⟩
  · cases hv : Keyed.get? "id" members with
    | none =>
      exact absurd (entryShape_holds_id.get_of_absent (Keyed.get?_eq_none_iff.1 hv) hr) hid
    | some v =>
      have hstring := entryShape_holds_id.read_of_mem entryShape_isOptional hnames
        ((Keyed.get?_eq_some_iff hnames).1 hv) hr
      rw [Decoder.string_eq_ok_iff.1 hstring]
  · have hwell := wellFormed_of_listed?
      (fun _ => Shape.wellFormed_of_members? hj hmembers) hnames hruns
    exact ((List.forall₂_and_left _ _).2 ⟨hwell, hread⟩).imp
      fun run c hrun => (decode_counts_iff hrun.1).1 hrun.2

theorem decode_of_isEntry {j : Json} (hj : j.IsWellFormed) {id : String} {tallies : List Counts}
    (h : IsEntry j id tallies) :
    ∃ e, (entryShape .value).decode .value (.ofJson j) = .ok e ∧ e.id = id := by
  obtain ⟨-, members, runs, hmembers, hown, hid, hruns, htallies⟩ := h
  have hnames := Shape.nodup_of_members? entryShape_isOptional hj hmembers
  have haccepts : (entryShape .value).Accepts members := by
    intro f hf v hv
    -- Every field but the runs is among the own fields of the entry.
    by_cases hname : f.name = "runs"
    · have hfield : payloadField "runs"
          (Decoder.optional (Decoder.list (countsShape.decode .value)))
          (fun v r => { r with runs := v }) ∈ (entryShape .value).fields := by
        simp [entryShape]
      obtain rfl := List.inj_on_of_nodup_map entryShape_isOptional.names hf hfield hname
      have hwell := wellFormed_of_listed?
        (fun _ => Shape.wellFormed_of_members? hj hmembers) hnames hruns
      refine Shape.accepts_listed hnames hruns (fun run hrun => ?_) hv
      obtain ⟨c, hc⟩ := exists_forall₂_iff.1 ⟨tallies, htallies⟩ run hrun
      exact ⟨c, (decode_counts_iff (hwell run hrun)).2 hc⟩
    · exact hown f hf hname v hv
  obtain ⟨e, hr⟩ := (Shape.exists_foldlM_iff entryShape_isOptional (entryShape .value).blank).2
    haccepts
  refine ⟨e, (Shape.decode_eq_ok_iff entryShape_isOptional hj).2 ⟨members, hmembers, hr⟩, ?_⟩
  have hstring := entryShape_holds_id.read_of_mem entryShape_isOptional hnames
    ((Keyed.get?_eq_some_iff hnames).1 hid) hr
  exact (Json.str.inj (Decoder.string_eq_ok_iff.1 hstring)).symm

end Entries

section Plans

variable {scope : RunScope} {input : Option String} {rows : List Row}
  {members : List (String × Json)}

/-- Whether the own fields of a plan can be read, its counters among them. -/
structure ReadsPlan (members : List (String × Json)) : Prop where
  plan : planShape.Accepts members
  counts : countsShape.Accepts members

/-- Whether a plan has the id and the counters of a payload. -/
structure Plan.IsReadFrom (members : List (String × Json)) (plan : Plan) : Prop where
  id : NumberAt "id" members plan.id
  counts : ∀ p ∈ Counts.parts, NumberAt p.1 members (p.2 plan.counts)

/-- Whether a row is what an entry of a plan is read as, with the counters of its runs added up
where the sums are signed words. -/
def PlanEntry.IsReadFrom (planId : Int) (j : Json) (row : PlanEntry) : Prop :=
  ∃ tallies, IsEntry j row.id tallies ∧ row.planId = planId ∧
    (∀ p ∈ Counts.parts, Word.IsSigned (tallies.map p.2).sum →
      p.2 row.counts = (tallies.map p.2).sum) ∧
    (Word.IsSigned (tallies.map Counts.total).sum →
      row.counts.total = (tallies.map Counts.total).sum)

theorem exists_decodePayload_iff {σ : Type} {kind : EntityKind} {shape : Shape σ}
    (hshape : shape.IsOptional) (hmembers : (Json.obj members).IsWellFormed) :
    (∃ r, decodePayload kind shape (.obj members) = .ok r) ↔ shape.Accepts members := by
  rw [← Shape.exists_foldlM_iff hshape shape.blank]
  constructor
  · rintro ⟨r, hr⟩
    exact ⟨r, foldlM_of_decodePayload hshape hmembers hr⟩
  · rintro ⟨r, hr⟩
    refine ⟨r, ?_⟩
    rw [decodePayload, decodeValue, Shape.decode_obj hshape hmembers, hr]
    rfl

theorem readsPlan_iff (hmembers : (Json.obj members).IsWellFormed) :
    ReadsPlan members ↔ (∃ plan, decodePayload .plan planShape (.obj members) = .ok plan) ∧
      ∃ counts, decodePayload .plan countsShape (.obj members) = .ok counts := by
  rw [exists_decodePayload_iff planShape_isPayload.optional hmembers,
    exists_decodePayload_iff countsShape_isUnscoped.optional hmembers]
  exact ⟨fun h => ⟨h.plan, h.counts⟩, fun h => ⟨h.1, h.2⟩⟩

theorem ofPayload_eq_ok {plan : Plan} {e : EntryPayload} {row : PlanEntry}
    (h : PlanEntry.ofPayload scope plan e = .ok row) :
    e.id ≠ "" ∧ row.id = e.id ∧ row.planId = plan.id ∧
      row.counts = (e.runs.getD []).foldl (· + ·) {} := by
  rw [PlanEntry.ofPayload] at h
  by_cases hid : e.id.isEmpty = true
  · rw [if_pos hid] at h
    cases h
  · rw [if_neg hid] at h
    cases h
    exact ⟨by simpa using hid, rfl, rfl, rfl⟩

theorem exists_ofPayload (scope : RunScope) (plan : Plan) {e : EntryPayload} (h : e.id ≠ "") :
    ∃ row, PlanEntry.ofPayload scope plan e = .ok row := by
  rw [PlanEntry.ofPayload, if_neg (by simpa using h)]
  exact ⟨_, rfl⟩

theorem exists_of_ofPayload_eq_error {plan : Plan} {e : EntryPayload} {err : Error}
    (h : PlanEntry.ofPayload scope plan e = .error err) :
    ∃ cause, err = .parse .planEntry cause := by
  rw [PlanEntry.ofPayload] at h
  split at h
  · cases h
    exact ⟨_, rfl⟩
  · cases h

def Plan.placed (scope : RunScope) (counts : Counts) (plan : Plan) : Plan :=
  { plan with connectionId := scope.connection, projectId := scope.project, counts := counts }

theorem planRows_eq {data : Json} {plan : Plan} {counts : Counts} {o : Option (List EntryPayload)}
    (hplan : decodePayload .plan planShape data = .ok plan)
    (hcounts : decodePayload .plan countsShape data = .ok counts)
    (ho : decodeValue (fun s => (entriesShape s).decode s) data = .ok o) :
    planRows scope data = do
      let described ← (o.getD []).mapM (PlanEntry.ofPayload scope (plan.placed scope counts))
      return .plan (plan.placed scope counts) :: described.map .planEntry := by
  rw [planRows, hplan, hcounts, ho]
  rfl

theorem entries_of_decode (hmembers : (Json.obj members).IsWellFormed)
    {o : Option (List EntryPayload)}
    (h : decodeValue (fun s => (entriesShape s).decode s) (.obj members) = .ok o) :
    ∃ items, listed? (Keyed.get? "entries" members) = some items ∧
      List.Forall₂ (fun item e => (entryShape .value).decode .value (.ofJson item) = .ok e) items
        (o.getD []) := by
  have hentries : (entriesShape .value).Holds "entries"
      (Decoder.optional (Decoder.list ((entryShape .value).decode .value))) fun o => o :=
    .of_split [] rfl (fun _ _ => rfl) (by simp) (by simp)
  have hshape := (entriesShape_isUnscoped .value).optional
  refine hentries.listed hshape rfl (Keyed.nodup_of_sorted hmembers.1) ?_
  rw [← Shape.decode_obj hshape hmembers .value]
  exact h

theorem exists_entries (hmembers : (Json.obj members).IsWellFormed) {items : List Json}
    (hitems : listed? (Keyed.get? "entries" members) = some items)
    (h : ∀ item ∈ items, ∃ e, (entryShape .value).decode .value (.ofJson item) = .ok e) :
    ∃ o, decodeValue (fun s => (entriesShape s).decode s) (.obj members) = .ok o := by
  have hshape := (entriesShape_isUnscoped .value).optional
  have haccepts : (entriesShape .value).Accepts members := by
    intro f hf v hv
    obtain rfl := List.mem_singleton.1 hf
    exact Shape.accepts_listed (Keyed.nodup_of_sorted hmembers.1) hitems h hv
  obtain ⟨o, ho⟩ := (Shape.exists_foldlM_iff hshape (entriesShape .value).blank).2 haccepts
  refine ⟨o, ?_⟩
  change (entriesShape .value).decode .value (.ofJson (.obj members)) = .ok o
  rw [Shape.decode_obj hshape hmembers, ho]

theorem isReadFrom_of_ofPayload {plan : Plan} {item : Json} (hitem : item.IsWellFormed)
    {e : EntryPayload} (he : (entryShape .value).decode .value (.ofJson item) = .ok e)
    {row : PlanEntry} (hrow : PlanEntry.ofPayload scope plan e = .ok row) :
    row.IsReadFrom plan.id item := by
  obtain ⟨hid, hrowId, hplan, hcounts⟩ := ofPayload_eq_ok hrow
  refine ⟨e.runs.getD [], hrowId ▸ isEntry_of_decode hitem he hid, hplan, fun p hp hsum => ?_,
    fun hsum => ?_⟩
  · rw [hcounts, Counts.sum_parts (Counts.parts_add p hp) (Counts.parts_blank p hp) hsum]
  · rw [hcounts, Counts.sum_parts Counts.total_add rfl hsum]

/-- What a plan is read as: itself, and what each of its entries is read as. -/
theorem exists_of_planRows (hmembers : (Json.obj members).IsWellFormed)
    (h : planRows scope (.obj members) = .ok rows) :
    ReadsPlan members ∧ ∃ plan described entries, rows = .plan plan :: described.map .planEntry ∧
      plan.IsReadFrom members ∧
      listed? (Keyed.get? "entries" members) = some entries ∧
      List.Forall₂ (fun j row => PlanEntry.IsReadFrom plan.id j row) entries described := by
  obtain ⟨plan, hplan, h⟩ := exists_of_bind_eq_ok h
  obtain ⟨counts, hcounts, h⟩ := exists_of_bind_eq_ok h
  obtain ⟨o, ho, h⟩ := exists_of_bind_eq_ok h
  obtain ⟨described, hdescribed, h⟩ := exists_of_bind_eq_ok h
  cases h
  refine ⟨(readsPlan_iff hmembers).2 ⟨⟨plan, hplan⟩, counts, hcounts⟩, ?_⟩
  have hnames := Keyed.nodup_of_sorted hmembers.1
  obtain ⟨entries, hentries, hitems⟩ := entries_of_decode hmembers (eq_ok_of_mapError_eq_ok ho)
  have hwell := wellFormed_of_listed? (membersWellFormed_iff.1 hmembers.2) hnames hentries
  have hid := planShape_isPayload.numberAt hmembers hplan
  have hown := numberAt_counts hnames
    (foldlM_of_decodePayload countsShape_isUnscoped.optional hmembers hcounts)
  refine ⟨_, described, entries, rfl, ⟨hid, hown⟩, hentries, ?_⟩
  refine forall₂_comp (fun item e row he hrow => ?_)
    ((List.forall₂_and_left _ _).2 ⟨hwell, hitems⟩) (mapM_eq_ok_iff.1 hdescribed)
  exact isReadFrom_of_ofPayload he.1 he.2 hrow

theorem exists_planRows (hmembers : (Json.obj members).IsWellFormed) (hplan : ReadsPlan members)
    {entries : List Json} (hentries : listed? (Keyed.get? "entries" members) = some entries)
    (h : ∀ j ∈ entries, ∃ id tallies, IsEntry j id tallies) :
    ∃ rows, planRows scope (.obj members) = .ok rows := by
  obtain ⟨⟨plan, hplan⟩, counts, hcounts⟩ := (readsPlan_iff hmembers).1 hplan
  have hwell := wellFormed_of_listed? (membersWellFormed_iff.1 hmembers.2)
    (Keyed.nodup_of_sorted hmembers.1) hentries
  have hdecodes : ∀ j ∈ entries, ∃ e, (entryShape .value).decode .value (.ofJson j) = .ok e ∧
      e.id ≠ "" := by
    intro j hj
    obtain ⟨id, tallies, hentry⟩ := h j hj
    obtain ⟨e, he, rfl⟩ := decode_of_isEntry (hwell j hj) hentry
    exact ⟨e, he, hentry.1⟩
  obtain ⟨o, ho⟩ := exists_entries hmembers hentries fun j hj =>
    (hdecodes j hj).imp fun _ he => he.1
  obtain ⟨entries', hentries', hitems⟩ := entries_of_decode hmembers ho
  obtain rfl : entries = entries' := Option.some.inj (hentries.symm.trans hentries')
  have hids : ∀ e ∈ o.getD [], e.id ≠ "" := by
    intro e he
    obtain ⟨j, hj, hread⟩ := exists_mem_of_forall₂ hitems he
    obtain ⟨e', he', hid⟩ := hdecodes j hj
    cases hread.symm.trans he'
    exact hid
  obtain ⟨described, hdescribed⟩ := exists_forall₂_iff.2 fun e he =>
    exists_ofPayload scope (plan.placed scope counts) (hids e he)
  refine ⟨.plan (plan.placed scope counts) :: described.map .planEntry, ?_⟩
  rw [planRows_eq hplan hcounts ho, mapM_eq_ok_iff.2 hdescribed]
  rfl

/-- A plan that is refused is refused for its entries exactly if its own fields can be read. -/
theorem planRows_error (hmembers : (Json.obj members).IsWellFormed) {e : Error}
    (h : planRows scope (.obj members) = .error e) :
    ∃ kind cause, e = .parse kind cause ∧ (kind = .planEntry ↔ ReadsPlan members) := by
  -- The readings of the own fields come before those of the entries, so the first that fails tells
  -- which kind is named.
  rw [readsPlan_iff hmembers]
  cases hplan : decodePayload .plan planShape (.obj members) with
  | error e' =>
    rw [planRows, hplan] at h
    cases h
    obtain ⟨f, rfl⟩ := exists_of_mapError_eq_error hplan
    refine ⟨.plan, _, rfl, fun h => ?_, ?_⟩
    · cases h
    · rintro ⟨⟨_, h⟩, -⟩
      cases h
  | ok plan =>
    cases hcounts : decodePayload .plan countsShape (.obj members) with
    | error e' =>
      rw [planRows, hplan, hcounts] at h
      cases h
      obtain ⟨f, rfl⟩ := exists_of_mapError_eq_error hcounts
      refine ⟨.plan, _, rfl, fun h => ?_, ?_⟩
      · cases h
      · rintro ⟨-, _, h⟩
        cases h
    | ok counts =>
      suffices hentry : ∃ cause, e = .parse .planEntry cause by
        obtain ⟨cause, rfl⟩ := hentry
        exact ⟨.planEntry, cause, rfl, fun _ => ⟨⟨plan, rfl⟩, counts, rfl⟩, fun _ => rfl⟩
      cases ho : decodeValue (fun s => (entriesShape s).decode s) (.obj members) with
      | error f =>
        rw [planRows, hplan, hcounts, ho] at h
        cases h
        exact ⟨_, rfl⟩
      | ok o =>
        rw [planRows_eq hplan hcounts ho] at h
        cases hdescribed : (o.getD []).mapM
            (PlanEntry.ofPayload scope (plan.placed scope counts)) with
        | ok described =>
          rw [hdescribed] at h
          cases h
        | error err =>
          rw [hdescribed] at h
          cases h
          obtain ⟨_, bad, _, _, -, -, hbad⟩ := exists_of_mapM_eq_error hdescribed
          exact exists_of_ofPayload_eq_error hbad

theorem exists_of_not_object {kind : EntityKind} {text : String}
    (h : ¬ ∃ members, Json.parse? text = some (.obj members)) :
    ∃ cause, rowsOfRecord kind scope text input = .error (.parse kind cause) := by
  rw [rowsOfRecord]
  split
  · exact ⟨_, rfl⟩
  · rename_i members hread
    exact absurd ⟨members, hread⟩ h
  · exact ⟨_, rfl⟩

/-- A record of a plan is read if its own fields, its entries and the runs of these can be read and
every entry has an id; then it is read as the plan and its entries one by one, each with the
counters of its runs added up. Otherwise it is refused, and as an entry if the own fields of the
plan can be read. -/
theorem plan_read_exactly (scope : RunScope) (text : String) (input : Option String) :
    ((∃ rows, rowsOfRecord .plan scope text input = .ok rows) ↔
        ∃ members entries, Json.parse? text = some (.obj members) ∧ ReadsPlan members ∧
          listed? (Keyed.get? "entries" members) = some entries ∧
          ∀ j ∈ entries, ∃ id tallies, IsEntry j id tallies) ∧
      (∀ rows, rowsOfRecord .plan scope text input = .ok rows →
        ∃ members plan described entries, Json.parse? text = some (.obj members) ∧
          rows = .plan plan :: described.map .planEntry ∧ plan.IsReadFrom members ∧
          listed? (Keyed.get? "entries" members) = some entries ∧
          List.Forall₂ (fun j row => PlanEntry.IsReadFrom plan.id j row) entries described) ∧
      ∀ e, rowsOfRecord .plan scope text input = .error e →
        ∃ kind cause, e = .parse kind cause ∧
          (kind = .planEntry ↔
            ∃ members, Json.parse? text = some (.obj members) ∧ ReadsPlan members) := by
  by_cases hobject : ∃ members, Json.parse? text = some (.obj members)
  · obtain ⟨members, hread⟩ := hobject
    have hmembers := isWellFormed_of_parse? hread
    simp only [rowsOfRecord_of_parse? hread, hread, Option.some.injEq, Json.obj.injEq]
    refine ⟨⟨?_, ?_⟩, fun rows hrows => ?_, fun e he => ?_⟩
    · rintro ⟨rows, hrows⟩
      obtain ⟨hplan, plan, described, entries, -, -, hentries, hdescribed⟩ :=
        exists_of_planRows hmembers hrows
      refine ⟨members, entries, rfl, hplan, hentries, fun j hj => ?_⟩
      obtain ⟨row, tallies, hentry, -⟩ := exists_forall₂_iff.1 ⟨described, hdescribed⟩ j hj
      exact ⟨row.id, tallies, hentry⟩
    · rintro ⟨_, entries, rfl, hplan, hentries, h⟩
      exact exists_planRows hmembers hplan hentries h
    · obtain ⟨-, plan, described, entries, hrows⟩ := exists_of_planRows hmembers hrows
      exact ⟨members, plan, described, entries, rfl, hrows⟩
    · obtain ⟨kind, cause, hcause, hkind⟩ := planRows_error hmembers he
      refine ⟨kind, cause, hcause, hkind.trans ?_⟩
      simp
  · obtain ⟨cause, herror⟩ := exists_of_not_object hobject
    rw [herror]
    refine ⟨⟨?_, ?_⟩, fun rows h => ?_, fun e he => ?_⟩
    · rintro ⟨_, h⟩
      cases h
    · rintro ⟨members, _, hread, -⟩
      exact absurd ⟨members, hread⟩ hobject
    · cases h
    · cases he
      refine ⟨.plan, cause, rfl, fun h => ?_, ?_⟩
      · cases h
      · rintro ⟨members, hread, -⟩
        exact absurd ⟨members, hread⟩ hobject

example : planRows ⟨1, 2⟩ (.obj [
      ("entries", .arr [.arr [.str "e1"],
        .obj [("id", .str "e2"), ("runs", .arr [.obj [("failed_count", .int 2)], .arr [.int 1]])]]),
      ("id", .int 7)]) =
    .ok [.plan { connectionId := 1, id := 7, projectId := 2 },
      .planEntry { connectionId := 1, id := "e1", planId := 7, projectId := 2 },
      .planEntry {
        connectionId := 1, id := "e2", planId := 7, projectId := 2
        counts := { passed := 1, failed := 2 } }] := by
  rfl

end Plans

end Tool

end QaLake
