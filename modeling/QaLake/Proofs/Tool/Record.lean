import Mathlib.Data.List.Forall2
import QaLake.Tool.Record

namespace QaLake

def EntityKind.described : EntityKind → List EntityKind
  | .plan => [.plan, .planEntry]
  | kind => [kind]

theorem EntityKind.mem_described (kind : EntityKind) : kind ∈ kind.described := by
  cases kind <;> simp [described]

namespace Tool

theorem exists_of_bind_eq_ok {ε α β : Type} {x : Except ε α} {f : α → Except ε β} {b : β}
    (h : (x >>= f) = .ok b) : ∃ a, x = .ok a ∧ f a = .ok b := by
  cases x with
  | error e => cases h
  | ok a => exact ⟨a, rfl, h⟩

theorem eq_ok_of_mapError_eq_ok {ε ε' α : Type} {x : Except ε α} {f : ε → ε'} {a : α}
    (h : x.mapError f = .ok a) : x = .ok a := by
  cases x with
  | error e => cases h
  | ok b =>
    cases h
    rfl

theorem exists_of_mapError_eq_error {ε ε' α : Type} {x : Except ε α} {f : ε → ε'} {e' : ε'}
    (h : x.mapError f = .error e') : ∃ e, e' = f e := by
  cases x with
  | error e =>
    cases h
    exact ⟨e, rfl⟩
  | ok a => cases h

section Lists

variable {ε α β γ : Type}

theorem exists_forall₂_iff {R : α → β → Prop} {as : List α} :
    (∃ bs, List.Forall₂ R as bs) ↔ ∀ a ∈ as, ∃ b, R a b := by
  induction as with
  | nil => exact ⟨fun _ => List.forall_mem_nil _, fun _ => ⟨[], .nil⟩⟩
  | cons a rest ih =>
    rw [List.forall_mem_cons, ← ih]
    constructor
    · rintro ⟨_, hbs⟩
      cases hbs with
      | cons hb hrest => exact ⟨⟨_, hb⟩, _, hrest⟩
    · rintro ⟨⟨b, hb⟩, bs, hrest⟩
      exact ⟨b :: bs, .cons hb hrest⟩

theorem exists_mem_of_forall₂ {R : α → β → Prop} {as : List α} {bs : List β}
    (h : List.Forall₂ R as bs) {b : β} (hb : b ∈ bs) : ∃ a ∈ as, R a b := by
  induction h with
  | nil => cases hb
  | cons hfirst _ ih =>
    obtain rfl | hb := List.mem_cons.1 hb
    · exact ⟨_, List.mem_cons_self, hfirst⟩
    · obtain ⟨a, ha, hab⟩ := ih hb
      exact ⟨a, List.mem_cons_of_mem _ ha, hab⟩

theorem forall₂_comp {R : α → β → Prop} {S : β → γ → Prop} {T : α → γ → Prop}
    (h : ∀ a b c, R a b → S b c → T a c) {as : List α} {bs : List β} {cs : List γ}
    (hR : List.Forall₂ R as bs) (hS : List.Forall₂ S bs cs) : List.Forall₂ T as cs := by
  induction hR generalizing cs with
  | nil =>
    cases hS
    exact .nil
  | cons hab _ ih =>
    cases hS with
    | cons hbc hrest => exact .cons (h _ _ _ hab hbc) (ih hrest)

theorem mapM_eq_ok_iff {f : α → Except ε β} {l : List α} {l' : List β} :
    l.mapM f = .ok l' ↔ List.Forall₂ (fun a b => f a = .ok b) l l' := by
  induction l generalizing l' with
  | nil =>
    rw [List.mapM_nil, List.forall₂_nil_left_iff]
    exact ⟨fun h => (Except.ok.inj h).symm, fun h => h ▸ rfl⟩
  | cons a l ih =>
    rw [List.mapM_cons, List.forall₂_cons_left_iff]
    constructor
    · intro h
      obtain ⟨first, hfirst, h⟩ := exists_of_bind_eq_ok h
      obtain ⟨rest, hrest, h⟩ := exists_of_bind_eq_ok h
      cases h
      exact ⟨first, rest, hfirst, ih.1 hrest, rfl⟩
    · rintro ⟨first, rest, hfirst, hrest, rfl⟩
      rw [hfirst, ih.2 hrest]
      rfl

theorem exists_of_mapM_eq_ok {f : α → Except ε β} {l : List α} {l' : List β}
    (h : l.mapM f = .ok l') {b : β} (hb : b ∈ l') : ∃ a ∈ l, f a = .ok b :=
  exists_mem_of_forall₂ (mapM_eq_ok_iff.1 h) hb

theorem exists_of_mapM_eq_error {f : α → Except ε β} {l : List α} {e : ε}
    (h : l.mapM f = .error e) :
    ∃ good bad rest read, l = good ++ bad :: rest ∧ good.mapM f = .ok read ∧ f bad = .error e := by
  induction l with
  | nil => cases h
  | cons a l ih =>
    rw [List.mapM_cons] at h
    cases ha : f a with
    | error e' =>
      rw [ha] at h
      cases h
      exact ⟨[], a, l, [], rfl, rfl, ha⟩
    | ok b =>
      cases hl : l.mapM f with
      | ok bs =>
        rw [ha, hl] at h
        cases h
      | error e' =>
        rw [ha, hl] at h
        cases h
        obtain ⟨good, bad, rest, read, rfl, hgood, hbad⟩ := ih hl
        refine ⟨a :: good, bad, rest, b :: read, rfl, ?_, hbad⟩
        rw [List.mapM_cons, ha, hgood]
        rfl

end Lists

section Rows

def Row.project? : Row → Option Int
  | .suite r => some r.projectId
  | .testSection r => some r.projectId
  | .milestone r => some r.projectId
  | .plan r => some r.projectId
  | .planEntry r => some r.projectId
  | .run r => some r.projectId
  | .result r => some r.projectId
  | .case r => some r.projectId
  | .project _ | .user _ | .caseField _ | .caseType _ | .priority _ | .status _ => none

structure Row.IsOf (scope : RunScope) (r : Row) : Prop where
  connection : r.connectionId = scope.connection
  project : r.kind.isProjectScoped = true → r.project? = some scope.project

variable {scope : RunScope} {kind : EntityKind} {rows : List Row} {r : Row}

theorem isOf_of_ofPayload {plan : Plan} {payload : EntryPayload} {entry : PlanEntry}
    (h : PlanEntry.ofPayload scope plan payload = .ok entry) :
    (Row.planEntry entry).IsOf scope := by
  rw [PlanEntry.ofPayload] at h
  by_cases hid : payload.id.isEmpty = true
  · rw [if_pos hid] at h
    cases h
  · rw [if_neg hid] at h
    cases h
    exact ⟨rfl, fun _ => rfl⟩

theorem mem_planRows {data : Json} (h : planRows scope data = .ok rows) (hr : r ∈ rows) :
    r.kind ∈ EntityKind.described .plan ∧ r.IsOf scope := by
  rw [planRows] at h
  obtain ⟨plan, -, h⟩ := exists_of_bind_eq_ok h
  obtain ⟨counts, -, h⟩ := exists_of_bind_eq_ok h
  obtain ⟨entries, -, h⟩ := exists_of_bind_eq_ok h
  obtain ⟨described, hdescribed, h⟩ := exists_of_bind_eq_ok h
  cases h
  obtain rfl | hr := List.mem_cons.1 hr
  · exact ⟨by simp [Row.kind, EntityKind.described], rfl, fun _ => rfl⟩
  · obtain ⟨entry, hentry, rfl⟩ := List.mem_map.1 hr
    obtain ⟨payload, -, hpayload⟩ := exists_of_mapM_eq_ok hdescribed hentry
    exact ⟨by simp [Row.kind, EntityKind.described], isOf_of_ofPayload hpayload⟩

theorem mem_rowsOfObject {input : Option String} {members : List (String × Json)}
    (h : rowsOfObject kind scope input members = .ok rows) (hr : r ∈ rows) :
    r.kind ∈ kind.described ∧ r.IsOf scope := by
  cases kind with
  | plan => exact mem_planRows h hr
  | planEntry => cases h
  | run =>
    obtain ⟨row, hrow, h⟩ := exists_of_bind_eq_ok h
    cases h
    obtain ⟨run, -, hrow⟩ := exists_of_bind_eq_ok hrow
    obtain ⟨counts, -, hrow⟩ := exists_of_bind_eq_ok hrow
    cases hrow
    rw [List.mem_singleton.1 hr]
    exact ⟨List.mem_singleton_self _, rfl, fun _ => rfl⟩
  | suite | testSection | milestone | result | case =>
    obtain ⟨payload, -, h⟩ := exists_of_bind_eq_ok h
    cases h
    rw [List.mem_singleton.1 hr]
    exact ⟨List.mem_singleton_self _, rfl, fun _ => rfl⟩
  | project | user | caseField | caseType | priority | status =>
    obtain ⟨payload, -, h⟩ := exists_of_bind_eq_ok h
    cases h
    rw [List.mem_singleton.1 hr]
    exact ⟨List.mem_singleton_self _, rfl, fun h => nomatch h⟩

/-- The rows of a record are of the kinds that it describes, and they belong to the scope. -/
theorem mem_rowsOfRecord {data : String} {input : Option String}
    (h : rowsOfRecord kind scope data input = .ok rows) (hr : r ∈ rows) :
    r.kind ∈ kind.described ∧ r.IsOf scope := by
  rw [rowsOfRecord] at h
  split at h
  · cases h
  · exact mem_rowsOfObject h hr
  · cases h

end Rows

section Errors

/-- Whether a reading of a record of a kind can go wrong with a parse error only. -/
def OnlyParses {α : Type} (kind : EntityKind) (x : Except Error α) : Prop :=
  ∀ e, x = .error e → ∃ k ∈ kind.described, ∃ cause, e = .parse k cause

variable {α β : Type} {kind : EntityKind}

theorem onlyParses_ok (a : α) : OnlyParses kind (.ok a) := by
  intro e h
  cases h

theorem onlyParses_parse {k : EntityKind} (hk : k ∈ kind.described) (cause : RecordFault) :
    OnlyParses kind (.error (.parse k cause) : Except Error α) := by
  intro e h
  cases h
  exact ⟨k, hk, cause, rfl⟩

theorem onlyParses_bind {x : Except Error α} {f : α → Except Error β} (hx : OnlyParses kind x)
    (hf : ∀ a, OnlyParses kind (f a)) : OnlyParses kind (x >>= f) := by
  intro e h
  cases x with
  | error e' =>
    cases h
    exact hx e rfl
  | ok a => exact hf a e h

theorem onlyParses_mapM {f : α → Except Error β} (hf : ∀ a, OnlyParses kind (f a)) (l : List α) :
    OnlyParses kind (l.mapM f) := by
  induction l with
  | nil => exact onlyParses_ok []
  | cons a l ih =>
    rw [List.mapM_cons]
    exact onlyParses_bind (hf a) fun b => onlyParses_bind ih fun bs => onlyParses_ok _

theorem onlyParses_mapError {k : EntityKind} (hk : k ∈ kind.described) (x : Except Json.Fault α) :
    OnlyParses kind (x.mapError fun f => .parse k (.undecodable f)) := by
  cases x with
  | error f => exact onlyParses_parse hk _
  | ok a => exact onlyParses_ok a

theorem onlyParses_decodePayload (shape : Json.Shape α) (data : Json) :
    OnlyParses kind (decodePayload kind shape data) :=
  onlyParses_mapError kind.mem_described _

theorem onlyParses_ofPayload (scope : RunScope) (plan : Plan) (payload : EntryPayload) :
    OnlyParses .plan (PlanEntry.ofPayload scope plan payload) := by
  rw [PlanEntry.ofPayload]
  by_cases hid : payload.id.isEmpty = true
  · rw [if_pos hid]
    exact onlyParses_parse (by decide) _
  · rw [if_neg hid]
    exact onlyParses_ok _

theorem onlyParses_rowsOfObject (kind : EntityKind) (scope : RunScope) (input : Option String)
    (members : List (String × Json)) : OnlyParses kind (rowsOfObject kind scope input members) := by
  cases kind with
  | plan =>
    refine onlyParses_bind (onlyParses_decodePayload _ _) fun plan => ?_
    refine onlyParses_bind (onlyParses_decodePayload _ _) fun counts => ?_
    refine onlyParses_bind (onlyParses_mapError (by decide) _) fun entries => ?_
    refine onlyParses_bind (onlyParses_mapM (onlyParses_ofPayload scope _) _) fun rows => ?_
    exact onlyParses_ok _
  | planEntry => exact onlyParses_parse (by decide) _
  | run =>
    refine onlyParses_bind ?_ fun row => onlyParses_ok _
    refine onlyParses_bind (onlyParses_decodePayload _ _) fun run => ?_
    exact onlyParses_bind (onlyParses_decodePayload _ _) fun counts => onlyParses_ok _
  | project | suite | testSection | milestone | result | case | user | caseField | caseType
  | priority | status =>
    exact onlyParses_bind (onlyParses_decodePayload _ _) fun payload => onlyParses_ok _

/-- A record that describes no rows is a parse error of a kind that it would describe. -/
theorem onlyParses_rowsOfRecord (kind : EntityKind) (scope : RunScope) (data : String)
    (input : Option String) : OnlyParses kind (rowsOfRecord kind scope data input) := by
  rw [rowsOfRecord]
  split
  · exact onlyParses_parse kind.mem_described _
  · exact onlyParses_rowsOfObject kind scope input _
  · exact onlyParses_parse kind.mem_described _

end Errors

end Tool

end QaLake
