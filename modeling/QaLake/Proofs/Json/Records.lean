import Mathlib.Data.List.Nodup
import QaLake.Json.Decode
import QaLake.Proofs.Json.WellFormed

namespace QaLake

namespace Keyed

variable {κ α : Type} [DecidableEq κ]

theorem get?_eq_some_iff {entries : List (κ × α)} (h : (entries.map Prod.fst).Nodup) {k : κ}
    {v : α} : get? k entries = some v ↔ (k, v) ∈ entries := by
  induction entries with
  | nil => simp [get?]
  | cons e rest ih =>
    rw [List.map_cons, List.nodup_cons] at h
    by_cases he : e.1 = k
    · rw [get?, if_pos he, List.mem_cons, Option.some.injEq]
      constructor
      · rintro rfl
        exact .inl (by rw [← he])
      · rintro (rfl | hm)
        · rfl
        · exact absurd (List.mem_map_of_mem (f := Prod.fst) hm) (he ▸ h.1)
    · rw [get?, if_neg he, ih h.2, List.mem_cons]
      constructor
      · exact .inr
      · rintro (rfl | hm)
        · exact absurd rfl he
        · exact hm

theorem get?_eq_none_iff {entries : List (κ × α)} {k : κ} :
    get? k entries = none ↔ ∀ e ∈ entries, e.1 ≠ k := by
  induction entries with
  | nil => simp [get?]
  | cons e rest ih =>
    by_cases he : e.1 = k
    · simp [get?, he]
    · rw [get?, if_neg he, ih]
      simp [he]

omit [DecidableEq κ] in
theorem nodup_of_sorted [KeyOrder κ] {entries : List (κ × α)} (h : Sorted entries) :
    (entries.map Prod.fst).Nodup := by
  refine List.pairwise_map.2 (h.imp fun hbefore he => ?_)
  rw [he, KeyOrder.irrefl] at hbefore
  cases hbefore

end Keyed

namespace Json

variable {σ α β : Type}

theorem ofItems_eq_map (items : List Json) :
    Document.ofItems items = items.map Document.ofJson := by
  induction items with
  | nil => rfl
  | cons item rest ih => rw [Document.ofItems, List.map_cons, ih]

theorem itemsWellFormed_iff {items : List Json} :
    ItemsWellFormed items ↔ ∀ item ∈ items, item.IsWellFormed := by
  induction items with
  | nil => simp [ItemsWellFormed]
  | cons item rest ih => simp [ItemsWellFormed, ih]

theorem Decoder.eq_num_of_int64 {d : Document} {n : Int} (h : Decoder.int64 d = .ok n) :
    d = .num (some (.int n)) ∧ Word.IsSigned n := by
  unfold int64 integer at h
  split at h
  · split at h
    · rename_i hrange
      cases h
      exact ⟨rfl, hrange⟩
    · cases h
  · unfold wrongType at h
    split at h <;> cases h

theorem Decoder.int64_eq_ok_iff {v : Json} {n : Int} :
    Decoder.int64 (.ofJson v) = .ok n ↔ v = .int n ∧ Word.IsSigned n := by
  constructor
  · intro h
    obtain ⟨hv, hrange⟩ := eq_num_of_int64 h
    refine ⟨?_, hrange⟩
    cases v with
    | num k =>
      cases hv
      rfl
    | _ => cases hv
  · rintro ⟨rfl, hrange⟩
    exact if_pos hrange

/-- Whether a number is what is written under a name, or zero where nothing is. -/
def NumberAt (name : String) (members : List (String × Json)) (n : Int) : Prop :=
  (Keyed.get? name members).getD (.int 0) = .int n

theorem NumberAt.unique {name : String} {members : List (String × Json)} {n n' : Int}
    (h : NumberAt name members n) (h' : NumberAt name members n') : n = n' :=
  Number.int.inj (Json.num.inj (h.symm.trans h'))

namespace RecordField

/-- Whether a field reads values with a decoder and keeps its default where nothing is written. -/
def IsOptional (f : RecordField σ) : Prop :=
  ∃ (α : Type) (dec : Decoder α) (put : α → σ → σ), f = .of f.name dec put .default

/-- Whether a field holds a part of a record, read by a decoder. -/
def Reads (f : RecordField σ) (dec : Decoder α) (get : σ → α) : Prop :=
  ∀ d r r', f.read d r = .ok r' → dec d = .ok (get r')

def Keeps (f : RecordField σ) (get : σ → α) : Prop :=
  ∀ d r r', f.read d r = .ok r' → get r' = get r

/-- Whether it makes no difference if a view of a record is taken before or after a field is read.
-/
def Respects (f : RecordField σ) (view : σ → σ) : Prop :=
  ∀ d r, (f.read d r).map view = f.read d (view r)

/-- Whether a field makes something of a value, whatever record it is read into. -/
def Accepts (f : RecordField σ) (v : Json) : Prop :=
  ∀ r, ∃ r', f.read (.ofJson v) r = .ok r'

variable {name : String} {dec : Decoder α} {put : α → σ → σ} {absence : Absence}

theorem exists_of_read {d : Document} {r r' : σ}
    (h : (RecordField.of name dec put absence).read d r = .ok r') :
    ∃ a, dec d = .ok a ∧ r' = put a r := by
  change (dec d).map (fun a => put a r) = .ok r' at h
  cases ha : dec d with
  | error e =>
    rw [ha] at h
    cases h
  | ok a =>
    rw [ha] at h
    cases h
    exact ⟨a, rfl, rfl⟩

theorem reads_of {get : σ → α} (h : ∀ a r, get (put a r) = a) :
    (RecordField.of name dec put absence).Reads dec get := by
  intro d r r' hread
  obtain ⟨a, ha, rfl⟩ := exists_of_read hread
  rw [ha, h]

@[simp]
theorem keeps_of {get : σ → β} (h : ∀ a r, get (put a r) = get r) :
    (RecordField.of name dec put absence).Keeps get := by
  intro d r r' hread
  obtain ⟨a, -, rfl⟩ := exists_of_read hread
  exact h a r

@[simp]
theorem respects_of {view : σ → σ} (h : ∀ a r, view (put a r) = put a (view r)) :
    (RecordField.of name dec put absence).Respects view := by
  intro d r
  change ((dec d).map fun a => put a r).map view = (dec d).map fun a => put a (view r)
  cases dec d with
  | error e => rfl
  | ok a => exact congrArg Except.ok (h a r)

theorem respects_id (f : RecordField σ) : f.Respects id := by
  intro d r
  rw [Except.map_id]
  rfl

@[simp]
theorem isOptional_of : (RecordField.of name dec put .default).IsOptional :=
  ⟨_, dec, put, rfl⟩

theorem IsOptional.accepts {f : RecordField σ} (hf : f.IsOptional) {v : Json} {r r' : σ}
    (h : f.read (.ofJson v) r = .ok r') : f.Accepts v := by
  obtain ⟨α, dec, put, hf⟩ := hf
  rw [hf] at h
  obtain ⟨a, ha, -⟩ := exists_of_read h
  intro s
  refine ⟨put a s, ?_⟩
  rw [hf]
  change (dec (.ofJson v)).map (fun a => put a s) = .ok (put a s)
  rw [ha]
  rfl

theorem IsOptional.absence_eq {f : RecordField σ} (hf : f.IsOptional) : f.absence = .default := by
  obtain ⟨α, dec, put, hf⟩ := hf
  rw [hf]
  rfl

end RecordField

namespace Shape

variable (shape : Shape σ)

/-- Whether a record consists of optional fields of different names. -/
structure IsOptional : Prop where
  fields : ∀ f ∈ shape.fields, f.IsOptional
  names : (shape.fields.map RecordField.name).Nodup

/-- The members that are written for a record: those of an object, or the items of an array under
the names of the fields in their order. -/
def members? : Json → Option (List (String × Json))
  | .obj members => some members
  | .arr items =>
    if items.length ≤ shape.fields.length then
      some ((shape.fields.map RecordField.name).zip items)
    else none
  | _ => none

/-- The record with a member read into it, if it is one of its fields. -/
def readMember (r : σ) (m : String × Json) : Except Fault σ :=
  match shape.field? m.1 with
  | none => .ok r
  | some f => f.read (.ofJson m.2) r

def Accepts (members : List (String × Json)) : Prop :=
  ∀ f ∈ shape.fields, ∀ v, (f.name, v) ∈ members → f.Accepts v

/-- Whether a part of a record is what one of its fields reads. -/
structure Holds (name : String) (dec : Decoder α) (get : σ → α) : Prop where
  field : ∃ f ∈ shape.fields, f.name = name ∧ f.Reads dec get
  others : ∀ f ∈ shape.fields, f.name ≠ name → f.Keeps get

variable {shape}

theorem Holds.of_split {name : String} {dec : Decoder α} {put : α → σ → σ} {absence : Absence}
    {get : σ → α} (before : List (RecordField σ)) {behind : List (RecordField σ)}
    (hfields : shape.fields = before ++ .of name dec put absence :: behind)
    (hput : ∀ a r, get (put a r) = a) (hbefore : ∀ f ∈ before, f.Keeps get)
    (hbehind : ∀ f ∈ behind, f.Keeps get) : shape.Holds name dec get := by
  constructor
  · exact ⟨_, hfields ▸ List.mem_append_right before List.mem_cons_self, rfl,
      RecordField.reads_of hput⟩
  · intro f hf hname
    rw [hfields, List.mem_append, List.mem_cons] at hf
    obtain hf | rfl | hf := hf
    · exact hbefore f hf
    · exact absurd rfl hname
    · exact hbehind f hf

theorem field?_eq_some (hnames : (shape.fields.map RecordField.name).Nodup) {f : RecordField σ}
    (hf : f ∈ shape.fields) : shape.field? f.name = some f := by
  rw [field?]
  generalize shape.fields = fields at hnames hf
  induction fields with
  | nil => cases hf
  | cons g fs ih =>
    obtain ⟨hfirst, hrest⟩ := List.nodup_cons.1 hnames
    obtain rfl | hf := List.mem_cons.1 hf
    · exact List.find?_cons_of_pos (beq_self_eq_true _)
    · have hne : g.name ≠ f.name := fun he => hfirst (he ▸ List.mem_map_of_mem hf)
      rw [List.find?_cons_of_neg (by simpa using hne)]
      exact ih hrest hf

theorem mem_of_field? {name : String} {f : RecordField σ} (h : shape.field? name = some f) :
    f ∈ shape.fields ∧ f.name = name :=
  ⟨List.mem_of_find?_eq_some h, by simpa using List.find?_some h⟩

theorem readMembers_ofMembers {members : List (String × Json)} {seen : List String}
    (hnames : (members.map Prod.fst).Nodup) (hseen : ∀ m ∈ members, m.1 ∉ seen) (r : σ) :
    (shape.readMembers (Document.ofMembers members) seen r).map Prod.snd =
      members.foldlM shape.readMember r := by
  induction members generalizing seen r with
  | nil => rfl
  | cons m rest ih =>
    obtain ⟨name, v⟩ := m
    obtain ⟨hfirst, hrest⟩ := List.nodup_cons.1 hnames
    have hnew : seen.contains name = false := by simpa using hseen _ List.mem_cons_self
    have hlater : ∀ m ∈ rest, m.1 ∉ seen := fun m hm => hseen m (List.mem_cons_of_mem _ hm)
    rw [Document.ofMembers, readMembers, List.foldlM_cons, readMember]
    cases hfield : shape.field? name with
    | none => exact ih hrest hlater r
    | some f =>
      simp only [hnew, Bool.false_eq_true, if_false]
      cases hread : f.read (.ofJson v) r with
      | error e => rfl
      | ok r' =>
        refine ih hrest (fun m hm => ?_) r'
        rw [List.mem_cons, not_or]
        exact ⟨fun he => hfirst (List.mem_map.2 ⟨m, hm, he⟩), hlater m hm⟩

theorem ofMembers_eq (hshape : shape.IsOptional) {members : List (String × Json)}
    (hnames : (members.map Prod.fst).Nodup) :
    shape.ofMembers (Document.ofMembers members) =
      members.foldlM shape.readMember shape.blank := by
  rw [← readMembers_ofMembers hnames (fun _ _ => List.not_mem_nil), ofMembers]
  cases shape.readMembers (Document.ofMembers members) [] shape.blank with
  | error e => rfl
  | ok p =>
    obtain ⟨seen, r⟩ := p
    have hnone : shape.fields.find? (fun f => f.absence = .required && !seen.contains f.name) =
        none := by
      refine List.find?_eq_none.2 fun f hf => ?_
      simp [(hshape.fields f hf).absence_eq]
    simp only [bind, Except.bind, hnone]
    rfl

theorem readItems_eq (expected : String) (total : Nat) {fields : List (RecordField σ)}
    (hfields : ∀ f ∈ fields, f.absence = .default ∧ shape.field? f.name = some f)
    (items : List Json) (r : σ) :
    readItems expected total fields (Document.ofItems items) r =
      ((fields.map RecordField.name).zip items).foldlM shape.readMember r := by
  induction fields generalizing items r with
  | nil => cases items <;> rfl
  | cons f fs ih =>
    obtain ⟨habsence, hfield⟩ := hfields f List.mem_cons_self
    have hrest := fun g hg => hfields g (List.mem_cons_of_mem _ hg)
    cases items with
    | nil =>
      have hnil := ih hrest [] r
      rw [Document.ofItems, List.zip_nil_right] at hnil
      rw [Document.ofItems, readItems, if_pos habsence, List.zip_nil_right]
      exact hnil
    | cons item items =>
      rw [Document.ofItems, readItems, List.map_cons, List.zip_cons_cons, List.foldlM_cons,
        readMember, hfield]
      cases hread : f.read (.ofJson item) r with
      | error e => simp only [hread]; rfl
      | ok r' => simp only [hread]; exact ih hrest items r'

theorem decode_obj (hshape : shape.IsOptional) {members : List (String × Json)}
    (hmembers : (Json.obj members).IsWellFormed) (medium : Medium) :
    shape.decode medium (.ofJson (.obj members)) = members.foldlM shape.readMember shape.blank :=
  ofMembers_eq hshape (Keyed.nodup_of_sorted hmembers.1)

theorem decode_eq_ok_iff (hshape : shape.IsOptional) {j : Json} (hj : j.IsWellFormed) {r : σ} :
    shape.decode .value (.ofJson j) = .ok r ↔
      ∃ members, shape.members? j = some members ∧
        members.foldlM shape.readMember shape.blank = .ok r := by
  cases j with
  | null => simp [members?, Document.ofJson, decode, Decoder.wrongType]
  | bool b => cases b <;> simp [members?, Document.ofJson, decode, Decoder.wrongType]
  | num n => cases n <;> simp [members?, Document.ofJson, decode, Decoder.wrongType]
  | str s => simp [members?, Document.ofJson, decode, Decoder.wrongType]
  | obj members =>
    rw [decode_obj hshape hj]
    simp [members?]
  | arr items =>
    have hread := readItems_eq shape.expectedLength shape.fields.length
      (fun f hf => ⟨(hshape.fields f hf).absence_eq, field?_eq_some hshape.names hf⟩) items
      shape.blank
    rw [Document.ofJson, decode, ofItems, hread, members?]
    have hdrop := List.drop_eq_nil_iff (l := Document.ofItems items) (i := shape.fields.length)
    rw [ofItems_eq_map, List.length_map, ← ofItems_eq_map] at hdrop
    by_cases hlength : items.length ≤ shape.fields.length
    · rw [if_pos hlength, hdrop.2 hlength]
      simp only [Option.some.injEq, exists_eq_left']
      cases ((shape.fields.map RecordField.name).zip items).foldlM shape.readMember shape.blank <;>
        exact Iff.rfl
    · rw [if_neg hlength]
      obtain ⟨surplus, rest, hsurplus⟩ := List.exists_cons_of_ne_nil (mt hdrop.1 hlength)
      rw [hsurplus]
      cases ((shape.fields.map RecordField.name).zip items).foldlM shape.readMember shape.blank <;>
        simp [bind, Except.bind, throw, throwThe, MonadExceptOf.throw]

theorem map_fst_zip_sublist (names : List α) (items : List β) :
    ((names.zip items).map Prod.fst).Sublist names := by
  induction names generalizing items with
  | nil => exact List.Sublist.slnil
  | cons name names ih =>
    cases items with
    | nil => exact List.nil_sublist _
    | cons item items => exact (ih items).cons_cons name

theorem nodup_of_members? (hshape : shape.IsOptional) {j : Json} (hj : j.IsWellFormed)
    {members : List (String × Json)} (h : shape.members? j = some members) :
    (members.map Prod.fst).Nodup := by
  cases j with
  | null | bool _ | num _ | str _ => cases h
  | obj written =>
    cases h
    exact Keyed.nodup_of_sorted hj.1
  | arr items =>
    rw [members?] at h
    split at h
    · rename_i hlength
      cases h
      exact (map_fst_zip_sublist _ items).nodup hshape.names
    · cases h

theorem wellFormed_of_members? {j : Json} (hj : j.IsWellFormed) {members : List (String × Json)}
    (h : shape.members? j = some members) {m : String × Json} (hm : m ∈ members) :
    m.2.IsWellFormed := by
  cases j with
  | null | bool _ | num _ | str _ => cases h
  | obj written =>
    cases h
    exact membersWellFormed_iff.1 hj.2 m hm
  | arr items =>
    rw [members?] at h
    split at h
    · cases h
      exact itemsWellFormed_iff.1 hj m.2 (List.of_mem_zip hm).2
    · cases h

section Reading

variable {members : List (String × Json)}

theorem accepts_cons (hnames : (shape.fields.map RecordField.name).Nodup) {m : String × Json} :
    shape.Accepts (m :: members) ↔
      (∀ f, shape.field? m.1 = some f → f.Accepts m.2) ∧ shape.Accepts members := by
  constructor
  · intro h
    refine ⟨fun f hfield => ?_, fun f hf v hv => h f hf v (List.mem_cons_of_mem _ hv)⟩
    obtain ⟨hf, hname⟩ := mem_of_field? hfield
    exact h f hf m.2 (hname ▸ List.mem_cons_self)
  · rintro ⟨hfirst, hrest⟩ f hf v hv
    obtain hv | hv := List.mem_cons.1 hv
    · subst hv
      exact hfirst f (field?_eq_some hnames hf)
    · exact hrest f hf v hv

theorem exists_foldlM_iff (hshape : shape.IsOptional) (r : σ) :
    (∃ r', members.foldlM shape.readMember r = .ok r') ↔ shape.Accepts members := by
  induction members generalizing r with
  | nil => exact ⟨fun _ f _ v hv => absurd hv List.not_mem_nil, fun _ => ⟨r, rfl⟩⟩
  | cons m rest ih =>
    rw [accepts_cons hshape.names, List.foldlM_cons, readMember]
    cases hfield : shape.field? m.1 with
    | none =>
      exact (ih r).trans ⟨fun h => ⟨fun f hf => (nomatch hf), h⟩, fun h => h.2⟩
    | some f =>
      simp only [Option.some.injEq, forall_eq']
      cases hread : f.read (.ofJson m.2) r with
      | ok r' =>
        have haccepts := (hshape.fields f (mem_of_field? hfield).1).accepts hread
        exact (ih r').trans ⟨fun h => ⟨haccepts, h⟩, fun h => h.2⟩
      | error e =>
        refine ⟨fun ⟨_, h⟩ => (nomatch h), fun ⟨haccepts, _⟩ => ?_⟩
        obtain ⟨r', hr'⟩ := haccepts r
        rw [hread] at hr'
        cases hr'

theorem Holds.get_of_absent {name : String} {dec : Decoder α} {get : σ → α}
    (h : shape.Holds name dec get) (habsent : ∀ m ∈ members, m.1 ≠ name) {r r' : σ}
    (hr : members.foldlM shape.readMember r = .ok r') : get r' = get r := by
  induction members generalizing r with
  | nil =>
    cases hr
    rfl
  | cons m rest ih =>
    have hrest := fun m' hm' => habsent m' (List.mem_cons_of_mem _ hm')
    rw [List.foldlM_cons, readMember] at hr
    cases hfield : shape.field? m.1 with
    | none =>
      rw [hfield] at hr
      exact ih hrest hr
    | some f =>
      obtain ⟨hf, hname⟩ := mem_of_field? hfield
      simp only [hfield] at hr
      cases hread : f.read (.ofJson m.2) r with
      | error e =>
        rw [hread] at hr
        cases hr
      | ok r₁ =>
        rw [hread] at hr
        have hkept := h.others f hf (hname ▸ habsent m List.mem_cons_self) _ _ _ hread
        exact (ih hrest hr).trans hkept

theorem Holds.read_of_mem {name : String} {dec : Decoder α} {get : σ → α}
    (h : shape.Holds name dec get) (hshape : shape.IsOptional)
    (hnames : (members.map Prod.fst).Nodup) {v : Json} (hv : (name, v) ∈ members) {r r' : σ}
    (hr : members.foldlM shape.readMember r = .ok r') : dec (.ofJson v) = .ok (get r') := by
  -- The member is read once, and what stands behind it has other names and leaves the part alone.
  obtain ⟨before, behind, rfl⟩ := List.append_of_mem hv
  rw [List.map_append, List.map_cons] at hnames
  have hfirst := (List.nodup_cons.1 (List.nodup_append.1 hnames).2.1).1
  have hbehind : ∀ m ∈ behind, m.1 ≠ name := fun m hm he => hfirst (List.mem_map.2 ⟨m, hm, he⟩)
  obtain ⟨f, hf, hname, hreads⟩ := h.field
  rw [List.foldlM_append] at hr
  cases hbefore : before.foldlM shape.readMember r with
  | error e =>
    rw [hbefore] at hr
    cases hr
  | ok r₁ =>
    rw [hbefore] at hr
    change ((name, v) :: behind).foldlM shape.readMember r₁ = .ok r' at hr
    have hfield := field?_eq_some hshape.names hf
    rw [hname] at hfield
    simp only [List.foldlM_cons, readMember, hfield] at hr
    cases hread : f.read (.ofJson v) r₁ with
    | error e =>
      rw [hread] at hr
      cases hr
    | ok r₂ =>
      rw [hread] at hr
      rw [h.get_of_absent hbehind hr]
      exact hreads _ _ _ hread

theorem Holds.numberAt {name : String} {get : σ → Int} (h : shape.Holds name Decoder.int64 get)
    (hshape : shape.IsOptional) (hblank : get shape.blank = 0)
    (hnames : (members.map Prod.fst).Nodup) {r : σ}
    (hr : members.foldlM shape.readMember shape.blank = .ok r) : NumberAt name members (get r) := by
  rw [NumberAt]
  cases hv : Keyed.get? name members with
  | none => rw [h.get_of_absent (Keyed.get?_eq_none_iff.1 hv) hr, hblank, Option.getD_none]
  | some v =>
    have hread := h.read_of_mem hshape hnames ((Keyed.get?_eq_some_iff hnames).1 hv) hr
    exact (Decoder.int64_eq_ok_iff.1 hread).1

/-- What a view does not show of a record may be left out of what is written for it. -/
theorem map_foldlM {view : σ → σ} {shown : String → Bool}
    (hshown : ∀ f ∈ shape.fields, shown f.name = true → f.Respects view)
    (hhidden : ∀ m ∈ members, shown m.1 = false → ∀ r,
      (shape.readMember r m).map view = .ok (view r)) (r : σ) :
    (members.foldlM shape.readMember r).map view =
      (members.filter (shown ·.1)).foldlM shape.readMember (view r) := by
  induction members generalizing r with
  | nil => rfl
  | cons m rest ih =>
    -- A member that is shown moves the view as it moves the record; one that is hidden moves the
    -- record within the view.
    have hrest := ih fun m' hm' => hhidden m' (List.mem_cons_of_mem _ hm')
    rw [List.foldlM_cons]
    by_cases hm : shown m.1 = true
    · have hstep : (shape.readMember r m).map view = shape.readMember (view r) m := by
        rw [readMember, readMember]
        cases hfield : shape.field? m.1 with
        | none => rfl
        | some f =>
          obtain ⟨hf, hname⟩ := mem_of_field? hfield
          exact hshown f hf (hname ▸ hm) _ r
      rw [List.filter_cons_of_pos (by exact hm), List.foldlM_cons, ← hstep]
      cases shape.readMember r m with
      | error e => rfl
      | ok r' => exact hrest r'
    · have hstep := hhidden m List.mem_cons_self (by simpa using hm) r
      rw [List.filter_cons_of_neg (by exact hm), ← hrest]
      cases hread : shape.readMember r m with
      | error e =>
        rw [hread] at hstep
        cases hstep
      | ok r' =>
        rw [hread] at hstep
        have hview : view r' = view r := Except.ok.inj hstep
        exact (hrest r').trans (hview ▸ (hrest r).symm)

end Reading

end Shape

end Json

end QaLake
