import Mathlib.Data.List.Perm.Basic
import QaLake.Proofs.Json.Members

namespace QaLake.Json.Shape

variable {σ : Type}

section Definitions

variable (shape : Shape σ)

def IsRequired : Prop :=
  ∀ f ∈ shape.fields, f.absence = .required

/-- Whether members are those of the fields of a record, in the order of the description. -/
def AreFields (members : List (Option String × Document)) : Prop :=
  members.map Prod.fst = shape.fields.map fun f => some f.name

def AreOthers (members : List (Option String × Document)) : Prop :=
  ∀ m ∈ members, ∃ name, m.1 = some name ∧ shape.field? name = none

/-- Whether the items of an array are read as a record, one for each field. -/
def ReadsItems (items : List Document) (r : σ) : Prop :=
  items.length = shape.fields.length ∧
    readItems shape.expectedLength shape.fields.length shape.fields items shape.blank = .ok r

end Definitions

variable {shape : Shape σ} {members others : List (Option String × Document)} {r : σ}

theorem AreOthers.fieldsOf_eq (h : shape.AreOthers others) : shape.fieldsOf others = [] := by
  refine List.filterMap_eq_nil_iff.2 fun m hm => ?_
  obtain ⟨name, hname, hnone⟩ := h m hm
  simp [hname, hnone]

theorem AreOthers.foldlM_eq (h : shape.AreOthers others) (r : σ) :
    others.foldlM shape.readWritten r = .ok r := by
  induction others with
  | nil => rfl
  | cons m rest ih =>
    obtain ⟨hm, hrest⟩ := List.forall_mem_cons.1 h
    obtain ⟨name?, d⟩ := m
    obtain ⟨name, rfl, hnone⟩ := hm
    rw [List.foldlM_cons, readWritten_of_none hnone]
    exact ih hrest

theorem AreFields.fieldsOf_eq (hshape : shape.IsUnordered) (h : shape.AreFields members) :
    shape.fieldsOf members = shape.fields.map RecordField.name := by
  have hnames : shape.fieldsOf members = (members.map Prod.fst).filterMap
      fun name? => name?.filter fun name => (shape.field? name).isSome := by
    rw [List.filterMap_map]
    rfl
  rw [hnames, h, List.filterMap_map, ← List.filterMap_eq_map]
  refine List.filterMap_congr fun f hf => ?_
  simp [field?_eq_some hshape.names hf]

theorem AreFields.foldlM_eq (hshape : shape.IsUnordered) (h : shape.AreFields members)
    (expected : String) (total : Nat) (r : σ) :
    members.foldlM shape.readWritten r =
      readItems expected total shape.fields (members.map Prod.snd) r := by
  have hfields : ∀ f ∈ shape.fields, shape.field? f.name = some f :=
    fun f hf => field?_eq_some hshape.names hf
  unfold AreFields at h
  generalize shape.fields = fields at h hfields
  induction fields generalizing members r with
  | nil =>
    obtain rfl := List.map_eq_nil_iff.1 h
    rfl
  | cons f fields ih =>
    obtain ⟨m, rest, rfl, hm, hrest⟩ := List.map_eq_cons_iff.1 h
    obtain ⟨_, d⟩ := m
    obtain rfl := hm
    obtain ⟨hf, hfields⟩ := List.forall_mem_cons.1 hfields
    rw [List.foldlM_cons, readWritten_of_some hf, List.map_cons, readItems]
    cases f.read d r with
    | error e => rfl
    | ok r' => exact ih r' hrest hfields

theorem exists_name_of_foldlM {r' : σ} (h : members.foldlM shape.readWritten r = .ok r') :
    ∀ m ∈ members, ∃ name, m.1 = some name := by
  induction members generalizing r with
  | nil => exact fun m hm => nomatch hm
  | cons m rest ih =>
    rw [List.foldlM_cons] at h
    obtain ⟨name?, d⟩ := m
    cases name? with
    | none => cases h
    | some name =>
      cases hread : shape.readWritten r (some name, d) with
      | error e =>
        rw [hread] at h
        cases h
      | ok r₁ =>
        rw [hread] at h
        exact List.forall_mem_cons.2 ⟨⟨name, rfl⟩, ih h⟩

theorem exists_perm_of_named (h : ∀ m ∈ members, ∃ name, m.1 = some name) :
    ∃ known others, members.Perm (known ++ others) ∧
      known.map Prod.fst = (shape.fieldsOf members).map some ∧ shape.AreOthers others := by
  induction members with
  | nil => exact ⟨[], [], .nil, rfl, fun m hm => nomatch hm⟩
  | cons m rest ih =>
    obtain ⟨hm, hrest⟩ := List.forall_mem_cons.1 h
    obtain ⟨_, d⟩ := m
    obtain ⟨name, rfl⟩ := hm
    obtain ⟨known, others, hperm, hknown, hothers⟩ := ih hrest
    cases hfield : shape.field? name with
    | none =>
      refine ⟨known, (some name, d) :: others, (hperm.cons _).trans List.perm_middle.symm, ?_, ?_⟩
      · rw [fieldsOf_cons_of_none hfield, hknown]
      · exact List.forall_mem_cons.2 ⟨⟨name, rfl, hfield⟩, hothers⟩
    | some f =>
      refine ⟨(some name, d) :: known, others, hperm.cons _, ?_, hothers⟩
      rw [fieldsOf_cons_of_some hfield, List.map_cons, List.map_cons, hknown]

theorem perm_fieldsOf (hnames : (shape.fields.map RecordField.name).Nodup)
    (hnodup : (shape.fieldsOf members).Nodup)
    (hall : ∀ f ∈ shape.fields, f.name ∈ shape.fieldsOf members) :
    (shape.fields.map RecordField.name).Perm (shape.fieldsOf members) := by
  refine (List.perm_ext_iff_of_nodup hnames hnodup).2 fun name => ⟨fun hname => ?_, fun hname => ?_⟩
  · obtain ⟨f, hf, rfl⟩ := List.mem_map.1 hname
    exact hall f hf
  · obtain ⟨m, -, hm⟩ := List.mem_filterMap.1 hname
    obtain ⟨-, hsome⟩ := Option.filter_eq_some_iff.1 hm
    obtain ⟨f, hf⟩ := Option.isSome_iff_exists.1 hsome
    obtain ⟨hmem, rfl⟩ := mem_of_field? hf
    exact List.mem_map_of_mem hmem

section Written

variable {written : List (Option String × Document)} (hshape : shape.IsUnordered)
  (hwritten : shape.AreFields written) (hothers : shape.AreOthers others)

include hshape hwritten hothers

theorem fieldsOf_append_others :
    shape.fieldsOf (written ++ others) = shape.fields.map RecordField.name := by
  have happend : shape.fieldsOf (written ++ others) =
      shape.fieldsOf written ++ shape.fieldsOf others := List.filterMap_append
  rw [happend, hwritten.fieldsOf_eq hshape, hothers.fieldsOf_eq, List.append_nil]

theorem foldlM_append_others (r : σ) : (written ++ others).foldlM shape.readWritten r =
    readItems shape.expectedLength shape.fields.length shape.fields (written.map Prod.snd) r := by
  rw [List.foldlM_append, hwritten.foldlM_eq hshape shape.expectedLength shape.fields.length]
  have hpure : (fun r => others.foldlM shape.readWritten r) = pure :=
    funext fun r => hothers.foldlM_eq r
  rw [hpure, bind_pure]

end Written

theorem AreFields.length_eq {written : List (Option String × Document)}
    (h : shape.AreFields written) : (written.map Prod.snd).length = shape.fields.length := by
  have hlength := congrArg List.length h
  rwa [List.length_map, List.length_map, ← List.length_map Prod.snd] at hlength

theorem ofMembers_eq_ok_iff_of_required (hshape : shape.IsUnordered)
    (hrequired : shape.IsRequired) :
    shape.ofMembers members = .ok r ↔ ∃ written others, members.Perm (written ++ others) ∧
      shape.AreFields written ∧ shape.AreOthers others ∧
      shape.ReadsItems (written.map Prod.snd) r := by
  constructor
  · intro h
    obtain ⟨⟨hnodup, hall⟩, hfold⟩ := ofMembers_eq_ok_iff.1 h
    obtain ⟨known, others, hperm, hknown, hothers⟩ :=
      exists_perm_of_named (exists_name_of_foldlM hfold)
    have hnames : (shape.fields.map fun f => some f.name).Perm (known.map Prod.fst) := by
      rw [hknown, ← Function.comp_def, ← List.map_map]
      exact (perm_fieldsOf hshape.names hnodup fun f hf => hall f hf (hrequired f hf)).map some
    -- The members of the fields, put into the order of the description.
    obtain ⟨written, hwritten, hsame⟩ :=
      (congrFun₂ (List.eq_map_comp_perm Prod.fst) _ known).mpr hnames
    have hwritten : shape.AreFields written := hwritten.symm
    have hreorder := hperm.trans (hsame.symm.append_right others)
    obtain ⟨-, hfold⟩ := ofMembers_eq_ok_iff.1 (ofMembers_perm hshape hreorder h)
    rw [foldlM_append_others hshape hwritten hothers] at hfold
    exact ⟨written, others, hreorder, hwritten, hothers, hwritten.length_eq, hfold⟩
  · rintro ⟨written, others, hperm, hwritten, hothers, -, hread⟩
    refine ofMembers_perm hshape hperm.symm (ofMembers_eq_ok_iff.2 ?_)
    rw [fieldsOf_append_others hshape hwritten hothers,
      foldlM_append_others hshape hwritten hothers]
    exact ⟨⟨hshape.names, fun f hf _ => List.mem_map_of_mem hf⟩, hread⟩

theorem length_le_of_readItems {expected : String} {total : Nat} {fields : List (RecordField σ)}
    (hfields : ∀ f ∈ fields, f.absence = .required) {items : List Document} {r' : σ}
    (h : readItems expected total fields items r = .ok r') : fields.length ≤ items.length := by
  induction fields generalizing items r with
  | nil => exact Nat.zero_le _
  | cons f fields ih =>
    obtain ⟨hf, hfields⟩ := List.forall_mem_cons.1 hfields
    cases items with
    | nil => simp [readItems, hf] at h
    | cons d items =>
      rw [readItems] at h
      cases hread : f.read d r with
      | error e =>
        rw [hread] at h
        cases h
      | ok r₁ =>
        rw [hread] at h
        exact Nat.succ_le_succ (ih hfields h)

theorem ofItems_eq_ok_iff_of_required (hrequired : shape.IsRequired) {items : List Document} :
    shape.ofItems .text items = .ok r ↔ shape.ReadsItems items r := by
  rw [ofItems, ReadsItems]
  cases hread : readItems shape.expectedLength shape.fields.length shape.fields items
    shape.blank with
  | error e => simp [bind, Except.bind]
  | ok r' =>
    have hle := length_le_of_readItems hrequired hread
    have hdrop : items.drop shape.fields.length = [] ↔ items.length = shape.fields.length := by
      rw [List.drop_eq_nil_iff]
      omega
    rw [← hdrop]
    rcases items.drop shape.fields.length with _ | ⟨d, rest⟩
    · simp [bind, Except.bind, pure, Except.pure]
    · cases d <;> simp [bind, Except.bind, throw, throwThe, MonadExceptOf.throw]

/-- What a document must be to be read as a record: an object or an array. -/
theorem decode_eq_ok_iff_of_required (hshape : shape.IsUnordered) (hrequired : shape.IsRequired)
    {d : Document} : shape.decode .text d = .ok r ↔
      (∃ members written others, d = .obj members ∧ members.Perm (written ++ others) ∧
        shape.AreFields written ∧ shape.AreOthers others ∧
        shape.ReadsItems (written.map Prod.snd) r) ∨
      ∃ items, d = .arr items ∧ shape.ReadsItems items r := by
  cases d with
  | obj members => simp [decode, ofMembers_eq_ok_iff_of_required hshape hrequired]
  | arr items => simp [decode, ofItems_eq_ok_iff_of_required hrequired]
  | null => simp [decode, Decoder.wrongType]
  | bool b => cases b <;> simp [decode, Decoder.wrongType]
  | num n => rcases n with _ | n | x <;> simp [decode, Decoder.wrongType]
  | str s => cases s <;> simp [decode, Decoder.wrongType]
  | broken => simp [decode, Decoder.wrongType]

end QaLake.Json.Shape
