import QaLake.Proofs.Json.RoundTrip
import QaLake.Proofs.Keyed.Overwriting
import QaLake.Proofs.Scope.Decoding

namespace QaLake

namespace Json

open Document

variable {α σ : Type}

theorem Decoder.members_of_forall₂ {dec : Decoder α} {entries : List (String × α)}
    {members : List (String × Json)}
    (h : List.Forall₂ (fun e m => m.1 = e.1 ∧ dec (ofJson m.2) = .ok e.2) entries members)
    (t : Table String α) :
    Decoder.members dec (Document.ofMembers members) t =
      .ok (entries.foldl (fun t e => t.insert e.1 e.2) t) := by
  induction h generalizing t with
  | nil => rfl
  | @cons e m entries members hm _ ih =>
    obtain ⟨name, value⟩ := m
    obtain ⟨rfl, hdec⟩ := hm
    rw [Document.ofMembers, Decoder.members, hdec]
    exact ih _

theorem Decoder.list_map {dec : Decoder α} {f : α → Json} {as : List α}
    (h : ∀ a ∈ as, dec (ofJson (f a)) = .ok a) :
    Decoder.list dec (ofJson (.arr (as.map f))) = .ok as := by
  change (Document.ofItems (as.map f)).mapM dec = .ok as
  induction as with
  | nil => rfl
  | cons a rest ih =>
    rw [List.map_cons, Document.ofItems, List.mapM_cons, h a List.mem_cons_self,
      ih fun b hb => h b (List.mem_cons_of_mem _ hb)]
    rfl

theorem Shape.readMembers_cons {shape : Shape σ} {name : String} {f : RecordField σ}
    {seen : List String} {d : Document} {r r' : σ} (hfield : shape.field? name = some f)
    (hseen : seen.contains name = false) (hread : f.read d r = .ok r')
    (rest : List (Option String × Document)) :
    shape.readMembers ((some name, d) :: rest) seen r =
      shape.readMembers rest (name :: seen) r' := by
  rw [readMembers, hfield]
  simp only [hseen, Bool.false_eq_true, if_false, hread]
  rfl

theorem Document.ofMembers_perm {members members' : List (String × Json)}
    (h : members.Perm members') :
    (Document.ofMembers members).Perm (Document.ofMembers members') := by
  have hmap : ∀ ms, Document.ofMembers ms = ms.map fun m => (some m.1, ofJson m.2) := by
    intro ms
    induction ms with
    | nil => rfl
    | cons m rest ih => rw [Document.ofMembers, ih, List.map_cons]
  rw [hmap, hmap]
  exact h.map _

end Json

namespace ScopeConfig

open Json Document

/-- Whether all ids that a configuration lists fit signed words. -/
structure HasSignedIds (c : ScopeConfig) : Prop where
  includedSuites : ∀ id ∈ c.includedSuites, Word.IsSigned id
  excludedSuites : ∀ id ∈ c.excludedSuites, Word.IsSigned id
  includedMilestones : ∀ id ∈ c.includedMilestones, Word.IsSigned id

/-- Whether a value is a map written out, its entries in any order. -/
def IsMapOf {α : Type} (writes : α → Json → Prop) (t : Table String α) (j : Json) : Prop :=
  ∃ entries members, entries.Perm t.entries ∧
    List.Forall₂ (fun e m => m.1 = e.1 ∧ writes e.2 m.2) entries members ∧ j = .obj members

def IsWordOf (fieldName word : String) (j : Json) : Prop :=
  j = wordJson fieldName word

def IsFieldOf (m : FieldMapping) (j : Json) : Prop :=
  ∃ members, members.Perm [("targetField", .str m.targetField), ("fieldType", .str m.fieldType)] ∧
    j = .obj members

/-- Whether a value is a configuration written out, its members in any order, and so those of its
maps and of the mappings of custom fields. -/
inductive IsSpelledAs (c : ScopeConfig) : Json → Prop
  | members {statuses types priorities customFields : Json} {members : List (String × Json)}
    (hstatuses : IsMapOf (IsWordOf "standardStatus") c.statuses statuses)
    (htypes : IsMapOf (IsWordOf "standardType") c.types types)
    (hpriorities : IsMapOf (IsWordOf "standardPriority") c.priorities priorities)
    (hcustomFields : IsMapOf IsFieldOf c.customFields customFields)
    (hmembers : members.Perm (c.membersWith statuses types priorities customFields)) :
    c.IsSpelledAs (.obj members)

section Parts

variable {α : Type} {writes : α → Json → Prop}

theorem isMapOf_mapJson {f : α → Json} (h : ∀ a, writes a (f a)) (before : String → String → Bool)
    (t : Table String α) : IsMapOf writes t (mapJson before f t) := by
  refine ⟨t.entries.mergeSort fun a b => before a.1 b.1, _, List.mergeSort_perm _ _, ?_, rfl⟩
  exact List.forall₂_map_right_iff.2 (List.forall₂_same.2 fun e _ => ⟨rfl, h e.2⟩)

theorem IsMapOf.isWhole {t : Table String α} {j : Json} (h : IsMapOf writes t j)
    (hwrites : ∀ a j, writes a j → j.IsWhole) : j.IsWhole := by
  obtain ⟨entries, members, -, hentries, rfl⟩ := h
  clear * - hentries hwrites
  induction hentries with
  | nil => exact trivial
  | cons hm _ ih => exact ⟨hwrites _ _ hm.2, ih⟩

theorem isWhole_arr {f : α → Json} {as : List α} (h : ∀ a ∈ as, (f a).IsWhole) :
    (Json.arr (as.map f)).IsWhole := by
  refine itemsWhole_iff.2 fun j hj => ?_
  obtain ⟨a, ha, rfl⟩ := List.mem_map.1 hj
  exact h a ha

theorem IsMapOf.table {dec : Decoder α} {t : Table String α} {j : Json} (h : IsMapOf writes t j)
    (hdec : ∀ a j, writes a j → dec (ofJson j) = .ok a) : Decoder.table dec (ofJson j) = .ok t := by
  obtain ⟨entries, members, hperm, hentries, rfl⟩ := h
  have hread := Decoder.members_of_forall₂ (hentries.imp fun e m hm => ⟨hm.1, hdec e.2 m.2 hm.2⟩)
    .empty
  have hkeys : entries.Pairwise fun a b => a.1 ≠ b.1 := by
    refine hperm.symm.pairwise ?_ fun hne => hne.symm
    exact t.sorted.imp fun hbefore he => by simp [he, KeyOrder.irrefl] at hbefore
  rw [Table.overwriting.foldl_perm hperm hkeys, Table.foldl_insert] at hread
  exact hread

theorem field_read {name : String} {default a : α} {dec : Decoder α}
    {put : α → ScopeConfig → ScopeConfig} {d : Document} (hd : d ≠ .null) (h : dec d = .ok a)
    (c : ScopeConfig) : (field name default dec put).read d c = .ok (put a c) := by
  have hdefault : Decoder.orDefault default dec d = dec d := by
    unfold Decoder.orDefault
    split
    · exact absurd rfl hd
    · rfl
  change (Decoder.orDefault default dec d).map _ = _
  rw [hdefault, h]
  rfl

end Parts

theorem isSpelledAs_toJsonIn (c : ScopeConfig) (order : MapOrder) :
    c.IsSpelledAs (c.toJsonIn order) := by
  have hwords : ∀ name before t, IsMapOf (IsWordOf name) t (mapJson before (wordJson name) t) :=
    fun name before t => @isMapOf_mapJson _ (IsWordOf name) _ (fun _ => rfl) before t
  have hfields : ∀ before,
      IsMapOf IsFieldOf c.customFields (mapJson before fieldJson c.customFields) :=
    fun before => isMapOf_mapJson (fun _ => ⟨_, .refl _, rfl⟩) before c.customFields
  exact .members (hwords _ _ _) (hwords _ _ _) (hwords _ _ _) (hfields _) (.refl _)

theorem IsWordOf.decode {recordName fieldName word : String} {j : Json}
    (h : IsWordOf fieldName word j) :
    (wordShape recordName fieldName).decode .text (ofJson j) = .ok word := by
  subst h
  have hfield : (wordShape recordName fieldName).field? fieldName =
      some (.of fieldName Decoder.string (fun s _ => s) .required) := by
    simp [Shape.field?, wordShape, RecordField.of]
  change (wordShape recordName fieldName).ofMembers [(some fieldName, .str (some word))] = _
  rw [Shape.ofMembers, Shape.readMembers_cons hfield rfl rfl]
  simp [Shape.readMembers, wordShape, RecordField.of, bind, Except.bind]
  rfl

theorem IsFieldOf.decode {m : FieldMapping} {j : Json} (h : IsFieldOf m j) :
    fieldShape.decode .text (ofJson j) = .ok m := by
  obtain ⟨members, hperm, rfl⟩ := h
  refine Shape.ofMembers_perm isUnordered_fieldShape (Document.ofMembers_perm hperm.symm) ?_
  cbv

theorem readMembers_field {α : Type} {name : String} {default a : α} {dec : Decoder α}
    {put : α → ScopeConfig → ScopeConfig} {seen : List String} {d : Document}
    (hfield : (shape .text).field? name = some (field name default dec put))
    (hseen : seen.contains name = false) (hd : d ≠ .null) (h : dec d = .ok a)
    (rest : List (Option String × Document)) (c : ScopeConfig) :
    (shape .text).readMembers ((some name, d) :: rest) seen c =
      (shape .text).readMembers rest (name :: seen) (put a c) :=
  Shape.readMembers_cons hfield hseen (field_read hd h c) rest

theorem IsMapOf.ne_null {α : Type} {writes : α → Json → Prop} {t : Table String α} {j : Json}
    (h : IsMapOf writes t j) : ofJson j ≠ .null := by
  obtain ⟨_, members, -, -, rfl⟩ := h
  exact nofun

theorem IsSpelledAs.decode {c : ScopeConfig} (hids : c.HasSignedIds) {j : Json}
    (h : c.IsSpelledAs j) : ScopeConfig.decode .text (ofJson j) = .ok c := by
  obtain ⟨hstatuses, htypes, hpriorities, hcustomFields, hmembers⟩ := h
  have hstring : ∀ s : String, Decoder.string (ofJson (.str s)) = .ok s := fun _ => rfl
  have hstrings : Decoder.list Decoder.string (ofJson (.arr (c.automatedValues.map .str))) =
      .ok c.automatedValues := Decoder.list_map fun s _ => rfl
  have hlisted : ∀ ids : List Int, (∀ id ∈ ids, Word.IsSigned id) →
      Decoder.list Decoder.int64 (ofJson (.arr (ids.map .int))) = .ok ids := fun ids hids =>
    Decoder.list_map fun id hid => Decoder.int64_int (hids id hid)
  refine Shape.ofMembers_perm (isUnordered_shape .text)
    (Document.ofMembers_perm hmembers.symm) ?_
  simp only [membersWith, Document.ofMembers, Shape.ofMembers]
  rw [readMembers_field rfl rfl hstatuses.ne_null (hstatuses.table fun _ _ => IsWordOf.decode),
    readMembers_field rfl rfl htypes.ne_null (htypes.table fun _ _ => IsWordOf.decode),
    readMembers_field rfl rfl hpriorities.ne_null (hpriorities.table fun _ _ => IsWordOf.decode),
    readMembers_field rfl rfl hcustomFields.ne_null
      (hcustomFields.table fun _ _ => IsFieldOf.decode),
    readMembers_field rfl rfl (by simp [ofJson]) (hstring c.automationField),
    readMembers_field rfl rfl (by simp [ofJson]) hstrings,
    readMembers_field rfl rfl (by simp [ofJson]) (hlisted c.includedSuites hids.includedSuites),
    readMembers_field rfl rfl (by simp [ofJson]) (hlisted c.excludedSuites hids.excludedSuites),
    readMembers_field rfl rfl (by simp [ofJson])
      (hlisted c.includedMilestones hids.includedMilestones)]
  rfl

theorem IsSpelledAs.isWhole {c : ScopeConfig} (hids : c.HasSignedIds) {j : Json}
    (h : c.IsSpelledAs j) : j.IsWhole := by
  obtain ⟨hstatuses, htypes, hpriorities, hcustomFields, hmembers⟩ := h
  have hword : ∀ fieldName word j, IsWordOf fieldName word j → j.IsWhole := by
    rintro fieldName word _ rfl
    exact ⟨trivial, trivial⟩
  have hfield : ∀ m j, IsFieldOf m j → j.IsWhole := by
    rintro m _ ⟨members, hperm, rfl⟩
    refine membersWhole_iff.2 fun e he => ?_
    have he := hperm.mem_iff.1 he
    simp only [List.mem_cons, List.not_mem_nil, or_false] at he
    obtain rfl | rfl := he <;> exact trivial
  refine membersWhole_iff.2 fun e he => ?_
  have he := hmembers.mem_iff.1 he
  simp only [membersWith, List.mem_cons, List.not_mem_nil, or_false] at he
  obtain rfl | rfl | rfl | rfl | rfl | rfl | rfl | rfl | rfl := he
  · exact hstatuses.isWhole (hword _)
  · exact htypes.isWhole (hword _)
  · exact hpriorities.isWhole (hword _)
  · exact hcustomFields.isWhole hfield
  · exact trivial
  · exact isWhole_arr fun _ _ => trivial
  · exact isWhole_arr fun id hid => (isPlain_int (hids.includedSuites id hid)).isWhole
  · exact isWhole_arr fun id hid => (isPlain_int (hids.excludedSuites id hid)).isWhole
  · exact isWhole_arr fun id hid => (isPlain_int (hids.includedMilestones id hid)).isWhole

/-- The text of a configuration reads back as the configuration, whatever the order of its members,
of the entries of its maps and of the members of the mappings. -/
theorem IsSpelledAs.decodeText {c : ScopeConfig} (hids : c.HasSignedIds) {j : Json}
    (h : c.IsSpelledAs j) : decodeText ScopeConfig.decode j.text = .ok c := by
  rw [decodeText_of_read? (read?_text j (h.isWhole hids)), h.decode hids]

end ScopeConfig

end QaLake
