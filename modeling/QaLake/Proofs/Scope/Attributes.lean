import Mathlib.Data.List.Basic
import QaLake.Proofs.Json.Depth
import QaLake.Proofs.Keyed.Overwriting
import QaLake.Scope.Attributes

namespace QaLake

open Json

def Json.isFloat : Json → Bool
  | .num (.float _) => true
  | _ => false

def Json.members : Json → List (String × Json)
  | .obj members => members
  | _ => []

namespace FieldMapping

theorem coerce_cases (fieldType : String) (j : Json) :
    coerce fieldType j = j ∨ (∃ s, coerce fieldType j = .str s) ∨
      (∃ b, coerce fieldType j = .bool b) ∨
      ∃ n, toNumber? j = some n ∧ coerce fieldType j = .num n := by
  have hkept : ∀ {α : Type} (a? : Option α) (wrap : α → Json),
      (a?.map wrap).getD j = j ∨ ∃ a, a? = some a ∧ (a?.map wrap).getD j = wrap a := by
    intro α a? wrap
    cases a? with
    | none => exact .inl rfl
    | some a => exact .inr ⟨a, rfl, rfl⟩
  rw [coerce]
  by_cases hstring : fieldType = "string"
  · simp only [if_pos hstring]
    obtain h | ⟨s, -, h⟩ := hkept j.scalarText .str
    · exact .inl h
    · exact .inr (.inl ⟨s, h⟩)
  by_cases hboolean : fieldType = "boolean"
  · simp only [if_neg hstring, if_pos hboolean]
    obtain h | ⟨b, -, h⟩ := hkept (toBool? j) .bool
    · exact .inl h
    · exact .inr (.inr (.inl ⟨b, h⟩))
  by_cases hnumber : fieldType = "number"
  · simp only [if_neg hstring, if_neg hboolean, if_pos hnumber]
    obtain h | ⟨n, hn, h⟩ := hkept (toNumber? j) .num
    · exact .inl h
    · exact .inr (.inr (.inr ⟨n, hn, h⟩))
  by_cases hdate : fieldType = "date"
  · simp only [if_neg hstring, if_neg hboolean, if_neg hnumber, if_pos hdate]
    obtain h | ⟨t, -, h⟩ := hkept (toInstant? j) fun t => .str t.text
    · exact .inl h
    · exact .inr (.inl ⟨_, h⟩)
  · simp only [if_neg hstring, if_neg hboolean, if_neg hnumber, if_neg hdate]
    exact .inl rfl

theorem depth_coerce_le (fieldType : String) (j : Json) : (coerce fieldType j).depth ≤ j.depth := by
  obtain h | ⟨s, h⟩ | ⟨b, h⟩ | ⟨n, -, h⟩ := coerce_cases fieldType j
  · exact Nat.le_of_eq (congrArg Json.depth h)
  · rw [h]
    exact Nat.zero_le _
  · rw [h]
    exact Nat.zero_le _
  · rw [h]
    exact Nat.zero_le _

theorem isSigned_of_int64? {s : String} {n : Int} (h : Text.int64? s = some n) :
    Word.IsSigned n := by
  simp only [Text.int64?] at h
  split at h
  · cases h
  · obtain ⟨hsigned, h⟩ := Option.ite_none_right_eq_some.1 h
    exact Option.some.inj h ▸ hsigned

theorem isPlain_of_toNumber? {j : Json} {n : Json.Number} (hj : j.IsPlain)
    (h : toNumber? j = some n) (hfloat : (Json.num n).isFloat = false) : (Json.num n).IsPlain := by
  cases j with
  | num m =>
    cases h
    exact hj
  | str s =>
    rw [toNumber?] at h
    split at h
    · rename_i n' hn'
      cases h
      obtain ⟨hlow, hhigh⟩ := isSigned_of_int64? hn'
      exact ⟨hlow, Int.lt_of_lt_of_le hhigh (by decide)⟩
    · obtain ⟨x, -, rfl⟩ := Option.map_eq_some_iff.1 h
      cases hfloat
  | null => cases h
  | bool b => cases h
  | arr items => cases h
  | obj members => cases h

theorem isPlain_coerce {fieldType : String} {j : Json} (hj : j.IsPlain)
    (hfloat : (coerce fieldType j).isFloat = false) : (coerce fieldType j).IsPlain := by
  obtain h | ⟨s, h⟩ | ⟨b, h⟩ | ⟨n, hn, h⟩ := coerce_cases fieldType j
  · rwa [h]
  · rw [h]
    trivial
  · rw [h]
    trivial
  · rw [h] at hfloat ⊢
    exact isPlain_of_toNumber? hj hn hfloat

end FieldMapping

namespace ScopeConfig

theorem exists_of_attribute? {fields : List (String × Json)} {systemName : String}
    {m : FieldMapping} {a : String × Json} (h : attribute? fields systemName m = some a) :
    ∃ j, Keyed.get? systemName fields = some j ∧ a.2 = FieldMapping.coerce m.fieldType j := by
  rw [attribute?] at h
  split at h
  · cases h
  · cases h
  · rename_i j hj hsome
    cases h
    exact ⟨j, hsome, rfl⟩

theorem name_of_attribute? {fields : List (String × Json)} {systemName : String}
    {m : FieldMapping} {a : String × Json} (h : attribute? fields systemName m = some a) :
    a.1 = m.target systemName := by
  rw [attribute?] at h
  split at h
  · cases h
  · cases h
  · cases h
    rfl

theorem exists_of_mem_attributes {c : ScopeConfig} {fields : List (String × Json)}
    {a : String × Json} (h : a ∈ c.attributes fields) :
    ∃ field ∈ fields, ∃ fieldType, a.2 = FieldMapping.coerce fieldType field.2 := by
  obtain ⟨⟨name, m⟩, -, ha⟩ := List.mem_filterMap.1 (Keyed.mem_of_mem_ofList h)
  obtain ⟨j, hj, hcoerce⟩ := exists_of_attribute? ha
  exact ⟨(name, j), Keyed.mem_of_get? hj, m.fieldType, hcoerce⟩

theorem depth_attributes_le (c : ScopeConfig) (fields : List (String × Json)) :
    (Json.obj (c.attributes fields)).depth ≤ (Json.obj fields).depth := by
  refine Nat.succ_le_succ (membersDepth_le_iff.2 fun a ha => ?_)
  obtain ⟨field, hfield, fieldType, h⟩ := exists_of_mem_attributes ha
  rw [h]
  exact Nat.le_trans (FieldMapping.depth_coerce_le fieldType field.2)
    (membersDepth_le_iff.1 (Nat.le_refl _) field hfield)

/-- The attributes if the mappings are gone through in a given order and each writes its field under
its name. -/
def attributesAlong (mappings : List (String × FieldMapping)) (fields : List (String × Json)) :
    List (String × Json) :=
  mappings.foldl (fun attributes e =>
    match attribute? fields e.1 e.2 with
    | none => attributes
    | some a => Keyed.insert a.1 a.2 attributes) []

theorem attributesAlong_eq (mappings : List (String × FieldMapping))
    (fields : List (String × Json)) :
    attributesAlong mappings fields =
      Keyed.ofList (mappings.filterMap fun (name, m) => attribute? fields name m) := by
  rw [attributesAlong, Keyed.ofList, List.foldl_filterMap]
  congr 1
  funext attributes ⟨name, m⟩
  cases h : attribute? fields name m <;> simp [h]

/-- Whether no two mappings keep their fields under one name. -/
def HasDistinctTargets (c : ScopeConfig) : Prop :=
  c.customFields.entries.Pairwise fun a b => a.2.target a.1 ≠ b.2.target b.1

section Mapped

variable {c : ScopeConfig}

theorem pairwise_attributes (htargets : c.HasDistinctTargets) (fields : List (String × Json)) :
    (c.customFields.entries.filterMap fun (name, m) => attribute? fields name m).Pairwise
      fun a b => a.1 ≠ b.1 := by
  refine List.pairwise_filterMap.2 (htargets.imp fun hne a ha b hb he => hne ?_)
  rw [← name_of_attribute? ha, ← name_of_attribute? hb, he]

theorem attributesAlong_perm (htargets : c.HasDistinctTargets) (fields : List (String × Json))
    {mappings : List (String × FieldMapping)} (hperm : c.customFields.entries.Perm mappings) :
    attributesAlong mappings fields = c.attributes fields := by
  rw [attributesAlong_eq]
  exact (Keyed.ofList_perm (hperm.filterMap _) (pairwise_attributes htargets fields)).symm

theorem attribute?_eq_some_iff {fields : List (String × Json)} {name target : String}
    {m : FieldMapping} {v : Json} : attribute? fields name m = some (target, v) ↔
      m.target name = target ∧ ∃ j, Keyed.get? name fields = some j ∧ j ≠ .null ∧
        v = FieldMapping.coerce m.fieldType j := by
  rw [attribute?]
  split
  · simp_all
  · simp_all
  · rename_i j hnull hj
    simp only [hj, Option.some.injEq, Prod.mk.injEq, exists_eq_left']
    exact and_congr_right fun _ => ⟨fun h => ⟨hnull, h.symm⟩, fun h => h.2.symm⟩

theorem get?_attributes (htargets : c.HasDistinctTargets) (fields : List (String × Json))
    (target : String) (v : Json) : Keyed.get? target (c.attributes fields) = some v ↔
      ∃ name m j, c.customFields.get? name = some m ∧ m.target name = target ∧
        Keyed.get? name fields = some j ∧ j ≠ .null ∧ v = FieldMapping.coerce m.fieldType j := by
  rw [attributes, Keyed.get?_ofList (pairwise_attributes htargets fields), List.mem_filterMap]
  simp only [Prod.exists, attribute?_eq_some_iff, Keyed.mem_iff_get? c.customFields.sorted,
    Table.get?, exists_and_left]

theorem attributes_congr {fields fields' : List (String × Json)}
    (h : ∀ name m, c.customFields.get? name = some m →
      Keyed.get? name fields' = Keyed.get? name fields) :
    c.attributes fields' = c.attributes fields := by
  rw [attributes, attributes]
  refine congrArg Keyed.ofList (List.filterMap_congr fun ⟨name, m⟩ hm => ?_)
  have hget := h name m ((Keyed.mem_iff_get? c.customFields.sorted name m).1 hm)
  simp only [attribute?, hget]

end Mapped

theorem isPlain_attributes {c : ScopeConfig} {fields : List (String × Json)}
    (hfields : (Json.obj fields).IsPlain)
    (hfloat : ∀ a ∈ c.attributes fields, a.2.isFloat = false) :
    (Json.obj (c.attributes fields)).IsPlain := by
  refine ⟨Keyed.sorted_ofList _, membersPlain_iff.2 fun a ha => ?_⟩
  obtain ⟨field, hfield, fieldType, h⟩ := exists_of_mem_attributes ha
  have ha' := hfloat a ha
  rw [h] at ha' ⊢
  exact FieldMapping.isPlain_coerce (membersPlain_iff.1 hfields.2 field hfield) ha'

/-- The custom attributes are an object with exactly the mapped fields that are there and not null,
each under its target and as a value of its type. They are the same in whatever order the mappings
are gone through, and whatever the fields are that no mapping names. -/
theorem attributes_are_mapped {c : ScopeConfig} (htargets : c.HasDistinctTargets)
    (fields : List (String × Json)) :
    ∃ attributes, attributesOf (some c) fields = .obj attributes ∧ Keyed.Sorted attributes ∧
      (∀ target v, Keyed.get? target attributes = some v ↔
        ∃ name m j, c.customFields.get? name = some m ∧ m.target name = target ∧
          Keyed.get? name fields = some j ∧ j ≠ .null ∧ v = FieldMapping.coerce m.fieldType j) ∧
      (∀ mappings, c.customFields.entries.Perm mappings →
        attributesAlong mappings fields = attributes) ∧
      ∀ fields', (∀ name m, c.customFields.get? name = some m →
          Keyed.get? name fields' = Keyed.get? name fields) →
        attributesOf (some c) fields' = .obj attributes := by
  refine ⟨c.attributes fields, rfl, Keyed.sorted_ofList _, get?_attributes htargets fields,
    fun mappings => attributesAlong_perm htargets fields, fun fields' hfields => ?_⟩
  rw [attributesOf, Option.elim_some, attributes_congr hfields]

def keptTwice : ScopeConfig :=
  { ScopeConfig.empty with
    customFields := (Table.empty.insert "custom_owner" ⟨"", "string"⟩).insert "custom_points"
      ⟨"estimate", "number"⟩ }

def pointedCase : List (String × Json) :=
  [("custom_notes", .str "open"), ("custom_owner", .null), ("custom_points", .str " 12 ")]

theorem attributes_are_mapped_points :
    keptTwice.HasDistinctTargets ∧
      attributesOf (some keptTwice) pointedCase = .obj [("estimate", .int 12)] ∧
      attributesAlong [("custom_points", ⟨"estimate", "number"⟩), ("custom_owner", ⟨"", "string"⟩)]
        pointedCase = [("estimate", .int 12)] ∧
      attributesOf (some keptTwice) (pointedCase.drop 1) = .obj [("estimate", .int 12)] := by
  have htargets : keptTwice.HasDistinctTargets := by
    rw [HasDistinctTargets]
    decide
  have hpoints : attributesOf (some keptTwice) pointedCase = .obj [("estimate", .int 12)] := by
    rfl
  obtain ⟨attributes, hof, -, -, hperm, hcongr⟩ := attributes_are_mapped htargets pointedCase
  obtain rfl : [("estimate", Json.int 12)] = attributes := Json.obj.inj (hpoints.symm.trans hof)
  refine ⟨htargets, hpoints, hperm _ (List.Perm.swap _ _ []), hcongr _ fun name m hm => ?_⟩
  have hname : "custom_notes" ≠ name := by
    rintro rfl
    cases hm
  exact (if_neg hname).symm

end ScopeConfig

end QaLake
