import QaLake.Proofs.Json.Members
import QaLake.Scope.Config

namespace QaLake

open Json

namespace ScopeConfig

/-- Whether the mapping of a custom field is written as another, or with null for the type that the
other lacks. -/
inductive AddsNullType : Document → Document → Prop
  | same (d : Document) : AddsNullType d d
  | added {members members' : List (Option String × Document)} :
    AddsNulls ["fieldType"] members members' → AddsNullType (.obj members) (.obj members')

/-- Whether a member of a configuration is another, or mappings of custom fields of which some have
null for their types where those of the other lack them. -/
inductive AddsNullTypes : Option String × Document → Option String × Document → Prop
  | same (m : Option String × Document) : AddsNullTypes m m
  | mappings {mappings mappings' : List (Option String × Document)} :
    List.Forall₂ (fun m m' => m.1 = m'.1 ∧ AddsNullType m.2 m'.2) mappings mappings' →
      AddsNullTypes (some "customFieldMappings", .obj mappings)
        (some "customFieldMappings", .obj mappings')

/-- Whether each field of a configuration is what members of a text say under its name, and empty
if they say null or nothing. -/
structure IsReadFrom (c : ScopeConfig) (members : List (Option String × Document)) : Prop where
  statuses : valueUnder "statusMappings" .empty
    (Decoder.table ((wordShape "StatusMapping" "standardStatus").decode .text)) members =
      .ok c.statuses
  types : valueUnder "typeMappings" .empty
    (Decoder.table ((wordShape "TypeMapping" "standardType").decode .text)) members = .ok c.types
  priorities : valueUnder "priorityMappings" .empty
    (Decoder.table ((wordShape "PriorityMapping" "standardPriority").decode .text)) members =
      .ok c.priorities
  customFields : valueUnder "customFieldMappings" .empty
    (Decoder.table (fieldShape.decode .text)) members = .ok c.customFields
  automationField : valueUnder "automationStatusField" "" Decoder.string members =
    .ok c.automationField
  automatedValues : valueUnder "automatedValues" [] (Decoder.list Decoder.string) members =
    .ok c.automatedValues
  includedSuites : valueUnder "includeSuiteIds" [] (Decoder.list Decoder.int64) members =
    .ok c.includedSuites
  excludedSuites : valueUnder "excludeSuiteIds" [] (Decoder.list Decoder.int64) members =
    .ok c.excludedSuites
  includedMilestones : valueUnder "includeMilestoneIds" [] (Decoder.list Decoder.int64) members =
    .ok c.includedMilestones

theorem isUnordered_fieldShape : fieldShape.IsUnordered where
  names := by simp [fieldShape, RecordField.of]
  fields := by simp [fieldShape]

theorem isUnordered_shape (medium : Medium) : (shape medium).IsUnordered where
  names := by simp [shape, field, RecordField.of]
  fields := by simp [shape, field]

theorem decode_of_addsNullType (medium : Medium) {d d' : Document} (h : AddsNullType d d') :
    fieldShape.decode medium d' = fieldShape.decode medium d := by
  cases h with
  | same => rfl
  | added h =>
    refine Shape.ofMembers_of_addsNulls isUnordered_fieldShape h ?_
    simp [fieldShape, RecordField.of, Decoder.orDefault, Except.map]

theorem field_idle {α : Type} {name : String} {default : α} {dec : Decoder α}
    {put : α → ScopeConfig → ScopeConfig} (h : put default empty = empty) :
    (field name default dec put).absence ≠ .required ∧
      (field name default dec put).read .null empty = .ok empty :=
  ⟨nofun, congrArg Except.ok h⟩

theorem fields_idle (medium : Medium) {f : RecordField ScopeConfig}
    (hf : f ∈ (shape medium).fields) : f.absence ≠ .required ∧ f.read .null empty = .ok empty := by
  revert f
  simp only [shape, List.forall_mem_cons]
  exact ⟨field_idle rfl, field_idle rfl, field_idle rfl, field_idle rfl, field_idle rfl,
    field_idle rfl, field_idle rfl, field_idle rfl, field_idle rfl, nofun⟩

theorem ofMembers_of_addsNullTypes (medium : Medium)
    {members members' : List (Option String × Document)}
    (h : List.Forall₂ AddsNullTypes members members') :
    (shape medium).ofMembers members' = (shape medium).ofMembers members := by
  refine (Shape.ofMembers_congr (h.imp fun m m' hm => ?_)).symm
  cases hm with
  | same => exact ⟨rfl, fun _ _ _ => rfl⟩
  | @mappings mappings mappings' hmappings =>
    refine ⟨rfl, ?_⟩
    have hsame : Decoder.table (fieldShape.decode medium) (.obj mappings) =
        Decoder.table (fieldShape.decode medium) (.obj mappings') :=
      Decoder.members_congr (hmappings.imp fun _ _ hm =>
        ⟨hm.1, (decode_of_addsNullType medium hm.2).symm⟩) _
    simp [shape, field, RecordField.of, Decoder.orDefault, hsame]

theorem isReadFrom_of_ofMembers {members : List (Option String × Document)} {c : ScopeConfig}
    (h : (shape .text).ofMembers members = .ok c) : c.IsReadFrom members := by
  have hread {α : Type} {name : String} {default : α} {dec : Decoder α}
      {put : α → ScopeConfig → ScopeConfig} {get : ScopeConfig → α} (place : Nat)
      (hfield : (shape .text).fields[place]? = some (field name default dec put))
      (hget : ∀ a r, get (put a r) = a) (hblank : put default empty = empty) :
      valueUnder name default dec members = .ok (get c) :=
    Shape.valueUnder_of_ofMembers (isUnordered_shape .text) (List.mem_of_getElem? hfield) hget
      hblank h
  constructor
  · exact hread 0 rfl (fun _ _ => rfl) rfl
  · exact hread 1 rfl (fun _ _ => rfl) rfl
  · exact hread 2 rfl (fun _ _ => rfl) rfl
  · exact hread 3 rfl (fun _ _ => rfl) rfl
  · exact hread 4 rfl (fun _ _ => rfl) rfl
  · exact hread 5 rfl (fun _ _ => rfl) rfl
  · exact hread 6 rfl (fun _ _ => rfl) rfl
  · exact hread 7 rfl (fun _ _ => rfl) rfl
  · exact hread 8 rfl (fun _ _ => rfl) rfl

/-- Fields of a configuration may be written as null or left out, in any places, and the type of a
custom field's mapping may too: the text is decoded the same, with the same error if there is one.
A configuration does not depend on the order of its members, and its fields are what the members
say. -/
theorem null_fields_are_absent {text : String} {members : List (Option String × Document)}
    (htext : Document.read? text = some (.obj members)) :
    (∀ added text' members', Document.read? text' = some (.obj members') →
      AddsNulls added members members' → decodeText decode text' = decodeText decode text) ∧
    (∀ text' members', Document.read? text' = some (.obj members') →
      List.Forall₂ AddsNullTypes members members' →
        decodeText decode text' = decodeText decode text) ∧
    ∀ c, decodeText decode text = .ok c → c.IsReadFrom members ∧
      ∀ text' members', Document.read? text' = some (.obj members') → members.Perm members' →
        decodeText decode text' = .ok c := by
  have hdecode : ∀ {text members}, Document.read? text = some (.obj members) →
      decodeText decode text = (shape .text).ofMembers members := fun h => decodeText_of_read? h
  rw [hdecode htext]
  refine ⟨fun added text' members' htext' hadds => ?_, fun text' members' htext' hadds => ?_,
    fun c hc => ⟨isReadFrom_of_ofMembers hc, fun text' members' htext' hperm => ?_⟩⟩
  · rw [hdecode htext']
    exact Shape.ofMembers_of_addsNulls (isUnordered_shape .text) hadds fun f hf _ =>
      fields_idle .text hf
  · rw [hdecode htext']
    exact ofMembers_of_addsNullTypes .text hadds
  · rw [hdecode htext']
    exact Shape.ofMembers_perm (isUnordered_shape .text) hperm hc

def untypedMapping : Option String × Document :=
  (some "customFieldMappings", .obj [(some "x", .obj [(some "targetField", .str (some "t"))])])

def nullTypedMapping : Option String × Document :=
  (some "customFieldMappings",
    .obj [(some "x", .obj [(some "fieldType", .null), (some "targetField", .str (some "t"))])])

def oneValue : Option String × Document :=
  (some "automatedValues", .arr [.str (some "yes")])

/-- The mapping of a custom field without its type, and a value that counts as automated. -/
def plainText : String :=
  "\x7b\"customFieldMappings\":\x7b\"x\":\x7b\"targetField\":\"t\"\x7d\x7d" ++
    ",\"automatedValues\":[\"yes\"]\x7d"

def nullText : String :=
  "\x7b\"customFieldMappings\":\x7b\"x\":\x7b\"targetField\":\"t\"\x7d\x7d" ++
    ",\"typeMappings\":null,\"automatedValues\":[\"yes\"]\x7d"

def nullTypeText : String :=
  "\x7b\"customFieldMappings\":\x7b\"x\":" ++
    "\x7b\"fieldType\":null,\"targetField\":\"t\"\x7d\x7d,\"automatedValues\":[\"yes\"]\x7d"

def swappedText : String :=
  "\x7b\"automatedValues\":[\"yes\"]," ++
    "\"customFieldMappings\":\x7b\"x\":\x7b\"targetField\":\"t\"\x7d\x7d\x7d"

theorem read?_plainText :
    Document.read? plainText = some (.obj [untypedMapping, oneValue]) := by
  cbv

theorem read?_nullText : Document.read? nullText =
    some (.obj [untypedMapping, (some "typeMappings", .null), oneValue]) := by
  cbv

theorem read?_nullTypeText :
    Document.read? nullTypeText = some (.obj [nullTypedMapping, oneValue]) := by
  cbv

theorem read?_swappedText :
    Document.read? swappedText = some (.obj [oneValue, untypedMapping]) := by
  cbv

theorem null_fields_are_absent_mapping :
    Document.read? plainText = some (.obj [untypedMapping, oneValue]) ∧
      decodeText decode nullText = decodeText decode plainText ∧
      decodeText decode nullTypeText = decodeText decode plainText ∧
      ∃ c, decodeText decode plainText = .ok c ∧ c.automatedValues = ["yes"] ∧
        c.includedSuites = [] ∧ decodeText decode swappedText = .ok c := by
  obtain ⟨hnulls, htypes, hread⟩ := null_fields_are_absent read?_plainText
  refine ⟨read?_plainText, ?_, ?_, ?_⟩
  · refine hnulls ["typeMappings"] _ _ read?_nullText ?_
    constructor
    · rfl
    · simp [untypedMapping, oneValue]
    · simp [untypedMapping, oneValue]
  · refine htypes _ _ read?_nullTypeText ?_
    refine .cons (.mappings (.cons ⟨rfl, .added ?_⟩ .nil)) (.cons (.same _) .nil)
    constructor
    · rfl
    · simp
    · simp
  · obtain ⟨c, hc⟩ : ∃ c, decodeText decode plainText = .ok c := by
      rw [decodeText_of_read? read?_plainText]
      exact ⟨_, rfl⟩
    obtain ⟨hfields, hperm⟩ := hread c hc
    refine ⟨c, hc, ?_, ?_, hperm _ _ read?_swappedText (.swap _ _ _)⟩
    · exact Except.ok.inj (hfields.automatedValues.symm.trans rfl)
    · exact Except.ok.inj (hfields.includedSuites.symm.trans rfl)

end ScopeConfig

end QaLake
