import QaLake.Json.Decode

namespace QaLake

open Json

/-- Where a custom field is kept and as what type. -/
structure FieldMapping where
  targetField : String
  fieldType : String
  deriving DecidableEq, Repr

/-- The configuration of one project on one connection. The vocabularies are keyed by ids in
decimal, the custom fields by their system names. -/
structure ScopeConfig where
  statuses : Table String String
  types : Table String String
  priorities : Table String String
  customFields : Table String FieldMapping
  automationField : String
  automatedValues : List String
  includedSuites : List Int
  excludedSuites : List Int
  includedMilestones : List Int

namespace ScopeConfig

def empty : ScopeConfig :=
  ⟨.empty, .empty, .empty, .empty, "", [], [], [], []⟩

instance : Inhabited ScopeConfig := ⟨empty⟩

def wordShape (recordName fieldName : String) : Shape String :=
  ⟨recordName, "", [.of fieldName Decoder.string (fun s _ => s) .required]⟩

def fieldShape : Shape FieldMapping where
  name := "CustomFieldMapping"
  blank := ⟨"", ""⟩
  fields := [
    .of "targetField" Decoder.string (fun s m => { m with targetField := s }) .required,
    .of "fieldType" (Decoder.orDefault "" Decoder.string) (fun s m => { m with fieldType := s })
      .default]

/-- A field of the configuration: null is its default, and so is absence. -/
def field {α : Type} (name : String) (default : α) (dec : Decoder α)
    (put : α → ScopeConfig → ScopeConfig) : RecordField ScopeConfig :=
  .of name (Decoder.orDefault default dec) put .default

def shape (medium : Medium) : Shape ScopeConfig where
  name := "ScopeConfig"
  blank := empty
  fields := [
    field "statusMappings" .empty
      (Decoder.table ((wordShape "StatusMapping" "standardStatus").decode medium))
      (fun t c => { c with statuses := t }),
    field "typeMappings" .empty
      (Decoder.table ((wordShape "TypeMapping" "standardType").decode medium))
      (fun t c => { c with types := t }),
    field "priorityMappings" .empty
      (Decoder.table ((wordShape "PriorityMapping" "standardPriority").decode medium))
      (fun t c => { c with priorities := t }),
    field "customFieldMappings" .empty (Decoder.table (fieldShape.decode medium))
      (fun t c => { c with customFields := t }),
    field "automationStatusField" "" Decoder.string (fun s c => { c with automationField := s }),
    field "automatedValues" [] (Decoder.list Decoder.string)
      (fun vs c => { c with automatedValues := vs }),
    field "includeSuiteIds" [] (Decoder.list Decoder.int64)
      (fun ids c => { c with includedSuites := ids }),
    field "excludeSuiteIds" [] (Decoder.list Decoder.int64)
      (fun ids c => { c with excludedSuites := ids }),
    field "includeMilestoneIds" [] (Decoder.list Decoder.int64)
      (fun ids c => { c with includedMilestones := ids })]

def decode (medium : Medium) : Decoder ScopeConfig :=
  (shape medium).decode medium

/-- Which of two keys stands first in a map of a given name. A hash map has an order of its own, so
nothing is asked of it. -/
abbrev MapOrder := String → String → String → Bool

def MapOrder.ascending : MapOrder :=
  fun _ => KeyOrder.before

def mapJson {α : Type} (before : String → String → Bool) (f : α → Json) (t : Table String α) :
    Json :=
  .obj ((t.entries.mergeSort fun a b => before a.1 b.1).map fun (key, a) => (key, f a))

def wordJson (fieldName word : String) : Json :=
  .obj [(fieldName, .str word)]

def fieldJson (m : FieldMapping) : Json :=
  .obj [("targetField", .str m.targetField), ("fieldType", .str m.fieldType)]

/-- All fields in the order in which they are declared, with the maps as given. -/
def membersWith (c : ScopeConfig) (statuses types priorities customFields : Json) :
    List (String × Json) :=
  [("statusMappings", statuses), ("typeMappings", types), ("priorityMappings", priorities),
    ("customFieldMappings", customFields), ("automationStatusField", .str c.automationField),
    ("automatedValues", .arr (c.automatedValues.map .str)),
    ("includeSuiteIds", .arr (c.includedSuites.map .int)),
    ("excludeSuiteIds", .arr (c.excludedSuites.map .int)),
    ("includeMilestoneIds", .arr (c.includedMilestones.map .int))]

def toJsonIn (order : MapOrder) (c : ScopeConfig) : Json :=
  .obj (c.membersWith
    (mapJson (order "statusMappings") (wordJson "standardStatus") c.statuses)
    (mapJson (order "typeMappings") (wordJson "standardType") c.types)
    (mapJson (order "priorityMappings") (wordJson "standardPriority") c.priorities)
    (mapJson (order "customFieldMappings") fieldJson c.customFields))

def toJson : ScopeConfig → Json :=
  toJsonIn .ascending

def allowsSuite (c : ScopeConfig) (suite : Int) : Bool :=
  (c.includedSuites.isEmpty || c.includedSuites.contains suite) &&
    !c.excludedSuites.contains suite

/-- Whether runs of a milestone take part. Runs without a milestone do only if no milestones are
selected. -/
def allowsMilestone (c : ScopeConfig) (milestone : Option Int) : Bool :=
  c.includedMilestones.isEmpty || milestone.any c.includedMilestones.contains

end ScopeConfig

end QaLake
