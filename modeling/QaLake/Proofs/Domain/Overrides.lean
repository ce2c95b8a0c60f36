import QaLake.Proofs.Domain.Conversion
import QaLake.Proofs.Sync.Scoped

namespace QaLake

/-- Two configurations that are equal but for the override of one key: it may be there in one of
them alone, or say something else in each. -/
structure ScopeConfig.DiffersAt (v : Vocabulary) (key : String) (c c' : ScopeConfig) : Prop where
  overrides : ∀ k, k ≠ key → (v.overrides c).get? k = (v.overrides c').get? k
  others : ∀ u, u ≠ v → u.overrides c = u.overrides c'
  customFields : c.customFields = c'.customFields
  automationField : c.automationField = c'.automationField
  automatedValues : c.automatedValues = c'.automatedValues
  includedSuites : c.includedSuites = c'.includedSuites
  excludedSuites : c.excludedSuites = c'.excludedSuites
  includedMilestones : c.includedMilestones = c'.includedMilestones

namespace Tool.Row

/-- The id that a vocabulary has a word for in the domain row of a tool row; an absent one is 0. -/
def code? : Vocabulary → Row → Option Int
  | .status, .result r => some (r.statusId.getD 0)
  | .caseType, .case c => some (c.typeId.getD 0)
  | .priority, .case c => some (c.priorityId.getD 0)
  | _, _ => none

theorem code?_reread (v : Vocabulary) (r : Row) : r.reread.code? v = r.code? v := by
  cases r <;> cases v <;> rfl

end Tool.Row

namespace Domain

/-- A row with another word in the column of a vocabulary, if it has one. -/
def Row.withWord : Vocabulary → String → Row → Row
  | .caseType, word, .testCase r => .testCase { r with testType := word }
  | .priority, word, .testCase r => .testCase { r with priority := word }
  | .status, word, .execution r => .execution { r with status := word }
  | _, _, r => r

@[simp]
theorem Row.kind_withWord (v : Vocabulary) (word : String) (d : Row) :
    (d.withWord v word).kind = d.kind := by
  cases d <;> cases v <;> rfl

@[simp]
theorem Row.id_withWord (v : Vocabulary) (word : String) (d : Row) :
    (d.withWord v word).id = d.id := by
  cases d <;> cases v <;> rfl

def Outcome.withWord (v : Vocabulary) (word : String) : Outcome → Outcome
  | .row d => .row (d.withWord v word)
  | o => o

end Domain

namespace ScopeConfig.DiffersAt

open Domain

variable {v : Vocabulary} {key : String} {c c' : ScopeConfig} (h : c.DiffersAt v key c')

include h

/-- A word of another vocabulary is the same, and so is that for an id that is not the key. -/
theorem word_eq {u : Vocabulary} {id : Int} (hid : u = v → toString id ≠ key) :
    u.word (some c') id = u.word (some c) id := by
  have hentry : (u.overrides c').get? (toString id) = (u.overrides c).get? (toString id) := by
    by_cases hu : u = v
    · subst hu
      exact (h.overrides _ (hid rfl)).symm
    · rw [h.others u hu]
  rw [Vocabulary.word, Vocabulary.word, Option.bind_some, Option.bind_some, hentry]

theorem allowsSuite_eq (suite : Int) : c'.allowsSuite suite = c.allowsSuite suite := by
  rw [allowsSuite, allowsSuite, h.includedSuites, h.excludedSuites]

theorem allowsMilestone_eq (milestone : Option Int) :
    c'.allowsMilestone milestone = c.allowsMilestone milestone := by
  rw [allowsMilestone, allowsMilestone, h.includedMilestones]

theorem automated_eq (fields : List (String × Json)) :
    automated (some c') fields = automated (some c) fields := by
  rw [automated, automated, Option.any_some, Option.any_some, marksAutomated, marksAutomated,
    h.automationField, h.automatedValues]

theorem attributesOf_eq (fields : List (String × Json)) :
    attributesOf (some c') fields = attributesOf (some c) fields := by
  rw [attributesOf, attributesOf, Option.elim_some, Option.elim_some, attributes, attributes,
    h.customFields]

theorem rejects_eq (r : Tool.Row) : rejects (some c') r = rejects (some c) r := by
  cases r with
  | case x => simp only [rejects, Option.any_some, h.allowsSuite_eq]
  | run x => simp only [rejects, Option.any_some, h.allowsMilestone_eq]
  | _ => rfl

theorem convert_eq {r : Tool.Row} (hcode : ∀ id, r.code? v = some id → toString id ≠ key) :
    convert (some c') r = convert (some c) r := by
  cases r with
  | case x =>
    have htype : Vocabulary.caseType.word (some c') (x.typeId.getD 0) =
        Vocabulary.caseType.word (some c) (x.typeId.getD 0) :=
      h.word_eq fun hv => hcode _ (hv ▸ rfl)
    have hpriority : Vocabulary.priority.word (some c') (x.priorityId.getD 0) =
        Vocabulary.priority.word (some c) (x.priorityId.getD 0) :=
      h.word_eq fun hv => hcode _ (hv ▸ rfl)
    rw [convert, convert, TestCase.ofTool?, TestCase.ofTool?, Option.all_some, Option.all_some,
      h.allowsSuite_eq, h.automated_eq, h.attributesOf_eq, htype, hpriority]
  | run x =>
    rw [convert, convert, TestRun.ofTool?, TestRun.ofTool?, Option.all_some, Option.all_some,
      h.allowsMilestone_eq]
  | result x =>
    have hstatus : Vocabulary.status.word (some c') (x.statusId.getD 0) =
        Vocabulary.status.word (some c) (x.statusId.getD 0) :=
      h.word_eq fun hv => hcode _ (hv ▸ rfl)
    rw [convert, convert, Execution.ofTool, Execution.ofTool, hstatus]
  | _ => rfl

theorem convert_of_code {r : Tool.Row} {id : Int} (hid : r.code? v = some id) :
    convert (some c') r = (convert (some c) r).withWord v (v.word (some c') id) := by
  cases r with
  | case x =>
    rw [convert, convert, TestCase.ofTool?, TestCase.ofTool?, Option.all_some, Option.all_some,
      h.allowsSuite_eq, h.automated_eq, h.attributesOf_eq]
    split
    · cases v with
      | status => cases hid
      | caseType =>
        cases hid
        rw [h.word_eq (u := .priority) (fun hu => Vocabulary.noConfusion hu)]
        rfl
      | priority =>
        cases hid
        rw [h.word_eq (u := .caseType) (fun hu => Vocabulary.noConfusion hu)]
        rfl
    · rfl
  | result x =>
    cases v with
    | status =>
      cases hid
      rfl
    | _ => cases hid
  | _ => cases v <;> cases hid

theorem convert_cases (r : Tool.Row) :
    convert (some c') r = convert (some c) r ∨
      ∃ id, r.code? v = some id ∧ toString id = key ∧
        convert (some c') r = (convert (some c) r).withWord v (v.word (some c') id) := by
  by_cases hcode : ∃ id, r.code? v = some id ∧ toString id = key
  · obtain ⟨id, hid, hkey⟩ := hcode
    exact .inr ⟨id, hid, hkey, h.convert_of_code hid⟩
  · exact .inl (h.convert_eq fun id hid hkey => hcode ⟨id, hid, hkey⟩)

end ScopeConfig.DiffersAt

end QaLake
