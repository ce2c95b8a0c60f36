import QaLake.Proofs.Domain.Identifiers
import QaLake.Proofs.Scope.Attributes
import QaLake.Proofs.Store.ReadBack
import QaLake.Proofs.Store.Rows
import QaLake.Subtask

namespace QaLake

namespace Tool.Row

/-- The custom fields of a case; other rows have none. -/
def customFields : Row → List (String × Json)
  | .case c => c.customFields
  | _ => []

end Tool.Row

namespace Domain

namespace Outcome

def row? : Outcome → Option Row
  | .row r => some r
  | _ => none

def isFiltered : Outcome → Bool
  | .filtered => true
  | _ => false

theorem row?_eq_some_iff {o : Outcome} {d : Row} : o.row? = some d ↔ o = .row d := by
  cases o <;> simp [row?]

theorem isFiltered_iff {o : Outcome} : o.isFiltered = true ↔ o = .filtered := by
  cases o <;> simp [isFiltered]

end Outcome

variable {config : Option ScopeConfig} {r : Tool.Row} {d : Row}

/-- Whether the filter of the suites or of the milestones keeps a tool row out. -/
def rejects (config : Option ScopeConfig) : Tool.Row → Bool
  | .case c => config.any fun s => !s.allowsSuite (c.suiteId.getD 0)
  | .run r => config.any fun s => !s.allowsMilestone r.milestoneId
  | _ => false

theorem TestCase.isSome_ofTool? (config : Option ScopeConfig) (c : Tool.Case) :
    (TestCase.ofTool? config c).isSome = !rejects config (.case c) := by
  rw [TestCase.ofTool?, rejects]
  cases config with
  | none => rfl
  | some s => cases h : s.allowsSuite (c.suiteId.getD 0) <;> simp [h]

theorem TestRun.isSome_ofTool? (config : Option ScopeConfig) (r : Tool.Run) :
    (TestRun.ofTool? config r).isSome = !rejects config (.run r) := by
  rw [TestRun.ofTool?, rejects]
  cases config with
  | none => rfl
  | some s => cases h : s.allowsMilestone r.milestoneId <;> simp [h]

theorem convert_eq_filtered_iff : convert config r = .filtered ↔ rejects config r = true := by
  cases r with
  | case c =>
    have h := TestCase.isSome_ofTool? config c
    rw [convert]
    cases hc : TestCase.ofTool? config c <;> simp_all [Outcome.ofOption]
  | run x =>
    have h := TestRun.isSome_ofTool? config x
    rw [convert]
    cases hx : TestRun.ofTool? config x <;> simp_all [Outcome.ofOption]
  | _ => simp [convert, rejects]

theorem convert_eq_noCounterpart_iff :
    convert config r = .noCounterpart ↔ r.kind.isConverted = false := by
  have hoption : ∀ d? : Option Row, Outcome.ofOption d? ≠ .noCounterpart := by
    intro d?
    cases d? <;> exact Outcome.noConfusion
  cases r with
  | case c => exact iff_of_false (hoption _) Bool.noConfusion
  | run x => exact iff_of_false (hoption _) Bool.noConfusion
  | project | result => exact iff_of_false Outcome.noConfusion Bool.noConfusion
  | _ => exact iff_of_true rfl rfl

theorem cases_of_convert (h : convert config r = .row d) :
    (∃ p, r = .project p ∧ d = .project (.ofTool p)) ∨
      (∃ c x, r = .case c ∧ TestCase.ofTool? config c = some x ∧ d = .testCase x) ∨
      (∃ u x, r = .run u ∧ TestRun.ofTool? config u = some x ∧ d = .testRun x) ∨
      ∃ e, r = .result e ∧ d = .execution (.ofTool config e) := by
  cases r with
  | project p =>
    cases h
    exact .inl ⟨p, rfl, rfl⟩
  | case c =>
    rw [convert] at h
    cases hc : TestCase.ofTool? config c with
    | none =>
      rw [hc] at h
      cases h
    | some x =>
      rw [hc] at h
      cases h
      exact .inr (.inl ⟨c, x, rfl, hc, rfl⟩)
  | run u =>
    rw [convert] at h
    cases hu : TestRun.ofTool? config u with
    | none =>
      rw [hu] at h
      cases h
    | some x =>
      rw [hu] at h
      cases h
      exact .inr (.inr (.inl ⟨u, x, rfl, hu, rfl⟩))
  | result e =>
    cases h
    exact .inr (.inr (.inr ⟨e, rfl, rfl⟩))
  | _ => cases h

theorem TestCase.fields_of_ofTool? {c : Tool.Case} {x : TestCase}
    (h : TestCase.ofTool? config c = some x) : x.createTime = .ofUnix c.createdOn ∧
      x.customAttributes = ScopeConfig.attributesOf config c.customFields := by
  rw [TestCase.ofTool?] at h
  split at h
  · cases h
    exact ⟨rfl, rfl⟩
  · cases h

theorem TestRun.fields_of_ofTool? {u : Tool.Run} {x : TestRun}
    (h : TestRun.ofTool? config u = some x) : x.startTime = .ofUnix u.createdOn ∧
      x.finishTime = (u.completedOn.filter (0 < ·)).map .ofUnix ∧
      x.skippedCount = u.counts.blocked ∧ x.totalCount = u.counts.total := by
  rw [TestRun.ofTool?] at h
  split at h
  · cases h
    exact ⟨rfl, rfl, rfl, rfl⟩
  · cases h

/-- A domain row is identified by the kind, the connection and the id of its tool row. -/
theorem id_of_convert (h : convert config r = .row d) :
    ∃ id, r.name = ⟨r.kind, r.connectionId, .inl id⟩ ∧
      d.id = idOf r.kind r.connectionId id := by
  obtain ⟨p, rfl, rfl⟩ | ⟨c, x, rfl, hx, rfl⟩ | ⟨u, x, rfl, hx, rfl⟩ | ⟨e, rfl, rfl⟩ :=
    cases_of_convert h
  · exact ⟨p.id, rfl, rfl⟩
  · exact ⟨c.id, rfl, (TestCase.ids_of_ofTool? hx).1⟩
  · exact ⟨u.id, rfl, (TestRun.ids_of_ofTool? hx).1⟩
  · exact ⟨e.id, rfl, rfl⟩

theorem isRegular_of_convert (h : convert config r = .row d) : ∀ i ∈ d.instants, i.IsRegular := by
  obtain ⟨p, rfl, rfl⟩ | ⟨c, x, rfl, hx, rfl⟩ | ⟨u, x, rfl, hx, rfl⟩ | ⟨e, rfl, rfl⟩ :=
    cases_of_convert h
  · simp [Row.instants]
  · obtain ⟨hcreate, -⟩ := TestCase.fields_of_ofTool? hx
    simp [Row.instants, hcreate, Instant.isRegular_ofUnix]
  · obtain ⟨hstart, hfinish, -⟩ := TestRun.fields_of_ofTool? hx
    simp only [Row.instants, hstart, hfinish, List.forall_mem_cons, Option.mem_toList,
      Option.map_eq_some_iff]
    refine ⟨Instant.isRegular_ofUnix _, ?_⟩
    rintro _ ⟨seconds, -, rfl⟩
    exact Instant.isRegular_ofUnix _
  · simp [Row.instants, Execution.ofTool, Instant.isRegular_ofUnix]

theorem attributes_of_convert (h : convert config r = .row d) :
    d.attributes = .obj [] ∨ ∃ s, config = some s ∧
      d.attributes = .obj (s.attributes r.customFields) := by
  obtain ⟨p, rfl, rfl⟩ | ⟨c, x, rfl, hx, rfl⟩ | ⟨u, x, rfl, hx, rfl⟩ | ⟨e, rfl, rfl⟩ :=
    cases_of_convert h
  · exact .inl rfl
  · obtain ⟨-, hattributes⟩ := TestCase.fields_of_ofTool? hx
    cases config with
    | none => exact .inl hattributes
    | some s => exact .inr ⟨s, rfl, hattributes⟩
  · exact .inl rfl
  · exact .inl rfl

theorem attributes_isNumber (h : convert config r = .row d) : d.attributes.isNumber = false := by
  obtain hnone | ⟨s, -, hattributes⟩ := attributes_of_convert h
  · rw [hnone]
    rfl
  · rw [hattributes]
    rfl

/-- Attributes out of custom fields without floating-point numbers read back as themselves, if no
text became such a number. -/
theorem attributesReread_of_convert (h : convert config r = .row d)
    (hfields : (Json.obj r.customFields).IsPlain)
    (hdepth : (Json.obj r.customFields).depth ≤ Json.Document.maxDepth)
    (hfloat : ∀ a ∈ d.attributes.members, a.2.isFloat = false) :
    d.attributesReread = d.attributes := by
  have hreadable : d.attributes.IsPlain ∧ d.attributes.depth ≤ Json.Document.maxDepth := by
    obtain hnone | ⟨s, -, hattributes⟩ := attributes_of_convert h
    · rw [hnone]
      exact ⟨⟨List.Pairwise.nil, trivial⟩, by decide⟩
    · rw [hattributes] at hfloat ⊢
      exact ⟨ScopeConfig.isPlain_attributes hfields hfloat,
        Nat.le_trans (s.depth_attributes_le _) hdepth⟩
  rw [Row.attributesReread, Json.parse?_text _ hreadable.1 hreadable.2, Option.getD_some]

end Domain

end QaLake
