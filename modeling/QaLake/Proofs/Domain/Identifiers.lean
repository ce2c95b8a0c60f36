import QaLake.Domain.Conversion
import QaLake.Proofs.Endpoint.Paths

namespace QaLake

open Json

theorem Json.intChars_injective {a b : Int} (h : intChars a = intChars b) : a = b := by
  have hdigits : ∀ {m n : Nat}, Nat.toDigits 10 m = Nat.toDigits 10 n → m = n := by
    intro m n hmn
    rw [← valueOf_digits m, hmn, valueOf_digits]
  have hsign : ∀ {m n : Nat}, '-' :: Nat.toDigits 10 m ≠ Nat.toDigits 10 n := by
    intro m n hmn
    have hminus : '-'.isDigit = true := isDigit_of_mem_digits (hmn ▸ List.mem_cons_self)
    exact absurd hminus (by decide)
  rw [intChars, intChars] at h
  by_cases ha : a < 0
  · by_cases hb : b < 0
    · rw [if_pos ha, if_pos hb] at h
      have habs := hdigits (List.cons.inj h).2
      omega
    · rw [if_pos ha, if_neg hb] at h
      exact absurd h hsign
  · by_cases hb : b < 0
    · rw [if_neg ha, if_pos hb] at h
      exact absurd h.symm hsign
    · rw [if_neg ha, if_neg hb] at h
      have habs := hdigits h
      omega

theorem toString_int_injective {a b : Int} (h : toString a = toString b) : a = b := by
  rw [← text_int, ← text_int] at h
  exact intChars_injective (String.ofList_injective h)

theorem eq_of_append_cons {α : Type} {c : α} {a b x y : List α} (ha : c ∉ a) (hb : c ∉ b)
    (h : a ++ c :: x = b ++ c :: y) : a = b ∧ x = y := by
  induction a generalizing b with
  | nil =>
    cases b with
    | nil => exact ⟨rfl, (List.cons.inj h).2⟩
    | cons d b =>
      obtain ⟨rfl, -⟩ := List.cons.inj h
      exact absurd List.mem_cons_self hb
  | cons d a ih =>
    cases b with
    | nil =>
      obtain ⟨rfl, -⟩ := List.cons.inj h
      exact absurd List.mem_cons_self ha
    | cons e b =>
      obtain ⟨rfl, htail⟩ := List.cons.inj h
      obtain ⟨rfl, hrest⟩ := ih (fun hc => ha (List.mem_cons_of_mem _ hc))
        (fun hc => hb (List.mem_cons_of_mem _ hc)) htail
      exact ⟨rfl, hrest⟩

/-- What stands before a mark is told from a text, if the mark begins with a character that does not
occur there. -/
theorem eq_of_append_mark {mark a b x y : String} {c : Char} (hmark : mark.toList.head? = some c)
    (ha : c ∉ a.toList) (hb : c ∉ b.toList) (h : a ++ (mark ++ x) = b ++ (mark ++ y)) :
    a = b ∧ x = y := by
  obtain ⟨cs, hcs⟩ := List.head?_eq_some_iff.1 hmark
  have hlists := congrArg String.toList h
  simp only [String.toList_append, hcs, List.cons_append] at hlists
  obtain ⟨hfront, hback⟩ := eq_of_append_cons ha hb hlists
  exact ⟨String.toList_inj.1 hfront, String.toList_inj.1 (List.append_cancel_left hback)⟩

theorem notMem_toString_int {c : Char} (hc : Text.isUnreserved c = false) (n : Int) :
    c ∉ (toString n).toList := by
  intro hmem
  rw [← text_int, Number.text, String.toList_ofList] at hmem
  have hplain := intChars_unreserved n c hmem
  rw [hc] at hplain
  cases hplain

namespace EntityKind

theorem typeName_injective {a b : EntityKind} (h : a.typeName = b.typeName) : a = b := by
  have hall : ∀ a ∈ all, ∀ b ∈ all, a.typeName = b.typeName → a = b := by decide +kernel
  have hmem : ∀ kind : EntityKind, kind ∈ all := fun kind => by cases kind <;> decide
  exact hall a (hmem a) b (hmem b) h

theorem notMem_typeName (kind : EntityKind) : ':' ∉ kind.typeName.toList := by
  cases kind <;> decide

end EntityKind

theorem domainId_injective {kind kind' : EntityKind} {c c' : Int} {id id' : String}
    (h : domainId kind c id = domainId kind' c' id') : kind = kind' ∧ c = c' ∧ id = id' := by
  simp only [domainId, String.append_assoc, String.append_right_inj] at h
  obtain ⟨hkind, h⟩ := eq_of_append_mark (c := ':') (by decide) kind.notMem_typeName
    kind'.notMem_typeName h
  obtain ⟨hc, hid⟩ := eq_of_append_mark (c := ':') (by decide)
    (notMem_toString_int (by decide) c) (notMem_toString_int (by decide) c') h
  exact ⟨EntityKind.typeName_injective hkind, toString_int_injective hc, hid⟩

theorem RunScope.tag_injective {a b : RunScope} (h : a.tag = b.tag) : a = b := by
  unfold tag at h
  simp only [String.append_assoc, String.append_right_inj] at h
  obtain ⟨hconnection, h⟩ := eq_of_append_mark (c := ',') (by decide)
    (notMem_toString_int (by decide) a.connection) (notMem_toString_int (by decide) b.connection) h
  have hproject := toString_int_injective ((String.append_left_inj _).1 h)
  obtain ⟨connection, project⟩ := a
  obtain ⟨connection', project'⟩ := b
  cases toString_int_injective hconnection
  cases hproject
  rfl

namespace Domain

theorem idOf_injective {kind : EntityKind} {connection a b : Int}
    (h : idOf kind connection a = idOf kind connection b) : a = b := by
  rw [idOf, idOf, domainId, domainId] at h
  exact toString_int_injective ((String.append_right_inj _).1 h)

/-- Identifiers never collide: they are equal only for the same kind, connection and remote id, be
the remote ids texts, whatever these contain, or numbers. -/
theorem identifiers_apart (kind kind' : EntityKind) (connection connection' : Int) :
    (∀ id id' : String, domainId kind connection id = domainId kind' connection' id' ↔
        kind = kind' ∧ connection = connection' ∧ id = id') ∧
      ∀ n n' : Int, idOf kind connection n = idOf kind' connection' n' ↔
        kind = kind' ∧ connection = connection' ∧ n = n' := by
  constructor
  · intro id id'
    refine ⟨domainId_injective, ?_⟩
    rintro ⟨rfl, rfl, rfl⟩
    rfl
  · intro n n'
    constructor
    · intro h
      obtain ⟨hkind, hconnection, hid⟩ := domainId_injective h
      exact ⟨hkind, hconnection, toString_int_injective hid⟩
    · rintro ⟨rfl, rfl, rfl⟩
      rfl

example : domainId .plan 1 "Entry:2:7" ≠ domainId .planEntry 2 "7" := by decide

theorem TestCase.ids_of_ofTool? {config : Option ScopeConfig} {c : Tool.Case} {d : TestCase}
    (h : ofTool? config c = some d) :
    d.id = idOf .case c.connectionId c.id ∧
      d.projectId = idOf .project c.connectionId c.projectId := by
  rw [ofTool?] at h
  split at h
  · cases h
    exact ⟨rfl, rfl⟩
  · cases h

theorem TestRun.ids_of_ofTool? {config : Option ScopeConfig} {r : Tool.Run} {d : TestRun}
    (h : ofTool? config r = some d) :
    d.id = idOf .run r.connectionId r.id ∧
      d.projectId = idOf .project r.connectionId r.projectId := by
  rw [ofTool?] at h
  split at h
  · cases h
    exact ⟨rfl, rfl⟩
  · cases h

end Domain

end QaLake
