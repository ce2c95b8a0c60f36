namespace QaLake

/-- A strict order in which of two different keys one comes before the other. -/
class KeyOrder (κ : Type) where
  before : κ → κ → Bool
  irrefl (a : κ) : before a a = false
  trans {a b c : κ} : before a b = true → before b c = true → before a c = true
  total (a b : κ) : before a b = true ∨ a = b ∨ before b a = true

namespace KeyOrder

instance : KeyOrder Int where
  before a b := decide (a < b)
  irrefl a := by simp
  trans h h' := by simp only [decide_eq_true_eq] at *; omega
  total a b := by simp only [decide_eq_true_eq]; omega

/-- The order of two texts: the first difference decides, and a text comes after its beginnings. -/
def charsBefore : List Char → List Char → Bool
  | _, [] => false
  | [], _ :: _ => true
  | a :: as, b :: bs => a.toNat < b.toNat || (a == b && charsBefore as bs)

theorem charsBefore_irrefl (s : List Char) : charsBefore s s = false := by
  induction s with
  | nil => rfl
  | cons a s ih => simp [charsBefore, ih]

theorem charsBefore_trans {s t u : List Char} (h : charsBefore s t = true)
    (h' : charsBefore t u = true) : charsBefore s u = true := by
  induction s generalizing t u with
  | nil =>
    cases u with
    | nil => cases t <;> simp [charsBefore] at h'
    | cons c u => rfl
  | cons a s ih =>
    cases t with
    | nil => simp [charsBefore] at h
    | cons b t =>
      cases u with
      | nil => simp [charsBefore] at h'
      | cons c u =>
        simp only [charsBefore, Bool.or_eq_true, decide_eq_true_eq, Bool.and_eq_true,
          beq_iff_eq] at h h' ⊢
        rcases h with h | ⟨rfl, h⟩ <;> rcases h' with h' | ⟨rfl, h'⟩
        · exact .inl (by omega)
        · exact .inl h
        · exact .inl h'
        · exact .inr ⟨rfl, ih h h'⟩

theorem charsBefore_total (s t : List Char) :
    charsBefore s t = true ∨ s = t ∨ charsBefore t s = true := by
  induction s generalizing t with
  | nil => cases t <;> simp [charsBefore]
  | cons a s ih =>
    cases t with
    | nil => simp [charsBefore]
    | cons b t =>
      simp only [charsBefore, Bool.or_eq_true, decide_eq_true_eq, Bool.and_eq_true, beq_iff_eq,
        List.cons.injEq]
      rcases Nat.lt_trichotomy a.toNat b.toNat with h | h | h
      · exact .inl (.inl h)
      · have hab : a = b := Char.toNat_inj.1 h
        subst hab
        rcases ih t with h | h | h
        · exact .inl (.inr ⟨rfl, h⟩)
        · exact .inr (.inl ⟨rfl, h⟩)
        · exact .inr (.inr (.inr ⟨rfl, h⟩))
      · exact .inr (.inr (.inl h))

instance : KeyOrder String where
  before s t := charsBefore s.toList t.toList
  irrefl s := charsBefore_irrefl s.toList
  trans h h' := charsBefore_trans h h'
  total s t := by
    rcases charsBefore_total s.toList t.toList with h | h | h
    · exact .inl h
    · exact .inr (.inl (String.toList_inj.1 h))
    · exact .inr (.inr h)

end KeyOrder

/-- The key of a row that belongs to a connection. -/
structure RowKey (ι : Type) where
  connection : Int
  id : ι
  deriving DecidableEq, Repr

namespace RowKey

variable {ι : Type} [KeyOrder ι]

def before (a b : RowKey ι) : Bool :=
  a.connection < b.connection ||
    (a.connection == b.connection && KeyOrder.before a.id b.id)

instance : KeyOrder (RowKey ι) where
  before := before
  irrefl a := by simp [before, KeyOrder.irrefl]
  trans {a b c} h h' := by
    simp only [before, Bool.or_eq_true, decide_eq_true_eq, Bool.and_eq_true, beq_iff_eq] at *
    rcases h with h | ⟨e, h⟩ <;> rcases h' with h' | ⟨e', h'⟩
    · exact .inl (by omega)
    · exact .inl (by omega)
    · exact .inl (by omega)
    · exact .inr ⟨e.trans e', KeyOrder.trans h h'⟩
  total a b := by
    simp only [before, Bool.or_eq_true, decide_eq_true_eq, Bool.and_eq_true, beq_iff_eq]
    rcases Int.lt_trichotomy a.connection b.connection with h | h | h
    · exact .inl (.inl h)
    · rcases KeyOrder.total a.id b.id with h' | h' | h'
      · exact .inl (.inr ⟨h, h'⟩)
      · exact .inr (.inl (by cases a; cases b; simp_all))
      · exact .inr (.inr (.inr ⟨h.symm, h'⟩))
    · exact .inr (.inr (.inl h))

end RowKey

end QaLake
