namespace QaLake.Word

def signedLimit : Nat := 1 <<< 63

def unsignedLimit : Nat := 1 <<< 64

def halfLimit : Nat := 1 <<< 31

def IsSigned (n : Int) : Prop :=
  -signedLimit ≤ n ∧ n < signedLimit

instance (n : Int) : Decidable (IsSigned n) :=
  inferInstanceAs (Decidable (_ ∧ _))

def wrap (n : Int) : Int :=
  n.bmod unsignedLimit

def add (a b : Int) : Int :=
  wrap (a + b)

theorem wrap_of_isSigned {n : Int} (h : IsSigned n) : wrap n = n := by
  obtain ⟨hlow, hhigh⟩ := h
  have hsigned : (signedLimit : Int) = 9223372036854775808 := rfl
  have hunsigned : unsignedLimit = 18446744073709551616 := rfl
  rw [wrap, hunsigned]
  exact Int.bmod_eq_of_le (by omega) (by omega)

theorem wrap_wrap_add (a b : Int) : wrap (wrap a + b) = wrap (a + b) :=
  Int.bmod_add_bmod

theorem wrap_add_wrap (a b : Int) : wrap (a + wrap b) = wrap (a + b) :=
  Int.add_bmod_bmod

theorem wrap_wrap (n : Int) : wrap (wrap n) = wrap n :=
  Int.bmod_bmod

end QaLake.Word
