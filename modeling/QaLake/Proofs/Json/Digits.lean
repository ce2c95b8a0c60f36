import QaLake.Json.Document
import QaLake.Json.Printer

namespace QaLake.Json

open Document

theorem isDigit_of_mem_digits {n : Nat} {c : Char} (h : c ∈ Nat.toDigits 10 n) :
    c.isDigit = true :=
  Nat.isDigit_of_mem_toDigits (by decide) (by decide) h

theorem digitValue_digitChar {n : Nat} (h : n < 10) : digitValue (Nat.digitChar n) = n :=
  Nat.toNat_digitChar_sub_48_of_lt_ten h

theorem digits_cons {n : Nat} {c : Char} {cs : List Char} (h : Nat.toDigits 10 n = c :: cs)
    (hcs : cs ≠ []) : digitValue c ≠ 0 := by
  induction n using Nat.strongRecOn generalizing c cs with
  | ind n ih =>
    rw [Nat.toDigits_eq_if (by decide)] at h
    split at h
    · simp_all
    · rename_i hn
      cases hd : Nat.toDigits 10 (n / 10) with
      | nil => exact absurd hd Nat.toDigits_ne_nil
      | cons d ds =>
        rw [hd, List.cons_append, List.cons.injEq] at h
        obtain ⟨rfl, -⟩ := h
        by_cases hds : ds = []
        · subst hds
          rw [Nat.toDigits_eq_if (by decide)] at hd
          split at hd
          · rename_i hlt
            simp only [List.cons.injEq, and_true] at hd
            rw [← hd, digitValue_digitChar hlt]
            omega
          · have hne : Nat.toDigits 10 (n / 10 / 10) ≠ [] := Nat.toDigits_ne_nil
            cases he : Nat.toDigits 10 (n / 10 / 10) <;> simp_all
        · exact ih (n / 10) (by omega) hd hds

def valueOf (n : Nat) (ds : List Nat) : Nat :=
  ds.foldl (fun n d => n * 10 + d) n

theorem le_valueOf (n : Nat) (ds : List Nat) : n ≤ valueOf n ds := by
  induction ds generalizing n with
  | nil => exact Nat.le_refl n
  | cons d ds ih =>
    have h := ih (n * 10 + d)
    simp only [valueOf, List.foldl_cons] at h ⊢
    omega

theorem absorb_eq (n : Nat) (ds : List Nat) (h : valueOf n ds < Word.unsignedLimit) :
    Literal.absorb n ds = (valueOf n ds, []) := by
  induction ds generalizing n with
  | nil => rfl
  | cons d ds ih =>
    have hlt : n * 10 + d < Word.unsignedLimit := Nat.lt_of_le_of_lt (le_valueOf _ ds) h
    rw [Literal.absorb, if_pos hlt]
    exact ih _ h

theorem valueOf_digits (n : Nat) : valueOf 0 ((Nat.toDigits 10 n).map digitValue) = n := by
  have h := @Nat.ofDigitChars_ten_toDigits n
  rw [Nat.ofDigitChars] at h
  simpa only [valueOf, List.foldl_map, digitValue, Nat.mul_comm 10] using h

theorem number_digits (n : Int) (h : -Word.signedLimit ≤ n) (h' : n < Word.unsignedLimit) :
    Literal.number ⟨decide (n < 0), (Nat.toDigits 10 n.natAbs).map digitValue, none, none⟩ =
      some (.int n) := by
  have hsmall : n.natAbs < Word.unsignedLimit := by
    simp only [Word.signedLimit, Word.unsignedLimit] at *
    omega
  have habsorb : Literal.absorb 0 ((Nat.toDigits 10 n.natAbs).map digitValue) = (n.natAbs, []) := by
    rw [absorb_eq _ _ (by rwa [valueOf_digits]), valueOf_digits]
  rw [Literal.number, habsorb]
  by_cases hn : n < 0
  · have hne : n.natAbs ≠ 0 := by omega
    have hle : n.natAbs ≤ Word.signedLimit := by omega
    have habs : -(n.natAbs : Int) = n := by omega
    simp only [hn, decide_true, Bool.not_true, Bool.false_eq_true, if_false, hne, hle, if_true,
      habs]
  · have habs : (n.natAbs : Int) = n := by omega
    simp only [hn, decide_false, Bool.not_false, if_true, habs]

end QaLake.Json
