import Mathlib.Tactic.SplitIfs
import QaLake.Keyed.Order

namespace QaLake.Text

def utf8 (s : String) : List UInt8 :=
  s.toUTF8.data.toList

theorem utf8_eq (s : String) : utf8 s = s.toList.flatMap String.utf8EncodeChar := by
  rw [utf8, String.toUTF8, ← String.utf8Encode_toList, List.utf8Encode, List.data_toByteArray]

theorem digit_lt {m n : Nat} (h : m < n) :
    m / 64 < n / 64 ∨ m / 64 = n / 64 ∧ m % 64 < n % 64 := by
  omega

theorem four_bytes_lt {m n : Nat} (h : m < n) (hn : n < 0x110000) (xs ys : List UInt8) :
    UInt8.ofNat (m / 262144 % 8 + 240) :: UInt8.ofNat (m / 4096 % 64 + 128) ::
        UInt8.ofNat (m / 64 % 64 + 128) :: UInt8.ofNat (m % 64 + 128) :: xs <
      UInt8.ofNat (n / 262144 % 8 + 240) :: UInt8.ofNat (n / 4096 % 64 + 128) ::
        UInt8.ofNat (n / 64 % 64 + 128) :: UInt8.ofNat (n % 64 + 128) :: ys := by
  simp only [List.cons_lt_cons_iff, UInt8.lt_iff_toNat_lt, ← UInt8.toNat_inj, UInt8.toNat_ofNat']
  obtain h | ⟨h, h₁⟩ := digit_lt h
  · obtain h | ⟨h, h₂⟩ := digit_lt h
    · obtain h | ⟨h, h₃⟩ := digit_lt h
      · refine .inl ?_
        omega
      · refine .inr ⟨?_, .inl ?_⟩ <;> omega
    · refine .inr ⟨?_, .inr ⟨?_, .inl ?_⟩⟩ <;> omega
  · refine .inr ⟨?_, .inr ⟨?_, .inr ⟨?_, .inl ?_⟩⟩⟩ <;> omega

theorem utf8EncodeChar_lt {a b : Char} (h : a.toNat < b.toNat) (xs ys : List UInt8) :
    String.utf8EncodeChar a ++ xs < String.utf8EncodeChar b ++ ys := by
  have hb : b.val.toNat < 0x110000 := by
    have hvalid := b.valid
    simp only [UInt32.isValidChar, Nat.isValidChar] at hvalid
    omega
  have h : a.val.toNat < b.val.toNat := h
  unfold String.utf8EncodeChar
  generalize a.val.toNat = m at *
  generalize b.val.toNat = n at *
  simp only
  by_cases hm : m ≤ 65535
  · split_ifs <;>
      · simp only [List.cons_append, List.nil_append, List.cons_lt_cons_iff, UInt8.lt_iff_toNat_lt,
          ← UInt8.toNat_inj, UInt8.toNat_ofNat']
        omega
  · rw [if_neg (by omega), if_neg (by omega), if_neg hm, if_neg (by omega), if_neg (by omega),
      if_neg (by omega)]
    exact four_bytes_lt h hb xs ys

theorem flatMap_lt_of_charsBefore {as bs : List Char} (h : KeyOrder.charsBefore as bs = true) :
    as.flatMap String.utf8EncodeChar < bs.flatMap String.utf8EncodeChar := by
  induction as generalizing bs with
  | nil =>
    cases bs with
    | nil => cases h
    | cons b bs =>
      have hpos : 0 < (String.utf8EncodeChar b).length := by
        rw [String.length_utf8EncodeChar]
        exact b.utf8Size_pos
      obtain ⟨x, xs, hx⟩ := List.exists_cons_of_length_pos hpos
      rw [List.flatMap_nil, List.flatMap_cons, hx, List.cons_append]
      exact List.nil_lt_cons x _
  | cons a as ih =>
    cases bs with
    | nil => cases h
    | cons b bs =>
      simp only [KeyOrder.charsBefore, Bool.or_eq_true, decide_eq_true_eq, Bool.and_eq_true,
        beq_iff_eq] at h
      rw [List.flatMap_cons, List.flatMap_cons]
      obtain h | ⟨rfl, h⟩ := h
      · exact utf8EncodeChar_lt h _ _
      · exact List.append_left_lt (ih h)

theorem utf8_lt_of_before {s t : String} (h : KeyOrder.before s t = true) : utf8 s < utf8 t := by
  rw [utf8_eq, utf8_eq]
  exact flatMap_lt_of_charsBefore h

end QaLake.Text
