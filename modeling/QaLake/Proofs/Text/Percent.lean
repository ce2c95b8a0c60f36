import Mathlib.Data.List.Basic
import QaLake.Proofs.Text.Utf8
import QaLake.Text.Character

namespace QaLake.Text

/-- The texts of unreserved characters and of escapes: a percent sign and two hexadecimal digits. -/
inductive IsEncoded : List Char → Prop
  | nil : IsEncoded []
  | kept {c : Char} {cs : List Char} (hc : isUnreserved c = true) (hcs : IsEncoded cs) :
    IsEncoded (c :: cs)
  | escape {a b : Char} {cs : List Char} (ha : a ∈ "0123456789ABCDEF".toList)
    (hb : b ∈ "0123456789ABCDEF".toList) (hcs : IsEncoded cs) : IsEncoded ('%' :: a :: b :: cs)

theorem upperHexDigit_mem {n : Nat} (h : n < 16) :
    upperHexDigit n ∈ "0123456789ABCDEF".toList := by
  revert n
  decide

theorem hexValue?_upperHexDigit {n : Nat} (h : n < 16) : hexValue? (upperHexDigit n) = some n := by
  revert n
  decide

theorem isEncoded_bytes (bs : List UInt8) {cs : List Char} (hcs : IsEncoded cs) :
    IsEncoded (bs.flatMap percentByte ++ cs) := by
  induction bs with
  | nil => exact hcs
  | cons b bs ih =>
    have hb : b.toNat < 256 := b.toNat_lt
    exact .escape (upperHexDigit_mem (by omega)) (upperHexDigit_mem (by omega)) ih

theorem isEncoded_percentEncode (s : String) : IsEncoded (percentEncode s).toList := by
  rw [percentEncode, String.toList_ofList]
  induction s.toList with
  | nil => exact .nil
  | cons c cs ih =>
    rw [List.flatMap_cons, percentChar]
    split
    · rename_i hc
      exact .kept hc ih
    · exact isEncoded_bytes _ ih

theorem percentDecode_bytes (bs : List UInt8) (cs : List Char) :
    percentDecode (bs.flatMap percentByte ++ cs) = bs ++ percentDecode cs := by
  induction bs with
  | nil => rfl
  | cons b bs ih =>
    have hb : b.toNat < 256 := b.toNat_lt
    have hvalue : b.toNat / 16 * 16 + b.toNat % 16 = b.toNat := by omega
    rw [List.flatMap_cons, percentByte, List.append_assoc]
    simp only [List.cons_append, List.nil_append]
    rw [percentDecode, hexValue?_upperHexDigit (by omega), hexValue?_upperHexDigit (by omega), ih]
    simp only [hvalue, UInt8.ofNat_toNat]

theorem percentDecode_unreserved {c : Char} (hc : isUnreserved c = true) (cs : List Char) :
    percentDecode (c :: cs) = String.utf8EncodeChar c ++ percentDecode cs := by
  have hpercent : c ≠ '%' := by
    rintro rfl
    exact absurd hc (by decide)
  rw [percentDecode]
  exact fun a b rest h => absurd h hpercent

theorem percentDecode_percentEncode (s : String) :
    percentDecode (percentEncode s).toList = utf8 s := by
  rw [percentEncode, String.toList_ofList, utf8_eq]
  induction s.toList with
  | nil => rfl
  | cons c cs ih =>
    rw [List.flatMap_cons, List.flatMap_cons, ← ih, percentChar]
    split
    · rename_i hc
      exact percentDecode_unreserved hc _
    · exact percentDecode_bytes _ _

theorem fromUTF8?_utf8 (s : String) : String.fromUTF8? (utf8 s).toByteArray = some s := by
  have hbytes : (utf8 s).toByteArray = s.toByteArray := by
    apply ByteArray.ext
    rw [utf8, List.data_toByteArray]
    rfl
  rw [hbytes, String.fromUTF8?, dif_pos s.isValidUTF8]
  rfl

theorem le_of_isUnreserved {c : Char} (hc : isUnreserved c = true) : c.toNat ≤ 127 := by
  delta isUnreserved Char.isAlphanum Char.isAlpha Char.isUpper Char.isLower Char.isDigit at hc
  simp only [Bool.or_eq_true, Bool.and_eq_true, decide_eq_true_eq, beq_iff_eq,
    UInt32.le_iff_toNat_le] at hc
  obtain ((((((⟨-, h⟩ | ⟨-, h⟩) | ⟨-, h⟩) | rfl) | rfl) | rfl) | rfl) := hc
  · exact Nat.le_trans h (by decide)
  · exact Nat.le_trans h (by decide)
  · exact Nat.le_trans h (by decide)
  all_goals decide

/-- A byte by itself, where it is an unreserved character, and as an escape elsewhere. -/
def encodedByte (b : UInt8) : List Char :=
  if isUnreserved (Char.ofNat b.toNat) then [Char.ofNat b.toNat] else percentByte b

theorem encodedByte_of_le {b : UInt8} (h : 128 ≤ b.toNat) : encodedByte b = percentByte b := by
  have hvalid : b.toNat.isValidChar := .inl (Nat.lt_trans b.toNat_lt (by decide))
  have hvalue : (Char.ofNat b.toNat).toNat = b.toNat := by
    rw [Char.ofNat, dif_pos hvalid]
    rfl
  refine if_neg fun hkept => ?_
  have hle := le_of_isUnreserved hkept
  omega

theorem le_of_mem_utf8EncodeChar {c : Char} (h : 127 < c.toNat) {b : UInt8}
    (hb : b ∈ String.utf8EncodeChar c) : 128 ≤ b.toNat := by
  rw [Char.toNat] at h
  unfold String.utf8EncodeChar at hb
  generalize c.val.toNat = n at *
  simp only at hb
  split_ifs at hb
  · omega
  all_goals simp only [List.mem_cons, List.not_mem_nil, or_false] at hb
  · obtain rfl | rfl := hb <;> rw [UInt8.toNat_ofNat'] <;> omega
  · obtain rfl | rfl | rfl := hb <;> rw [UInt8.toNat_ofNat'] <;> omega
  · obtain rfl | rfl | rfl | rfl := hb <;> rw [UInt8.toNat_ofNat'] <;> omega

theorem percentEncode_eq_bytes (s : String) :
    (percentEncode s).toList = (utf8 s).flatMap encodedByte := by
  have hchar : ∀ c, percentChar isUnreserved c = (String.utf8EncodeChar c).flatMap encodedByte := by
    intro c
    by_cases hascii : c.toNat ≤ 127
    · have hbyte : String.utf8EncodeChar c = [UInt8.ofNat c.toNat] := if_pos hascii
      have hback : Char.ofNat (UInt8.ofNat c.toNat).toNat = c := by
        rw [UInt8.toNat_ofNat', Nat.mod_eq_of_lt (by omega), Char.ofNat_toNat]
      rw [percentChar, hbyte]
      simp only [List.flatMap_cons, List.flatMap_nil, List.append_nil, encodedByte, hback]
    · have hkept : ¬isUnreserved c = true := fun h => hascii (le_of_isUnreserved h)
      rw [percentChar, if_neg hkept]
      exact List.flatMap_congr fun b hb =>
        (encodedByte_of_le (le_of_mem_utf8EncodeChar (by omega) hb)).symm
  rw [percentEncode, String.toList_ofList, utf8_eq, List.flatMap_assoc]
  exact List.flatMap_congr fun c _ => hchar c

theorem percentEncode_injective {s s' : String} (h : percentEncode s = percentEncode s') :
    s = s' := by
  have hs := fromUTF8?_utf8 s
  rw [← percentDecode_percentEncode, h, percentDecode_percentEncode, fromUTF8?_utf8] at hs
  exact (Option.some.inj hs).symm

end QaLake.Text
