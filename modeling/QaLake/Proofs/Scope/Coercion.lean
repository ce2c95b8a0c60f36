import QaLake.Proofs.Json.Numerals
import QaLake.Proofs.Scope.Attributes
import QaLake.Proofs.Store.ReadBack
import QaLake.Proofs.Text.Trim
import QaLake.Proofs.Time.Readers

namespace QaLake

open Json

namespace Text

theorem isBlank_eq_false_of_isDigit {c : Char} (h : c.isDigit = true) : isBlank c = false := by
  simp only [Char.isDigit, Bool.and_eq_true, decide_eq_true_eq] at h
  have hlow : 48 ≤ c.toNat := h.1
  have hhigh : c.toNat ≤ 57 := h.2
  simp only [isBlank, Bool.or_eq_false_iff, Bool.and_eq_false_iff, decide_eq_false_iff_not,
    beq_eq_false_iff_ne]
  omega

theorem isBlank_eq_false_of_isNumeralChar {c : Char} (h : IsNumeralChar c) : isBlank c = false := by
  obtain h | h := h
  · exact isBlank_eq_false_of_isDigit h
  · simp only [List.mem_cons, List.not_mem_nil, or_false] at h
    obtain rfl | rfl | rfl | rfl := h <;> rfl

end Text

theorem Json.Number.isTrimmed_chars (n : Json.Number) : Text.IsTrimmed n.chars :=
  Text.isTrimmed_of_all fun c hc =>
    Text.isBlank_eq_false_of_isNumeralChar (n.isSome_numeral?_chars.2 c hc)

namespace Instant

open Time

/-- The text of an instant begins with its year and ends with its offset, and a letter stands in
between. -/
theorem exists_text (t : Instant) : ∃ front middle, t.text =
    String.ofList (front ++ middle ++ "+00:00".toList) ∧ 'T' ∈ middle ∧ front ≠ [] ∧
      ∀ c ∈ front, Text.isBlank c = false := by
  obtain ⟨hne, hfront⟩ : yearChars t.date.year ≠ [] ∧
      ∀ c ∈ yearChars t.date.year, Text.isBlank c = false := by
    have hdigits : ∀ c ∈ padded 4 t.date.year.natAbs, Text.isBlank c = false := fun c hc =>
      Text.isBlank_eq_false_of_isDigit (isDigit_of_mem_padded hc)
    rw [yearChars]
    split
    · have habs : t.date.year.toNat = t.date.year.natAbs := by omega
      rw [habs]
      refine ⟨?_, hdigits⟩
      simp [padded]
    · refine ⟨List.cons_ne_nil _ _, List.forall_mem_cons.2 ⟨?_, hdigits⟩⟩
      split <;> decide
  obtain ⟨middle, hmiddle, hletter⟩ : ∃ middle, t.localChars = yearChars t.date.year ++ middle ∧
      'T' ∈ middle := by
    simp only [localChars, List.append_assoc]
    refine ⟨_, rfl, ?_⟩
    simp
  exact ⟨_, middle, by rw [text, hmiddle], hletter, hne, hfront⟩

theorem trim_text (t : Instant) : Text.trim t.text = t.text := by
  obtain ⟨front, middle, htext, -, hne, hfront⟩ := t.exists_text
  have hoffset : ∀ c ∈ "+00:00".toList, Text.isBlank c = false := by simp [Text.isBlank]
  rw [htext]
  exact Text.trim_ofList (Text.isTrimmed_between hfront hoffset ⟨hne, List.cons_ne_nil _ _⟩ _)

/-- A text of an instant is no date that stands alone, since it goes on behind the date. -/
theorem dateIn?_text (t : Instant) (layout : DateLayout) : dateIn? layout t.text = none := by
  have hletter : ¬IsDateChar 'T' := by
    rw [IsDateChar]
    decide
  refine dateIn?_eq_none hletter ?_ layout
  obtain ⟨front, middle, htext, hmiddle, -⟩ := t.exists_text
  rw [htext, String.toList_ofList]
  exact List.mem_append_left _ (List.mem_append_right front hmiddle)

end Instant

namespace FieldMapping

theorem toInstant?_text {t : Instant} (h : t.IsRegular) :
    toInstant? (.str t.text) = if t.HasFourDigitYear then some t else none := by
  have hdate : (Time.dateIn? .yearMonthDay t.text).or (Time.dateIn? .monthDayYear t.text) =
      none := by
    rw [t.dateIn?_text, t.dateIn?_text]
    rfl
  simp only [toInstant?, t.trim_text, t.strict?_text h, hdate]
  by_cases hyear : t.HasFourDigitYear
  · rw [if_pos hyear]
  · rw [if_neg hyear]
    rfl

theorem isRegular_of_toInstant? {j : Json} {t : Instant} (h : toInstant? j = some t) :
    t.IsRegular := by
  have hint : ∀ j : Json, j.int64?.map Instant.ofUnix = some t → t.IsRegular := by
    intro j h
    obtain ⟨seconds, -, rfl⟩ := Option.map_eq_some_iff.1 h
    exact Instant.isRegular_ofUnix seconds
  rw [toInstant?.eq_def] at h
  split at h
  · dsimp only at h
    split at h
    · rename_i hstrict
      cases h
      exact Time.isRegular_of_strict? hstrict
    · obtain ⟨date, hdate, rfl⟩ := Option.map_eq_some_iff.1 h
      obtain hdate | hdate := Option.or_eq_some_iff.1 hdate
      · exact Time.isRegular_of_dateIn? hdate
      · exact Time.isRegular_of_dateIn? hdate.2
  · exact hint _ h

def converted? (fieldType : String) (j : Json) : Option Json :=
  if fieldType = "string" then j.scalarText.map .str
  else if fieldType = "boolean" then (toBool? j).map .bool
  else if fieldType = "number" then (toNumber? j).map .num
  else if fieldType = "date" then (toInstant? j).map fun t => .str t.text
  else none

theorem coerce_eq (fieldType : String) (j : Json) :
    coerce fieldType j = (converted? fieldType j).getD j :=
  rfl

theorem trim_of_scalarText {j : Json} {s : String} (h : j.scalarText = some s) :
    Text.trim s = s := by
  cases j with
  | str t =>
    cases h
    exact Text.trim_trim t
  | num n =>
    cases h
    exact Text.trim_ofList n.isTrimmed_chars
  | bool b =>
    cases h
    cases b <;> rfl
  | null | arr _ | obj _ => cases h

theorem coerce_of_converted? {fieldType : String} {j k : Json}
    (h : converted? fieldType j = some k) : coerce fieldType k = k := by
  rw [coerce_eq]
  rw [converted?] at h ⊢
  by_cases hstring : fieldType = "string"
  · rw [if_pos hstring] at h ⊢
    obtain ⟨s, hs, rfl⟩ := Option.map_eq_some_iff.1 h
    exact congrArg Json.str (trim_of_scalarText hs)
  rw [if_neg hstring] at h ⊢
  by_cases hboolean : fieldType = "boolean"
  · rw [if_pos hboolean] at h ⊢
    obtain ⟨b, -, rfl⟩ := Option.map_eq_some_iff.1 h
    rfl
  rw [if_neg hboolean] at h ⊢
  by_cases hnumber : fieldType = "number"
  · rw [if_pos hnumber] at h ⊢
    obtain ⟨n, -, rfl⟩ := Option.map_eq_some_iff.1 h
    rfl
  rw [if_neg hnumber] at h ⊢
  by_cases hdate : fieldType = "date"
  · rw [if_pos hdate] at h ⊢
    obtain ⟨t, ht, rfl⟩ := Option.map_eq_some_iff.1 h
    rw [toInstant?_text (isRegular_of_toInstant? ht)]
    by_cases hyear : t.HasFourDigitYear
    · rw [if_pos hyear]
      rfl
    · rw [if_neg hyear]
      rfl
  · rw [if_neg hdate] at h
    cases h

/-- Coercion settles in one step. The text that it makes of a date is read back as the same instant
if its year has four digits, and stands for no instant otherwise. -/
theorem coerce_settles (fieldType : String) (j : Json) :
    coerce fieldType (coerce fieldType j) = coerce fieldType j ∧
      ∀ t, toInstant? j = some t → coerce "date" j = .str t.text ∧
        toInstant? (.str t.text) = if t.HasFourDigitYear then some t else none := by
  constructor
  · cases h : converted? fieldType j with
    | none =>
      have hkept : coerce fieldType j = j := by rw [coerce_eq, h, Option.getD_none]
      rw [hkept, hkept]
    | some k =>
      have hconverted : coerce fieldType j = k := by rw [coerce_eq, h, Option.getD_some]
      rw [hconverted, coerce_of_converted? h]
  · intro t ht
    refine ⟨?_, toInstant?_text (isRegular_of_toInstant? ht)⟩
    change ((toInstant? j).map fun t => Json.str t.text).getD j = .str t.text
    rw [ht]
    rfl

/-- A leap second west of Greenwich, which falls in the year 10000 of universal time. -/
theorem coerce_settles_leapSecond :
    toInstant? (.str "9999-12-31T23:59:60.5-01:00") = some ⟨253402304399, 1500000000⟩ ∧
      coerce "date" (.str "9999-12-31T23:59:60.5-01:00") =
        .str "+10000-01-01T00:59:60.500+00:00" ∧
      toInstant? (.str "+10000-01-01T00:59:60.500+00:00") = none := by
  have hread : toInstant? (.str "9999-12-31T23:59:60.5-01:00") =
      some ⟨253402304399, 1500000000⟩ := by
    decide +kernel
  have htext : Instant.text ⟨253402304399, 1500000000⟩ = "+10000-01-01T00:59:60.500+00:00" := by
    cbv
  have hyear : ¬Instant.HasFourDigitYear ⟨253402304399, 1500000000⟩ := by decide
  have hsettles := (coerce_settles "date" (.str "9999-12-31T23:59:60.5-01:00")).2 _ hread
  rw [htext, if_neg hyear] at hsettles
  exact ⟨hread, hsettles⟩

end FieldMapping

end QaLake
