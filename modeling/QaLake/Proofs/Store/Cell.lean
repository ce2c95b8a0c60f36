import QaLake.Proofs.Json.Numerals
import QaLake.Proofs.Json.RoundTrip
import QaLake.Store.Cell

namespace QaLake.Store.Cell

open Json

theorem trim_cons {c : Char} (h : isBlank c = false) (cs : List Char) :
    ∃ rest, trim (c :: cs) = c :: rest := by
  have hc : ¬isBlank c = true := by simp [h]
  have hlast : ([c] : List Char).dropWhile isBlank = [c] := List.dropWhile_cons_of_neg hc
  rw [trim, List.dropWhile_cons_of_neg hc, List.reverse_cons, List.dropWhile_append, hlast]
  by_cases hrest : (cs.reverse.dropWhile isBlank).isEmpty = true
  · exact ⟨[], by simp [hrest]⟩
  · exact ⟨(cs.reverse.dropWhile isBlank).reverse, by simp [hrest]⟩

theorem numeral?_eq_none {c : Char} (hdigit : c.isDigit = false) (hpoint : c ≠ '.')
    (hminus : c ≠ '-') (hplus : c ≠ '+') (cs : List Char) : Text.numeral? (c :: cs) = none := by
  have hsign : Text.takeSign (c :: cs) = (false, c :: cs) := by
    simp [Text.takeSign, hminus, hplus]
  have hwhole : (c :: cs).takeWhile Char.isDigit = [] := by simp [hdigit]
  simp [Text.numeral?, hsign, hwhole, hpoint]

theorem ofText_of_start {s : String} {c : Char} {cs : List Char} (hs : s.toList = c :: cs)
    (hblank : isBlank c = false) (hdigit : c.isDigit = false) (hpoint : c ≠ '.')
    (hminus : c ≠ '-') (hplus : c ≠ '+') : ofText s = .text s := by
  obtain ⟨rest, htrim⟩ := trim_cons hblank cs
  rw [ofText, hs, htrim, numeral?_eq_none hdigit hpoint hminus hplus]

theorem ofText_text {j : Json} (hj : j.isNumber = false) : ofText j.text = .text j.text := by
  have hchars : j.text.toList = j.chars := by simp [Json.text]
  have hstart : ∃ c cs, j.chars = c :: cs ∧ c ∈ ['n', 't', 'f', '"', '[', '\x7b'] := by
    cases j with
    | null => exact ⟨_, _, rfl, by decide⟩
    | bool b => cases b <;> exact ⟨_, _, rfl, by decide⟩
    | num n => cases hj
    | str s => exact ⟨_, _, rfl, by decide⟩
    | arr items => exact ⟨_, _, rfl, by decide⟩
    | obj members => exact ⟨_, _, rfl, by decide⟩
  obtain ⟨c, cs, hc, hmem⟩ := hstart
  have hplain : ∀ c ∈ ['n', 't', 'f', '"', '[', '\x7b'], isBlank c = false ∧ c.isDigit = false ∧
      c ≠ '.' ∧ c ≠ '-' ∧ c ≠ '+' := by
    intro c hc
    simp only [List.mem_cons, List.not_mem_nil, or_false] at hc
    obtain rfl | rfl | rfl | rfl | rfl | rfl := hc <;> decide
  obtain ⟨hblank, hdigit, hpoint, hminus, hplus⟩ := hplain c hmem
  exact ofText_of_start (hchars.trans hc) hblank hdigit hpoint hminus hplus

theorem isBlank_of_isNumeralChar {c : Char} (h : Text.IsNumeralChar c) : isBlank c = false := by
  obtain hdigit | hmem := h
  · have hrange : 48 ≤ c.toNat ∧ c.toNat ≤ 57 := by
      simpa [Char.isDigit, UInt32.le_iff_toNat_le] using hdigit
    have hspace : c ≠ ' ' := by
      rintro rfl
      cases hdigit
    have hcontrol : ¬c.toNat ≤ 0xd := by omega
    simp [isBlank, hspace, hcontrol]
  · simp only [List.mem_cons, List.not_mem_nil, or_false] at hmem
    obtain rfl | rfl | rfl | rfl := hmem <;> rfl

theorem trim_eq_self {cs : List Char} (h : ∀ c ∈ cs, isBlank c = false) : trim cs = cs := by
  have hdrop : ∀ ds : List Char, (∀ c ∈ ds, isBlank c = false) → ds.dropWhile isBlank = ds := by
    intro ds hds
    cases ds with
    | nil => rfl
    | cons c ds =>
      apply List.dropWhile_cons_of_neg
      rw [hds c List.mem_cons_self]
      exact Bool.false_ne_true
  have hreverse : ∀ c ∈ cs.reverse, isBlank c = false := fun c hc => h c (List.mem_reverse.1 hc)
  rw [trim, hdrop cs h, hdrop _ hreverse, List.reverse_reverse]

theorem text?_ofFloat (x : Binary64) : (ofFloat x).text? = none := by
  unfold ofFloat
  split
  · split <;> rfl
  · rfl

theorem text?_ofNumeral (n : Text.Numeral) : (ofNumeral n).text? = none := by
  cases hfloat : floatOf n with
  | some x =>
    simp only [ofNumeral, hfloat]
    split_ifs <;> first | rfl | exact text?_ofFloat x
  | none =>
    simp only [ofNumeral, hfloat]
    split_ifs <;> rfl

theorem text?_ofText_number (n : Number) : (ofText (Json.num n).text).text? = none := by
  have hchars : (Json.num n).text.toList = n.chars := by simp [Json.text, chars]
  obtain ⟨hnumeral, hall⟩ := n.isSome_numeral?_chars
  obtain ⟨m, hm⟩ := Option.isSome_iff_exists.1 hnumeral
  have htrim := trim_eq_self fun c hc => isBlank_of_isNumeralChar (hall c hc)
  rw [ofText, hchars, htrim, hm]
  exact text?_ofNumeral m

theorem text?_ofText (j : Json) :
    (ofText j.text).text? = if j.isNumber = true then none else some j.text := by
  cases hj : j.isNumber with
  | false => rw [ofText_text hj, if_neg Bool.false_ne_true, text?]
  | true =>
    cases j with
    | num n => exact text?_ofText_number n
    | _ => cases hj

end QaLake.Store.Cell
