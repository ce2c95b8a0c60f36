import Mathlib.Data.List.TakeWhile
import QaLake.Proofs.Json.Digits
import QaLake.Text.Numeral

namespace QaLake

open Text

namespace Text

def EndsNumeral (cs : List Char) : Prop :=
  cs = [] ∨ ∃ s ds, cs = 'e' :: s :: ds ∧ (s = '+' ∨ s = '-') ∧ ds ≠ [] ∧
    ∀ c ∈ ds, c.isDigit = true

theorem isSome_exponent? {cs : List Char} (h : EndsNumeral cs) : (exponent? cs).isSome = true := by
  obtain rfl | ⟨s, ds, rfl, hs, hne, hds⟩ := h
  · rfl
  · have hall : ds.all Char.isDigit = true := List.all_eq_true.2 hds
    have hempty : ds.isEmpty = false := by simpa using hne
    obtain rfl | rfl := hs <;> simp [exponent?, takeSign, hall, hempty]

theorem not_digit_of_endsNumeral {cs : List Char} (h : EndsNumeral cs) :
    cs.takeWhile Char.isDigit = [] := by
  obtain rfl | ⟨s, ds, rfl, -⟩ := h
  · rfl
  · rfl

theorem takeWhile_digits {ds rest : List Char} (hds : ∀ c ∈ ds, c.isDigit = true)
    (hrest : rest.takeWhile Char.isDigit = []) : (ds ++ rest).takeWhile Char.isDigit = ds := by
  rw [List.takeWhile_append_of_pos hds, hrest, List.append_nil]

theorem takeSign_digits {ds rest : List Char} (hds : ∀ c ∈ ds, c.isDigit = true) (hne : ds ≠ []) :
    takeSign (ds ++ rest) = (false, ds ++ rest) := by
  cases ds with
  | nil => exact absurd rfl hne
  | cons c ds =>
    have hc := hds c List.mem_cons_self
    have hminus : c ≠ '-' := by
      rintro rfl
      cases hc
    have hplus : c ≠ '+' := by
      rintro rfl
      cases hc
    simp [takeSign, hminus, hplus]

def IsNumeralChar (c : Char) : Prop :=
  c.isDigit = true ∨ c ∈ ['.', 'e', '+', '-']

/-- Whether a text is a numeral without a sign. -/
structure IsMagnitude (cs : List Char) : Prop where
  sign : takeSign cs = (false, cs)
  numeral : (numeral? cs).isSome = true
  chars : ∀ c ∈ cs, IsNumeralChar c

theorem isSome_numeral?_minus {cs : List Char} (h : IsMagnitude cs) :
    (numeral? ('-' :: cs)).isSome = true := by
  have hminus : takeSign ('-' :: cs) = (true, cs) := rfl
  have hplain := h.numeral
  simp only [numeral?, h.sign] at hplain
  simp only [numeral?, hminus]
  simpa only [apply_ite Option.isSome, Option.isSome_map] using hplain

theorem isNumeralChar_of_endsNumeral {cs : List Char} (h : EndsNumeral cs) :
    ∀ c ∈ cs, IsNumeralChar c := by
  obtain rfl | ⟨s, ds, rfl, hs, -, hds⟩ := h
  · exact fun _ hc => nomatch hc
  · intro c hc
    obtain rfl | hc := List.mem_cons.1 hc
    · exact .inr (by decide)
    · obtain rfl | hc := List.mem_cons.1 hc
      · obtain rfl | rfl := hs
        · exact .inr (by decide)
        · exact .inr (by decide)
      · exact .inl (hds c hc)

variable {whole fraction tail : List Char} (hwhole : ∀ c ∈ whole, c.isDigit = true)
  (htail : EndsNumeral tail)

include hwhole htail

theorem isMagnitude_whole (hne : whole ≠ []) : IsMagnitude (whole ++ tail) where
  sign := takeSign_digits hwhole hne
  numeral := by
    have hdigits := takeWhile_digits hwhole (not_digit_of_endsNumeral htail)
    have hend := isSome_exponent? htail
    have hempty : whole.isEmpty = false := by simpa using hne
    have hpoint : ∀ cs, tail ≠ '.' :: cs := by
      rintro cs rfl
      obtain h | ⟨s, ds, h, -⟩ := htail <;> cases h
    simp [numeral?, takeSign_digits hwhole hne, hdigits, hend, hempty]
  chars := by
    intro c hc
    obtain hc | hc := List.mem_append.1 hc
    · exact .inl (hwhole c hc)
    · exact isNumeralChar_of_endsNumeral htail c hc

theorem isMagnitude_point (hfraction : ∀ c ∈ fraction, c.isDigit = true)
    (hne : whole ≠ [] ∨ fraction ≠ []) : IsMagnitude (whole ++ '.' :: (fraction ++ tail)) := by
  have hsign : takeSign (whole ++ '.' :: (fraction ++ tail)) =
      (false, whole ++ '.' :: (fraction ++ tail)) := by
    by_cases hwhole' : whole = []
    · subst hwhole'
      rfl
    · exact takeSign_digits hwhole hwhole'
  refine ⟨hsign, ?_, fun c hc => ?_⟩
  · have hdigits : (whole ++ '.' :: (fraction ++ tail)).takeWhile Char.isDigit = whole :=
      takeWhile_digits hwhole rfl
    have hbehind := takeWhile_digits hfraction (not_digit_of_endsNumeral htail)
    have hend := isSome_exponent? htail
    have hempty : (whole.isEmpty && fraction.isEmpty) = false := by
      simpa only [Bool.and_eq_false_iff, List.isEmpty_eq_false_iff] using hne
    simp [numeral?, hsign, hdigits, hbehind, hend, hempty]
  · obtain hc | hc := List.mem_append.1 hc
    · exact .inl (hwhole c hc)
    · obtain rfl | hc := List.mem_cons.1 hc
      · exact .inr (by decide)
      · obtain hc | hc := List.mem_append.1 hc
        · exact .inl (hfraction c hc)
        · exact isNumeralChar_of_endsNumeral htail c hc

end Text

namespace Binary64

theorem digits_ofNat (n : Nat) (exponent : Int) :
    ∀ c ∈ (Decimal.ofNat n exponent).digits, c.isDigit = true := by
  intro c hc
  have hmem : c ∈ (Nat.toDigits 10 n).reverse.dropWhile (· == '0') := List.mem_reverse.1 hc
  have hsub := (List.dropWhile_sublist _).subset hmem
  exact Json.isDigit_of_mem_digits (List.mem_reverse.1 hsub)

theorem valueOf_zeros {ds : List Char} (h : ∀ c ∈ ds, c = '0') :
    Json.valueOf 0 (ds.map Json.Document.digitValue) = 0 := by
  induction ds with
  | nil => rfl
  | cons c ds ih =>
    rw [h c List.mem_cons_self]
    exact ih fun d hd => h d (List.mem_cons_of_mem _ hd)

theorem digits_ofNat_ne_nil {n : Nat} (hn : 0 < n) (exponent : Int) :
    (Decimal.ofNat n exponent).digits ≠ [] := by
  intro h
  have hdrop : (Nat.toDigits 10 n).reverse.dropWhile (· == '0') = [] := List.reverse_eq_nil_iff.1 h
  have hzeros : ∀ c ∈ Nat.toDigits 10 n, c = '0' := by
    intro c hc
    simpa using List.dropWhile_eq_nil_iff.1 hdrop c (List.mem_reverse.2 hc)
  have hvalue := valueOf_zeros hzeros
  rw [Json.valueOf_digits] at hvalue
  omega

theorem le_roundDiv (num den : Nat) : num / den ≤ roundDiv num den := by
  unfold roundDiv
  simp only
  split
  · exact Nat.le_refl _
  · split <;> omega

theorem Neighbourhood.multipleAt_pos {n : Neighbourhood} (hlower : 0 < n.lower) {k : Int} {f : Nat}
    (h : n.multipleAt k = some f) : 0 < f := by
  obtain ⟨grid, fine, hpair⟩ : ∃ grid fine, (if 0 ≤ k then (n.den * Nat.pow 10 k.toNat, 1)
      else (n.den, Nat.pow 10 (-k).toNat)) = (grid, fine) := ⟨_, _, rfl⟩
  have hfine : 0 < fine := by
    split at hpair
    · cases hpair
      decide
    · cases hpair
      exact Nat.pow_pos (by decide)
  have hscaled : 0 < n.lower * fine := Nat.mul_pos hlower hfine
  rw [multipleAt, hpair] at h
  simp only at h
  have hlow : (if n.closed = true then
      decide (n.lower * fine ≤ n.value * fine / grid * grid) &&
        decide (n.value * fine / grid * grid ≤ n.upper * fine)
    else decide (n.lower * fine < n.value * fine / grid * grid) &&
      decide (n.value * fine / grid * grid < n.upper * fine)) = true →
      0 < n.value * fine / grid := by
    intro hinside
    apply Nat.pos_of_ne_zero
    intro hzero
    rw [hzero, Nat.zero_mul] at hinside
    split at hinside
    · simp only [Bool.and_eq_true, decide_eq_true_eq] at hinside
      omega
    · simp only [Bool.and_eq_true, decide_eq_true_eq] at hinside
      omega
  split at h
  · rename_i hinside _
    cases h
    exact Nat.lt_of_lt_of_le (hlow hinside) (le_roundDiv _ _)
  · rename_i hinside _
    cases h
    exact hlow hinside
  · cases h
    exact Nat.succ_pos _
  · cases h

theorem neighbourhood_lower_pos {x : Binary64} (hx : x.isZero = false) :
    0 < x.neighbourhood.lower := by
  have hm : x.significand ≠ 0 := by simpa [isZero] using hx
  have hshift : ∀ n : Nat, 0 < 1 <<< n := by
    intro n
    rw [Nat.one_shiftLeft]
    exact Nat.two_pow_pos n
  unfold neighbourhood
  simp only
  apply Nat.mul_pos
  · split <;> omega
  · split
    · exact hshift _
    · exact Nat.one_pos

/-- The shortest decimal of a number that is not zero has digits. The default of no digits is never
met with an exponent. -/
theorem shortest_digits {x : Binary64} (hx : x.isZero = false) :
    (∀ c ∈ x.shortest.digits, c.isDigit = true) ∧
      (x.shortest.digits ≠ [] ∨ x.shortest = ⟨[], 0⟩) := by
  rw [shortest]
  cases hfound : (List.range 17).findSome? fun (i : Nat) =>
      (x.neighbourhood.multipleAt (x.neighbourhood.decade - 1 - i)).map fun f =>
        Decimal.ofNat f (x.neighbourhood.decade - 1 - i) with
  | none => exact ⟨(fun _ hc => nomatch hc), .inr rfl⟩
  | some d =>
    obtain ⟨i, -, hi⟩ := List.exists_of_findSome?_eq_some hfound
    obtain ⟨f, hf, rfl⟩ := Option.map_eq_some_iff.1 hi
    have hpos := Neighbourhood.multipleAt_pos (neighbourhood_lower_pos hx) hf
    exact ⟨digits_ofNat f _, .inl (digits_ofNat_ne_nil hpos _)⟩

end Binary64

namespace Json

theorem endsNumeral_exponent (s : Char) (hs : s = '+' ∨ s = '-') (n : Nat) :
    EndsNumeral ('e' :: s :: Nat.toDigits 10 n) :=
  .inr ⟨s, _, rfl, hs, Nat.toDigits_ne_nil, fun _ => isDigit_of_mem_digits⟩

theorem digits_take {ds : List Char} (h : ∀ c ∈ ds, c.isDigit = true) (n : Nat) :
    ∀ c ∈ ds.take n, c.isDigit = true :=
  fun c hc => h c (List.mem_of_mem_take hc)

theorem digits_drop {ds : List Char} (h : ∀ c ∈ ds, c.isDigit = true) (n : Nat) :
    ∀ c ∈ ds.drop n, c.isDigit = true :=
  fun c hc => h c (List.mem_of_mem_drop hc)

theorem digits_append {ds es : List Char} (hds : ∀ c ∈ ds, c.isDigit = true)
    (hes : ∀ c ∈ es, c.isDigit = true) : ∀ c ∈ ds ++ es, c.isDigit = true := by
  intro c hc
  obtain hc | hc := List.mem_append.1 hc
  · exact hds c hc
  · exact hes c hc

theorem digits_zeros (n : Nat) : ∀ c ∈ List.replicate n '0', c.isDigit = true := by
  intro c hc
  rw [List.eq_of_mem_replicate hc]
  rfl

theorem isMagnitude_decimalChars {d : Binary64.Decimal}
    (hdigits : ∀ c ∈ d.digits, c.isDigit = true) (hne : d.digits ≠ [] ∨ d = ⟨[], 0⟩) :
    IsMagnitude (decimalChars d) := by
  obtain hne | rfl := hne
  · rw [decimalChars]
    simp only
    split
    · exact isMagnitude_point (digits_append hdigits (digits_zeros _)) (.inl rfl)
        (digits_zeros 1) (.inr (List.cons_ne_nil _ _))
    · split
      · have hparts : d.digits.take (d.exponent + d.digits.length).toNat ≠ [] ∨
            d.digits.drop (d.exponent + d.digits.length).toNat ≠ [] := by
          by_contra hnone
          obtain ⟨htake, hdrop⟩ := not_or.1 hnone
          apply hne
          rw [← List.take_append_drop (d.exponent + d.digits.length).toNat d.digits,
            not_not.1 htake, not_not.1 hdrop]
          rfl
        have h := isMagnitude_point (digits_take hdigits _) (.inl rfl)
          (digits_drop hdigits (d.exponent + d.digits.length).toNat) hparts
        rwa [List.append_nil] at h
      · split
        · have h := isMagnitude_point (digits_zeros 1) (.inl rfl)
            (digits_append (digits_zeros (-(d.exponent + d.digits.length)).toNat) hdigits)
            (.inl (List.cons_ne_nil _ _))
          rwa [List.append_nil] at h
        · have hfirst : d.digits.take 1 ≠ [] := by
            intro h
            cases hd : d.digits with
            | nil => exact hne hd
            | cons c cs =>
              rw [hd] at h
              cases h
          have hsign : ∀ p : Prop, [Decidable p] → (if p then '-' else '+') = '+' ∨
              (if p then '-' else '+') = '-' := by
            intro p _
            by_cases hp : p
            · exact .inr (if_pos hp)
            · exact .inl (if_neg hp)
          have hend := endsNumeral_exponent _ (hsign (d.exponent + d.digits.length - 1 < 0))
            (d.exponent + d.digits.length - 1).natAbs
          split
          · rw [List.append_nil]
            exact isMagnitude_whole (digits_take hdigits 1) hend hfirst
          · rw [List.append_assoc, List.cons_append]
            exact isMagnitude_point (digits_take hdigits 1) hend (digits_drop hdigits 1)
              (.inl hfirst)
  · exact isMagnitude_point (digits_zeros 0) (.inl rfl) (digits_zeros 1)
      (.inr (List.cons_ne_nil _ _))

theorem isMagnitude_digits (n : Nat) : IsMagnitude (Nat.toDigits 10 n) := by
  have h := isMagnitude_whole (fun _ => isDigit_of_mem_digits) (.inl rfl)
    (@Nat.toDigits_ne_nil n 10)
  rwa [List.append_nil] at h

theorem Number.isMagnitude_chars (n : Number) :
    IsMagnitude n.chars ∨ ∃ cs, n.chars = '-' :: cs ∧ IsMagnitude cs := by
  have hsign : ∀ (p : Prop) [Decidable p] {cs : List Char}, IsMagnitude cs →
      IsMagnitude (if p then '-' :: cs else cs) ∨
        ∃ cs', (if p then '-' :: cs else cs) = '-' :: cs' ∧ IsMagnitude cs' := by
    intro p _ cs hcs
    by_cases hp : p
    · exact .inr ⟨cs, if_pos hp, hcs⟩
    · rw [if_neg hp]
      exact .inl hcs
  cases n with
  | int n => exact hsign (n < 0) (isMagnitude_digits n.natAbs)
  | float x =>
    apply hsign (x.negative = true)
    cases hx : x.isZero with
    | true =>
      exact isMagnitude_point (digits_zeros 1) (.inl rfl) (digits_zeros 1)
        (.inl (List.cons_ne_nil _ _))
    | false =>
      obtain ⟨hdigits, hne⟩ := Binary64.shortest_digits hx
      exact isMagnitude_decimalChars hdigits hne

theorem Number.isSome_numeral?_chars (n : Number) :
    (numeral? n.chars).isSome = true ∧ ∀ c ∈ n.chars, IsNumeralChar c := by
  obtain h | ⟨cs, hcs, h⟩ := n.isMagnitude_chars
  · exact ⟨h.numeral, h.chars⟩
  · rw [hcs]
    exact ⟨isSome_numeral?_minus h, List.forall_mem_cons.2 ⟨.inr (by decide), h.chars⟩⟩

end Json

end QaLake
