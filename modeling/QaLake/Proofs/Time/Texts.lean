import QaLake.Proofs.Endpoint.Paths
import QaLake.Proofs.Time.Calendar
import QaLake.Time.Reader

namespace QaLake

namespace Time

open Text (digitsValue)

theorem digitsValue_digitChar {n : Nat} (h : n < 10) : digitsValue [Nat.digitChar n] = n := by
  simpa [digitsValue] using Nat.toNat_digitChar_sub_48_of_lt_ten h

theorem digitsValue_padded (width n : Nat) : digitsValue (Instant.padded width n) = n := by
  have hzeros : ∀ (k : Nat) (ds : List Char),
      digitsValue (List.replicate k '0' ++ ds) = digitsValue ds := by
    intro k ds
    induction k with
    | zero => rfl
    | succ k ih => rw [List.replicate_succ, List.cons_append, ← ih]; rfl
  rw [Instant.padded, hzeros, Text.digitsValue_digits]

theorem isDigit_of_mem_padded {width n : Nat} {c : Char} (h : c ∈ Instant.padded width n) :
    c.isDigit = true := by
  obtain h | h := List.mem_append.1 h
  · obtain ⟨-, rfl⟩ := List.mem_replicate.1 h
    rfl
  · exact Json.isDigit_of_mem_digits h

theorem length_padded {width n : Nat} (h : n < Nat.pow 10 width) (hwidth : 0 < width) :
    (Instant.padded width n).length = width := by
  have hle := (Nat.length_toDigits_le_iff (by decide) hwidth).2 h
  simp [Instant.padded, Nat.sub_add_cancel hle]

theorem padded_succ {width : Nat} (hwidth : 0 < width) (n : Nat) :
    Instant.padded (width + 1) n = Instant.padded width (n / 10) ++ [Nat.digitChar (n % 10)] := by
  by_cases h : n < 10
  · have hdigit : Nat.toDigits 10 (n / 10) = ['0'] := by rw [Nat.div_eq_of_lt h]; rfl
    obtain ⟨width, rfl⟩ := Nat.exists_eq_succ_of_ne_zero (Nat.ne_of_gt hwidth)
    rw [Instant.padded, Instant.padded, Nat.toDigits_of_lt_base h, hdigit, Nat.mod_eq_of_lt h]
    simp [List.replicate_succ']
  · rw [Instant.padded, Instant.padded, Nat.toDigits_of_base_le (by decide) (Nat.le_of_not_lt h),
      List.length_append, List.length_singleton, Nat.add_sub_add_right, List.append_assoc]

theorem padded_two {n : Nat} (h : n < 100) :
    Instant.padded 2 n = [Nat.digitChar (n / 10), Nat.digitChar (n % 10)] := by
  have hone : Instant.padded 1 (n / 10) = [Nat.digitChar (n / 10)] := by
    rw [Instant.padded, Nat.toDigits_of_lt_base (by omega)]
    rfl
  rw [padded_succ (by decide), hone]
  rfl

theorem padded_four {n : Nat} (h : n < 10000) :
    Instant.padded 4 n = [Nat.digitChar (n / 100 / 10), Nat.digitChar (n / 100 % 10),
      Nat.digitChar (n % 100 / 10), Nat.digitChar (n % 100 % 10)] := by
  have htens : n / 10 % 10 = n % 100 / 10 := by omega
  have hones : n % 10 = n % 100 % 10 := by omega
  rw [padded_succ (by decide), padded_succ (by decide), Nat.div_div_eq_div_mul,
    padded_two (by omega), htens, hones]
  rfl

theorem pairAt_eq {cs : List Char} {i n : Nat} (h : n < 100)
    (htens : cs[i]? = some (Nat.digitChar (n / 10)))
    (hones : cs[i + 1]? = some (Nat.digitChar (n % 10))) : pairAt cs i = .ok n := by
  have hdigit : ∀ (j k : Nat), k < 10 → cs[j]? = some (Nat.digitChar k) → digitAt cs j = .ok k := by
    intro j k hk hj
    have hk' : (Nat.digitChar k).isDigit = true := by simpa [Nat.isDigit_digitChar] using hk
    simp only [digitAt, hj, hk', if_true, digitsValue_digitChar hk]
  have hn : n / 10 * 10 + n % 10 = n := by omega
  rw [pairAt, hdigit i _ (by omega) htens, hdigit (i + 1) _ (by omega) hones]
  exact congrArg Except.ok hn

def stamp (date : Date) (hour minute second : Nat) (tail : List Char) : List Char :=
  Instant.padded 4 date.year.toNat ++ '-' :: Instant.padded 2 date.month ++
    '-' :: Instant.padded 2 date.day ++ 'T' :: Instant.padded 2 hour ++
    ':' :: Instant.padded 2 minute ++ ':' :: Instant.padded 2 second ++ tail

theorem length_le_utf8ByteSize (cs : List Char) :
    cs.length ≤ (String.ofList cs).utf8ByteSize := by
  change cs.length ≤ cs.utf8Encode.size
  induction cs with
  | nil => exact Nat.le_refl 0
  | cons c cs ih =>
    have hc : 0 < (String.utf8EncodeChar c).length := by
      rw [String.length_utf8EncodeChar]
      exact c.utf8Size_pos
    rw [List.utf8Encode_cons, List.utf8Encode_singleton, ByteArray.size_append,
      List.size_toByteArray, List.length_cons]
    omega

theorem stamp_eq {date : Date} {hour minute second : Nat} (tail : List Char)
    (hyear : date.year.toNat < 10000) (hmonth : date.month < 100) (hday : date.day < 100)
    (hhour : hour < 100) (hminute : minute < 100) (hsecond : second < 100) :
    stamp date hour minute second tail =
      Nat.digitChar (date.year.toNat / 100 / 10) :: Nat.digitChar (date.year.toNat / 100 % 10) ::
      Nat.digitChar (date.year.toNat % 100 / 10) :: Nat.digitChar (date.year.toNat % 100 % 10) ::
      '-' :: Nat.digitChar (date.month / 10) :: Nat.digitChar (date.month % 10) ::
      '-' :: Nat.digitChar (date.day / 10) :: Nat.digitChar (date.day % 10) ::
      'T' :: Nat.digitChar (hour / 10) :: Nat.digitChar (hour % 10) ::
      ':' :: Nat.digitChar (minute / 10) :: Nat.digitChar (minute % 10) ::
      ':' :: Nat.digitChar (second / 10) :: Nat.digitChar (second % 10) :: tail := by
  rw [stamp, padded_four hyear, padded_two hmonth, padded_two hday, padded_two hhour,
    padded_two hminute, padded_two hsecond]
  rfl

theorem Date.le_of_isValid {date : Date} (h : date.isValid = true) :
    date.month ≤ 12 ∧ date.day ≤ 31 := by
  have hle : daysInMonth date.year date.month ≤ 31 := by
    rw [daysInMonth]
    repeat' split
    all_goals omega
  simp [Date.isValid] at h
  omega

theorem strict_stamp {date : Date} {hour minute second : Nat} (tail : List Char)
    (hyear : 0 ≤ date.year ∧ date.year ≤ 9999) (hdate : date.isValid = true)
    (hhour : hour < 100) (hminute : minute < 100) (hsecond : second < 100) :
    strict (String.ofList (stamp date hour minute second tail)) =
      (strictTail date hour minute second).run' tail := by
  obtain ⟨hmonth, hday⟩ : date.month < 100 ∧ date.day < 100 := by
    have hle := Date.le_of_isValid hdate
    omega
  have hlong :
      ¬(String.ofList (stamp date hour minute second tail)).utf8ByteSize < strictLength := by
    have hle := length_le_utf8ByteSize (stamp date hour minute second tail)
    rw [stamp_eq tail (by omega) hmonth hday hhour hminute hsecond] at hle ⊢
    simp only [List.length_cons] at hle
    rw [strictLength]
    omega
  have hcentury : ((date.year.toNat / 100 * 100 + date.year.toNat % 100 : Nat) : Int) =
      date.year := by
    omega
  have hchecked : checkedDate date = .ok date := by
    have hmin : minYear ≤ date.year := by rw [minYear]; omega
    have hmax : date.year ≤ maxYear := by rw [maxYear]; omega
    simp [checkedDate, hdate, hmin, hmax]
  rw [strict, if_neg hlong, String.toList_ofList,
    stamp_eq tail (by omega) hmonth hday hhour hminute hsecond]
  generalize hcs : _ :: _ = cs
  have hpairs : pairAt cs 0 = .ok (date.year.toNat / 100) ∧
      pairAt cs 2 = .ok (date.year.toNat % 100) ∧ pairAt cs 5 = .ok date.month ∧
      pairAt cs 8 = .ok date.day ∧ pairAt cs 11 = .ok hour ∧ pairAt cs 14 = .ok minute ∧
      pairAt cs 17 = .ok second := by
    subst hcs
    exact ⟨pairAt_eq (by omega) rfl rfl, pairAt_eq (by omega) rfl rfl, pairAt_eq hmonth rfl rfl,
      pairAt_eq hday rfl rfl, pairAt_eq hhour rfl rfl, pairAt_eq hminute rfl rfl,
      pairAt_eq hsecond rfl rfl⟩
  have hmarks : markAt cs 4 ['-'] = .ok () ∧ markAt cs 7 ['-'] = .ok () ∧
      markAt cs 10 ['T', 't', ' '] = .ok () ∧ markAt cs 13 [':'] = .ok () ∧
      markAt cs 16 [':'] = .ok () ∧ cs.drop strictLength = tail := by
    subst hcs
    exact ⟨rfl, rfl, rfl, rfl, rfl, rfl⟩
  obtain ⟨h0, h2, h5, h8, h11, h14, h17⟩ := hpairs
  obtain ⟨h4, h7, h10, h13, h16, hdrop⟩ := hmarks
  simp only [h0, h2, h4, h5, h7, h8, h10, h11, h13, h14, h16, h17, hdrop, hcentury, hchecked,
    bind, Except.bind]

theorem strict?_eq_none {c : Char} (h : c.isDigit = false) (cs : List Char) :
    strict? (String.ofList (c :: cs)) = none := by
  have hdigit : digitAt (c :: cs) 0 = .error .invalid := by simp [digitAt, h]
  have hpair : pairAt (String.ofList (c :: cs)).toList 0 = .error .invalid := by
    rw [String.toList_ofList, pairAt, hdigit]
    rfl
  rw [strict?, strict]
  split
  · rfl
  · simp only [hpair]
    rfl

theorem bind_of_ok {α β : Type} {m : Reader α} {f : α → Reader β} {cs rest : List Char} {a : α}
    (h : m cs = .ok (a, rest)) : (m >>= f) cs = f a rest := by
  change (m cs >>= fun p => f p.1 p.2) = _
  rw [h]
  rfl

theorem number_padded {width n : Nat} (h : n < Nat.pow 10 width) (hwidth : 0 < width ∧ width ≤ 9)
    {c : Char} (hc : c.isDigit = false) (cs : List Char) :
    number (some 9) (Instant.padded width n ++ c :: cs) = .ok (n, c :: cs) := by
  have hlength := length_padded h hwidth.1
  have hstop : ((c :: cs).take (9 - width)).takeWhile Char.isDigit = [] := by
    cases 9 - width with
    | zero => rfl
    | succ k => simp [hc]
  have hdigits : ((Instant.padded width n ++ c :: cs).take 9).takeWhile Char.isDigit =
      Instant.padded width n := by
    rw [List.take_append, hlength, List.take_of_length_le (by omega),
      List.takeWhile_append_of_pos fun _ => isDigit_of_mem_padded, hstop, List.append_nil]
  have hsome : (Instant.padded width n).isEmpty = false := by
    rw [List.isEmpty_eq_false_iff, ← List.length_pos_iff]
    omega
  have hsmall : ¬Word.signedLimit ≤ n := by
    have hle : Nat.pow 10 width ≤ Nat.pow 10 9 := Nat.pow_le_pow_right (by decide) hwidth.2
    have hlimit : Nat.pow 10 9 < Word.signedLimit := by decide
    omega
  have hnonempty : (Instant.padded width n ++ c :: cs).isEmpty = false := by simp
  simp only [number, Option.elim_some, hdigits, hnonempty, hsome, digitsValue_padded, if_neg hsmall,
    Bool.false_eq_true, if_false, List.drop_left]

theorem fraction_padded {width n : Nat} (h : n < Nat.pow 10 width) (hwidth : 0 < width ∧ width ≤ 9)
    {c : Char} (hc : c.isDigit = false) (cs : List Char) :
    fraction (Instant.padded width n ++ c :: cs) = .ok (n * Nat.pow 10 (9 - width), c :: cs) := by
  have hused : (Instant.padded width n ++ c :: cs).length - (c :: cs).length = width := by
    rw [List.length_append, length_padded h hwidth.1, Nat.add_sub_cancel]
  have hskip : skipWhile Char.isDigit (c :: cs) = .ok ((), c :: cs) := by
    simp [skipWhile, hc]
  have hnumber := number_padded h hwidth hc cs
  have hget : ∀ cs : List Char, (get : Reader (List Char)) cs = .ok (cs, cs) := fun _ => rfl
  rw [fraction, bind_of_ok (hget _), bind_of_ok hnumber, bind_of_ok (hget _), bind_of_ok hskip,
    hused]
  rfl

theorem optionalFraction_fractionChars {nanos : Nat} (h : nanos < 1000000000) {c : Char}
    (hc : c.isDigit = false) (hpoint : c ≠ '.') (cs : List Char) :
    optionalFraction (Instant.fractionChars nanos ++ c :: cs) = .ok (nanos, c :: cs) := by
  rw [Instant.fractionChars]
  by_cases hzero : nanos = 0
  · rw [if_pos hzero, hzero, List.nil_append, optionalFraction]
    simp [hpoint]
  rw [if_neg hzero]
  by_cases hmillis : nanos % 1000000 = 0
  · have hlt : nanos / 1000000 < Nat.pow 10 3 := Nat.div_lt_of_lt_mul h
    have hback : nanos / 1000000 * Nat.pow 10 (9 - 3) = nanos :=
      Nat.div_mul_cancel (Nat.dvd_of_mod_eq_zero hmillis)
    rw [if_pos hmillis, List.cons_append, optionalFraction,
      fraction_padded hlt (by decide) hc, hback]
  rw [if_neg hmillis]
  by_cases hmicros : nanos % 1000 = 0
  · have hlt : nanos / 1000 < Nat.pow 10 6 := Nat.div_lt_of_lt_mul h
    have hback : nanos / 1000 * Nat.pow 10 (9 - 6) = nanos :=
      Nat.div_mul_cancel (Nat.dvd_of_mod_eq_zero hmicros)
    rw [if_pos hmicros, List.cons_append, optionalFraction,
      fraction_padded hlt (by decide) hc, hback]
  · have hlt : nanos < Nat.pow 10 9 := h
    have hback : nanos * Nat.pow 10 (9 - 9) = nanos := Nat.mul_one nanos
    rw [if_neg hmicros, List.cons_append, optionalFraction,
      fraction_padded hlt (by decide) hc, hback]

theorem strictTail_fractionChars {date : Date} {hour minute second nanos : Nat}
    (hnanos : nanos < 1000000000) {time : Nat × Nat}
    (htime : timeOfDay hour minute second nanos = .ok time) :
    (strictTail date hour minute second).run' (Instant.fractionChars nanos ++ "+00:00".toList) =
      instantAt date time 0 := by
  have hfraction : optionalFraction (Instant.fractionChars nanos ++ "+00:00".toList) =
      .ok (nanos, "+00:00".toList) :=
    optionalFraction_fractionChars hnanos (by decide) (by decide) _
  have htimed : (monadLift (timeOfDay hour minute second nanos) : Reader (Nat × Nat))
      "+00:00".toList = .ok (time, "+00:00".toList) := by
    rw [htime]
    rfl
  have hoffset : offset (oneOf [':']) "+00:00".toList = .ok (0, []) := rfl
  rw [strictTail, StateT.run', bind_of_ok hfraction, bind_of_ok htimed, bind_of_ok hoffset]
  cases h : instantAt date time 0 <;> rfl

end Time

namespace Instant

open Time

def date (t : Instant) : Date :=
  Date.ofDays (t.seconds / daySeconds)

/-- Whether the year of an instant is written in four digits without a sign. -/
def HasFourDigitYear (t : Instant) : Prop :=
  0 ≤ t.date.year ∧ t.date.year ≤ 9999

theorem hasFourDigitYear_iff {t : Instant} :
    t.HasFourDigitYear ↔ -62167219200 ≤ t.seconds ∧ t.seconds ≤ 253402300799 := by
  have hfirst : (Date.mk 0 1 1).toDays = -719528 := by decide
  have hafter : (Date.mk 10000 1 1).toDays = 2932897 := by decide
  have hlow := @Date.le_year_ofDays 0 (t.seconds / daySeconds)
  have hhigh := @Date.le_year_ofDays 10000 (t.seconds / daySeconds)
  rw [hfirst] at hlow
  rw [hafter] at hhigh
  rw [HasFourDigitYear, date]
  rw [daySeconds] at *
  omega

instance (t : Instant) : Decidable t.HasFourDigitYear :=
  decidable_of_iff' _ hasFourDigitYear_iff

/-- An instant of the supported years, within a leap second only at the end of a minute. -/
def IsRegular (t : Instant) : Prop :=
  inRange t.seconds = true ∧
    (t.nanos < 1000000000 ∨ t.nanos < 2000000000 ∧ t.seconds % 60 = 59)

theorem localChars_eq_stamp {t : Instant} (h : t.HasFourDigitYear) (tail : List Char) :
    t.localChars ++ tail =
      stamp t.date ((t.seconds % daySeconds).toNat / 3600)
        ((t.seconds % daySeconds).toNat / 60 % 60)
        ((t.seconds % daySeconds).toNat % 60 + t.nanos / 1000000000)
        (fractionChars (t.nanos % 1000000000) ++ tail) := by
  have hyear : yearChars t.date.year = padded 4 t.date.year.toNat := if_pos h
  rw [localChars, stamp, ← hyear]
  simp [date]

/-- The second of the minute and the fraction are written so that a leap second shows as the
sixtieth, and so it is read. -/
theorem timeOfDay_parts {t : Instant} (h : t.IsRegular) :
    timeOfDay ((t.seconds % daySeconds).toNat / 3600) ((t.seconds % daySeconds).toNat / 60 % 60)
        ((t.seconds % daySeconds).toNat % 60 + t.nanos / 1000000000) (t.nanos % 1000000000) =
      .ok ((t.seconds % daySeconds).toNat, t.nanos) := by
  have hday : (t.seconds % daySeconds).toNat < 86400 := by
    rw [daySeconds]
    omega
  have hminute : t.seconds % 60 = ((t.seconds % daySeconds).toNat % 60 : Nat) := by
    rw [daySeconds]
    omega
  have hparts := h.2
  rw [hminute] at hparts
  generalize (t.seconds % daySeconds).toNat = time at *
  rw [timeOfDay]
  by_cases hbefore : t.nanos < 1000000000
  · have hsecond : time % 60 + t.nanos / 1000000000 = time % 60 := by omega
    have hwhole : time / 3600 * 3600 + time / 60 % 60 * 60 + time % 60 = time := by omega
    rw [hsecond, Nat.mod_eq_of_lt hbefore, if_neg (by omega)]
    simp only [hwhole]
    rw [if_pos (by omega)]
  · have hsecond : time % 60 + t.nanos / 1000000000 = 60 := by omega
    have hwhole : time / 3600 * 3600 + time / 60 % 60 * 60 + 59 = time := by omega
    have hnanos : t.nanos % 1000000000 + 1000000000 = t.nanos := by omega
    rw [hsecond, if_pos rfl]
    simp only [hwhole, hnanos]
    rw [if_pos (by omega)]

theorem exists_localChars {t : Instant} (h : ¬t.HasFourDigitYear) :
    ∃ c cs, t.localChars = c :: cs ∧ c.isDigit = false := by
  obtain ⟨c, cs, hcs, hc⟩ : ∃ c cs, yearChars t.date.year = c :: cs ∧ c.isDigit = false := by
    rw [HasFourDigitYear] at h
    rw [yearChars, if_neg h]
    split
    · exact ⟨_, _, rfl, rfl⟩
    · exact ⟨_, _, rfl, rfl⟩
  obtain ⟨rest, hrest⟩ : ∃ rest, t.localChars = yearChars t.date.year ++ rest := by
    simp only [localChars, List.append_assoc]
    exact ⟨_, rfl⟩
  exact ⟨c, cs ++ rest, by rw [hrest, hcs, List.cons_append], hc⟩

/-- The text of an instant gives it back if the year has four digits, and is no text of the internet
date format if it has not. -/
theorem strict?_text {t : Instant} (h : t.IsRegular) :
    strict? t.text = if t.HasFourDigitYear then some t else none := by
  by_cases hyear : t.HasFourDigitYear
  · have hseconds : t.date.toDays * daySeconds + ((t.seconds % daySeconds).toNat : Int) - 0 =
        t.seconds := by
      rw [date, Date.toDays_ofDays, daySeconds]
      omega
    have hinstant : instantAt t.date ((t.seconds % daySeconds).toNat, t.nanos) 0 = .ok t := by
      rw [instantAt, hseconds, if_pos h.1]
    have htime : (t.seconds % daySeconds).toNat < 86400 ∧ t.nanos / 1000000000 < 2 := by
      have := h.2
      rw [daySeconds]
      omega
    rw [if_pos hyear, strict?, text, localChars_eq_stamp hyear,
      strict_stamp _ hyear (Date.isValid_ofDays _) (by omega) (by omega) (by omega),
      strictTail_fractionChars (Nat.mod_lt _ (by decide)) (timeOfDay_parts h), hinstant]
    rfl
  · -- A sign stands where the first digit is looked for.
    obtain ⟨c, cs, hcs, hc⟩ := exists_localChars hyear
    rw [if_neg hyear, text, hcs]
    exact strict?_eq_none hc _

end Instant

end QaLake
