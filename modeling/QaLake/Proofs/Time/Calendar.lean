import QaLake.Time.Calendar

namespace QaLake.Time

/-- A day of an era by what is over before it: centuries, cycles of four years, years, and days of
the year. Only a leap year has a day 365. -/
structure EraDay (day century cycle year rest : Int) : Prop where
  day_eq : day = 36524 * century + 1461 * cycle + 365 * year + rest
  century_mem : 0 ≤ century ∧ century ≤ 3
  cycle_mem : 0 ≤ cycle ∧ cycle ≤ 24
  year_mem : 0 ≤ year ∧ year ≤ 3
  rest_mem : 0 ≤ rest ∧ rest ≤ 365
  leap : rest = 365 → year = 3 ∧ (cycle = 24 → century = 3)

theorem exists_eraDay {day : Int} (h : 0 ≤ day) (h' : day < Date.eraDays) :
    ∃ century cycle year rest, EraDay day century cycle year rest := by
  rw [Date.eraDays] at h'
  -- The last day of an era or of a cycle must not open a fifth century or year.
  let century := min (day / 36524) 3
  let inCentury := day - 36524 * century
  let cycle := inCentury / 1461
  let inCycle := inCentury - 1461 * cycle
  let year := min (inCycle / 365) 3
  refine ⟨century, cycle, year, inCycle - 365 * year, ?_, ?_, ?_, ?_, ?_, ?_⟩ <;> omega

theorem EraDay.yearOfEra {day century cycle year rest : Int}
    (h : EraDay day century cycle year rest) :
    (day - day / 1460 + day / 36524 - day / 146096) / 365 = 100 * century + 4 * cycle + year := by
  obtain ⟨hday, hcentury, hcycle, hyear, hrest, hleap⟩ := h
  have hcenturies : day / 36524 - day / 146096 = century := by
    obtain hlast | hbefore : day = 146096 ∨ 1461 * cycle + 365 * year + rest ≤ 36523 := by omega
    · omega
    · have hwhole : day / 36524 = century := by omega
      have hnone : day / 146096 = 0 := by omega
      omega
  -- Steps of 1460 days fall behind the cycles, by one step at most.
  have hcycles : day / 1460 =
      25 * century + cycle + (24 * century + cycle + 365 * year + rest) / 1460 := by omega
  have hcarry : 0 ≤ rest - (24 * century + cycle + 365 * year + rest) / 1460 ∧
      rest - (24 * century + cycle + 365 * year + rest) / 1460 ≤ 364 := by omega
  omega

/-- A day of an era by the years that are over before it and the days of its year, which begins
with March. -/
structure YearDay (day year rest : Int) : Prop where
  day_eq : day = 365 * year + year / 4 - year / 100 + rest
  year_mem : 0 ≤ year ∧ year ≤ 399
  rest_mem : 0 ≤ rest ∧ rest ≤ 365
  leap : rest = 365 → (year + 1) % 4 = 0 ∧ ((year + 1) % 100 = 0 → (year + 1) % 400 = 0)
  yearOfEra : (day - day / 1460 + day / 36524 - day / 146096) / 365 = year

theorem exists_yearDay {day : Int} (h : 0 ≤ day) (h' : day < Date.eraDays) :
    ∃ year rest, YearDay day year rest := by
  obtain ⟨century, cycle, year, rest, hsplit⟩ := exists_eraDay h h'
  have hcycle := hsplit.cycle_mem
  have hyear := hsplit.year_mem
  have hfourths : (100 * century + 4 * cycle + year) / 4 = 25 * century + cycle := by omega
  have hhundredths : (100 * century + 4 * cycle + year) / 100 = century := by omega
  have hcentury := hsplit.century_mem
  refine ⟨100 * century + 4 * cycle + year, rest, ?_, by omega, hsplit.rest_mem, ?_,
    hsplit.yearOfEra⟩
  · have hday := hsplit.day_eq
    rw [hfourths, hhundredths]
    omega
  · intro hlast
    obtain ⟨hyear, hcycle⟩ := hsplit.leap hlast
    omega

namespace Date

/-- A date by a year that begins with March, its months and their days counted from zero. -/
def ofMarch (year month day : Int) : Date :=
  if month < 10 then ⟨year, (month + 3).toNat, (day + 1).toNat⟩
  else ⟨year + 1, (month - 9).toNat, (day + 1).toNat⟩

theorem toDays_ofMarch {year month day : Int} (hmonth : 0 ≤ month ∧ month ≤ 11) (hday : 0 ≤ day) :
    (ofMarch year month day).toDays = year / 400 * eraDays + year % 400 * 365 + year % 400 / 4 -
      year % 400 / 100 + (153 * month + 2) / 5 + day - 719468 := by
  rw [ofMarch, toDays]
  by_cases h : month < 10
  · have hlate : ¬(month + 3).toNat ≤ 2 := by omega
    have hback : (((month + 3).toNat : Int) + 9) % 12 = month := by omega
    simp only [if_pos h, if_neg hlate, hback]
    omega
  · have hearly : (month - 9).toNat ≤ 2 := by omega
    have hback : (((month - 9).toNat : Int) + 9) % 12 = month := by omega
    simp only [if_neg h, if_pos hearly, hback, Int.add_sub_cancel]
    omega

theorem isValid_of_le {year : Int} {month day : Nat} (hmonth : 1 ≤ month ∧ month ≤ 12)
    (hday : 1 ≤ day ∧ day ≤ daysInMonth year month) :
    (⟨year, month, day⟩ : Date).isValid = true := by
  simp [isValid, hmonth, hday]

/-- The months from March on have 31 and 30 days in turns of five, and the last of them ends where
the year does. -/
theorem isValid_ofMarch {year rest : Int} (hrest : 0 ≤ rest ∧ rest ≤ 365)
    (hleap : rest = 365 → isLeapYear (year + 1) = true) :
    (ofMarch year ((5 * rest + 2) / 153)
      (rest - (153 * ((5 * rest + 2) / 153) + 2) / 5)).isValid = true := by
  have hmonth : 0 ≤ (5 * rest + 2) / 153 ∧ (5 * rest + 2) / 153 ≤ 11 := by omega
  have hshort : (5 * rest + 2) / 153 = 1 ∨ (5 * rest + 2) / 153 = 3 ∨ (5 * rest + 2) / 153 = 6 ∨
      (5 * rest + 2) / 153 = 8 → rest - (153 * ((5 * rest + 2) / 153) + 2) / 5 ≤ 29 := by omega
  have hlast : (5 * rest + 2) / 153 = 11 → rest - (153 * ((5 * rest + 2) / 153) + 2) / 5 ≤ 28 ∧
      (rest ≠ 365 → rest - (153 * ((5 * rest + 2) / 153) + 2) / 5 ≤ 27) := by omega
  have hday : 0 ≤ rest - (153 * ((5 * rest + 2) / 153) + 2) / 5 ∧
      rest - (153 * ((5 * rest + 2) / 153) + 2) / 5 ≤ 30 := by omega
  generalize (5 * rest + 2) / 153 = month at *
  generalize rest - (153 * month + 2) / 5 = day at *
  rw [ofMarch]
  by_cases h : month < 10
  · rw [if_pos h]
    refine isValid_of_le (by omega) ⟨by omega, ?_⟩
    rw [daysInMonth, if_neg (by omega)]
    split <;> omega
  · rw [if_neg h]
    refine isValid_of_le (by omega) ⟨by omega, ?_⟩
    by_cases hend : month = 11
    · rw [daysInMonth, if_pos (by omega)]
      by_cases hfull : rest = 365
      · rw [if_pos (hleap hfull)]
        have := hlast hend
        omega
      · have := (hlast hend).2 hfull
        split <;> omega
    · rw [daysInMonth, if_neg (by omega), if_neg (by omega)]
      omega

theorem exists_ofMarch (days : Int) :
    ∃ year rest, YearDay ((days + 719468) % eraDays) year rest ∧
      ofDays days = ofMarch (year + (days + 719468) / eraDays * 400) ((5 * rest + 2) / 153)
        (rest - (153 * ((5 * rest + 2) / 153) + 2) / 5) := by
  obtain ⟨year, rest, h⟩ := exists_yearDay
    (Int.emod_nonneg (days + 719468) (show eraDays ≠ 0 by decide))
    (Int.emod_lt_of_pos (days + 719468) (show 0 < eraDays by decide))
  have hrest : (days + 719468) % eraDays - (365 * year + year / 4 - year / 100) = rest := by
    have := h.day_eq
    omega
  refine ⟨year, rest, h, ?_⟩
  rw [ofDays, ofMarch]
  simp only [h.yearOfEra, hrest]
  by_cases hmonth : (5 * rest + 2) / 153 < 10
  · have hlate : ¬(5 * rest + 2) / 153 + 3 ≤ 2 := by
      have := h.rest_mem
      omega
    simp only [if_pos hmonth, if_neg hlate, Int.add_zero]
  · have hearly : (5 * rest + 2) / 153 - 9 ≤ 2 := by
      have := h.rest_mem
      omega
    simp only [if_neg hmonth, if_pos hearly]

theorem toDays_ofDays (days : Int) : (ofDays days).toDays = days := by
  obtain ⟨year, rest, h, hdate⟩ := exists_ofMarch days
  obtain ⟨hday, hyear, hrest, -, -⟩ := h
  have hera : (year + (days + 719468) / eraDays * 400) / 400 = (days + 719468) / eraDays := by omega
  have hin : (year + (days + 719468) / eraDays * 400) % 400 = year := by omega
  rw [hdate, toDays_ofMarch (by omega) (by omega), hera, hin]
  have hsplit := Int.mul_ediv_add_emod (days + 719468) eraDays
  rw [Int.mul_comm] at hsplit
  omega

theorem isValid_ofDays (days : Int) : (ofDays days).isValid = true := by
  obtain ⟨year, rest, h, hdate⟩ := exists_ofMarch days
  rw [hdate]
  refine isValid_ofMarch h.rest_mem fun hlast => ?_
  obtain ⟨hfourth, hcentury⟩ := h.leap hlast
  have hyear : 0 ≤ year := h.year_mem.1
  rw [isLeapYear]
  simp only [Bool.and_eq_true, Bool.or_eq_true, beq_iff_eq, bne_iff_ne]
  omega

/-- The years of days follow one another: a year begins with its first of January. -/
theorem le_year_ofDays {year days : Int} :
    year ≤ (ofDays days).year ↔ (Date.mk year 1 1).toDays ≤ days := by
  obtain ⟨march, rest, h, hdate⟩ := exists_ofMarch days
  obtain ⟨hday, hmarch, hrest, hleap, -⟩ := h
  have hfirst : (Date.mk year 1 1).toDays = (year - 1) / 400 * eraDays +
      (year - 1) % 400 * 365 + (year - 1) % 400 / 4 - (year - 1) % 400 / 100 + 306 - 719468 := by
    have hearly : (Date.mk year 1 1).month ≤ 2 := by simp
    rw [toDays]
    simp only [if_pos hearly]
    omega
  have hyear : (ofDays days).year =
      march + (days + 719468) / eraDays * 400 + if rest < 306 then 0 else 1 := by
    rw [hdate, ofMarch]
    by_cases hmonth : (5 * rest + 2) / 153 < 10
    · rw [if_pos hmonth, if_pos (by omega), Int.add_zero]
    · rw [if_neg hmonth, if_neg (by omega)]
  have hsplit := Int.mul_ediv_add_emod (days + 719468) eraDays
  rw [hyear, hfirst]
  generalize (days + 719468) % eraDays = day at *
  generalize (days + 719468) / eraDays = era at *
  rw [eraDays] at *
  by_cases hjanuary : rest < 306
  · rw [if_pos hjanuary]
    omega
  · rw [if_neg hjanuary]
    omega

end Date

end QaLake.Time
