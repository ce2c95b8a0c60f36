import Mathlib.Data.List.TakeWhile
import QaLake.Proofs.Time.Texts

namespace QaLake

namespace Time

open Text (digitsValue)

section Steps

variable {α β : Type} {p : Char → Prop} {m : Reader α} {f : α → Reader β}

theorem exists_of_bind {cs rest : List Char} {b : β} (h : (m >>= f) cs = .ok (b, rest)) :
    ∃ a mid, m cs = .ok (a, mid) ∧ f a mid = .ok (b, rest) := by
  change (m cs >>= fun p => f p.1 p.2) = _ at h
  cases hm : m cs with
  | error e =>
    rw [hm] at h
    cases h
  | ok p =>
    rw [hm] at h
    exact ⟨p.1, p.2, rfl, h⟩

theorem exists_of_run' {cs : List Char} {a : α} (h : m.run' cs = .ok a) :
    ∃ rest, m cs = .ok (a, rest) := by
  change (m cs).map Prod.fst = _ at h
  cases hm : m cs with
  | error e =>
    rw [hm] at h
    cases h
  | ok p =>
    rw [hm] at h
    cases h
    exact ⟨p.2, rfl⟩

/-- Whether everything that a reader makes of a text has a property. -/
def Ensures (m : Reader α) (q : α → Prop) : Prop :=
  ∀ cs a rest, m cs = .ok (a, rest) → q a

theorem ensures_bind {q : α → Prop} {r : β → Prop} (hm : Ensures m q)
    (hf : ∀ a, q a → Ensures (f a) r) : Ensures (m >>= f) r := by
  intro cs b rest h
  obtain ⟨a, mid, ha, hb⟩ := exists_of_bind h
  exact hf a (hm cs a mid ha) mid b rest hb

theorem ensures_last {r : β → Prop} (hf : ∀ a, Ensures (f a) r) : Ensures (m >>= f) r :=
  ensures_bind (q := fun _ => True) (fun _ _ _ _ => trivial) fun a _ => hf a

theorem ensures_lift {e : Except ReadError α} {q : α → Prop} (h : ∀ a, e = .ok a → q a) :
    Ensures (liftM e : Reader α) q := by
  intro cs a rest hread
  cases e with
  | error _ => cases hread
  | ok b =>
    cases hread
    exact h a rfl

def Takes (p : Char → Prop) (m : Reader α) : Prop :=
  ∀ cs a rest, m cs = .ok (a, rest) → ∃ taken, cs = taken ++ rest ∧ ∀ c ∈ taken, p c

/-- Whether a reader accepts only whole texts of a class of characters. -/
def Spends (p : Char → Prop) (m : Reader α) : Prop :=
  ∀ cs a rest, m cs = .ok (a, rest) → ∀ c ∈ cs, p c

theorem takes_bind (hm : Takes p m) (hf : ∀ a, Takes p (f a)) : Takes p (m >>= f) := by
  intro cs b rest h
  obtain ⟨a, mid, ha, hb⟩ := exists_of_bind h
  obtain ⟨taken, rfl, htaken⟩ := hm cs a mid ha
  obtain ⟨taken', rfl, htaken'⟩ := hf a mid b rest hb
  refine ⟨taken ++ taken', (List.append_assoc _ _ _).symm, fun c hc => ?_⟩
  exact (List.mem_append.1 hc).elim (htaken c) (htaken' c)

theorem takes_lift (e : Except ReadError α) : Takes p (liftM e : Reader α) := by
  intro cs a rest h
  cases e with
  | error _ => cases h
  | ok b =>
    cases h
    exact ⟨[], rfl, fun _ hc => nomatch hc⟩

theorem spends_bind (hm : Takes p m) (hf : ∀ a, Spends p (f a)) : Spends p (m >>= f) := by
  intro cs b rest h
  obtain ⟨a, mid, ha, hb⟩ := exists_of_bind h
  obtain ⟨taken, rfl, htaken⟩ := hm cs a mid ha
  exact fun c hc => (List.mem_append.1 hc).elim (htaken c) (hf a mid b rest hb c)

theorem spends_finish (f : Unit → Reader β) : Spends p (finish >>= f) := by
  intro cs b rest h
  cases cs with
  | nil => exact fun _ hc => nomatch hc
  | cons c cs => cases h

end Steps

theorem exists_of_number {most : Option Nat} {cs rest : List Char} {n : Nat}
    (h : number most cs = .ok (n, rest)) :
    ∃ digits, cs = digits ++ rest ∧ (∀ c ∈ digits, c.isDigit = true) ∧ digitsValue digits = n ∧
      ∀ k ∈ most, digits.length ≤ k := by
  rw [number] at h
  split at h
  · cases h
  split at h
  · cases h
  split at h
  · cases h
  cases h
  have hprefix : (most.elim cs fun n => cs.take n).takeWhile Char.isDigit <+: cs := by
    cases most with
    | none => exact List.takeWhile_prefix _
    | some n => exact (List.takeWhile_prefix _).trans (List.take_prefix n cs)
  refine ⟨_, (List.prefix_iff_eq_append.1 hprefix).symm, fun c hc => List.mem_takeWhile_imp hc, rfl,
    ?_⟩
  rintro k rfl
  exact Nat.le_trans (List.takeWhile_prefix _).length_le (List.length_take_le k cs)

theorem digitValue_le {c : Char} (h : c.isDigit = true) : c.toNat - '0'.toNat ≤ 9 := by
  simp only [Char.isDigit, Bool.and_eq_true, decide_eq_true_eq] at h
  have hle : c.toNat ≤ 57 := h.2
  exact Nat.sub_le_of_le_add hle

theorem digitsValue_lt {ds : List Char} (h : ∀ c ∈ ds, c.isDigit = true) :
    digitsValue ds < Nat.pow 10 ds.length := by
  have hfold : ∀ n, ds.foldl (fun n c => n * 10 + (c.toNat - '0'.toNat)) n <
      (n + 1) * Nat.pow 10 ds.length := by
    induction ds with
    | nil => exact fun n => by simp
    | cons c ds ih =>
      intro n
      have hc : c.toNat - '0'.toNat ≤ 9 := digitValue_le (h c List.mem_cons_self)
      have hrest := ih (fun d hd => h d (List.mem_cons_of_mem _ hd))
        (n * 10 + (c.toNat - '0'.toNat))
      have hstep : n * 10 + (c.toNat - '0'.toNat) + 1 ≤ (n + 1) * 10 := by omega
      calc
        _ < (n * 10 + (c.toNat - '0'.toNat) + 1) * Nat.pow 10 ds.length := hrest
        _ ≤ (n + 1) * 10 * Nat.pow 10 ds.length := Nat.mul_le_mul_right _ hstep
        _ = (n + 1) * Nat.pow 10 (c :: ds).length := by
          rw [Nat.mul_assoc, Nat.mul_comm 10]
          rfl
  have hwhole := hfold 0
  rwa [Nat.zero_add, Nat.one_mul] at hwhole

theorem ensures_fraction : Ensures fraction (· < 1000000000) := by
  intro cs n rest h
  rw [fraction] at h
  obtain ⟨before, mid, hbefore, h⟩ := exists_of_bind h
  cases hbefore
  obtain ⟨k, mid, hnumber, h⟩ := exists_of_bind h
  obtain ⟨after, mid', hafter, h⟩ := exists_of_bind h
  cases hafter
  obtain ⟨_, mid', -, h⟩ := exists_of_bind h
  cases h
  obtain ⟨digits, rfl, hdigits, rfl, hlength⟩ := exists_of_number hnumber
  have hused : (digits ++ mid).length - mid.length = digits.length := by
    rw [List.length_append, Nat.add_sub_cancel]
  rw [hused]
  calc
    digitsValue digits * Nat.pow 10 (9 - digits.length)
      < Nat.pow 10 digits.length * Nat.pow 10 (9 - digits.length) :=
        Nat.mul_lt_mul_of_pos_right (digitsValue_lt hdigits) (Nat.pow_pos (by decide))
    _ = Nat.pow 10 (digits.length + (9 - digits.length)) := (Nat.pow_add 10 _ _).symm
    _ = 1000000000 := by rw [Nat.add_sub_cancel' (hlength 9 rfl)]

theorem ensures_optionalFraction : Ensures optionalFraction (· < 1000000000) := by
  intro cs n rest h
  rw [optionalFraction.eq_def] at h
  split at h
  · exact ensures_fraction _ _ _ h
  · cases h
    decide

theorem ensures_offset (separator : Reader Unit) : Ensures (offset separator) (· % 60 = 0) := by
  intro cs n rest h
  rw [offset.eq_def] at h
  split at h
  · cases h
    rfl
  · cases h
    rfl
  · obtain ⟨west, _, -, h⟩ := exists_of_bind h
    obtain ⟨hours, _, -, h⟩ := exists_of_bind h
    obtain ⟨_, _, -, h⟩ := exists_of_bind h
    obtain ⟨minutes, _, -, h⟩ := exists_of_bind h
    cases h
    split
    all_goals omega

/-- A time of day lies in its day, and is within a leap second only in the last second of a minute.
-/
theorem timeOfDay_le {hour minute second nanos : Nat} {time : Nat × Nat} (h : nanos < 1000000000)
    (htime : timeOfDay hour minute second nanos = .ok time) :
    time.2 < 1000000000 ∨ time.2 < 2000000000 ∧ time.1 % 60 = 59 := by
  rw [timeOfDay] at htime
  by_cases hleap : second = 60
  · simp only [if_pos hleap] at htime
    split at htime
    · cases htime
      exact .inr (by omega)
    · cases htime
  · simp only [if_neg hleap] at htime
    split at htime
    · cases htime
      exact .inl h
    · cases htime

theorem isRegular_of_instantAt {date : Date} {time : Nat × Nat} {offset : Int} {t : Instant}
    (htime : time.2 < 1000000000 ∨ time.2 < 2000000000 ∧ time.1 % 60 = 59)
    (hoffset : offset % 60 = 0) (h : instantAt date time offset = .ok t) : t.IsRegular := by
  rw [instantAt] at h
  split at h
  · rename_i hrange
    cases h
    refine ⟨hrange, htime.imp_right fun hleap => ⟨hleap.1, ?_⟩⟩
    have hlast := hleap.2
    simp only [Instant.daySeconds]
    omega
  · cases h

theorem ensures_strictTail (date : Date) (hour minute second : Nat) :
    Ensures (strictTail date hour minute second) Instant.IsRegular := by
  rw [strictTail]
  refine ensures_bind ensures_optionalFraction fun nanos hnanos => ?_
  refine ensures_bind (ensures_lift fun time => timeOfDay_le hnanos) fun time htime => ?_
  refine ensures_bind (ensures_offset _) fun seconds hseconds => ensures_last fun _ => ?_
  split
  · intro _ _ _ h
    cases h
  · exact ensures_lift fun t => isRegular_of_instantAt htime hseconds

theorem forall_of_bind {ε α β : Type} {e : Except ε α} {f : α → Except ε β} {q : β → Prop}
    (h : ∀ a b, f a = .ok b → q b) (b : β) (hb : (e >>= f) = .ok b) : q b := by
  cases e with
  | error _ => cases hb
  | ok a => exact h a b hb

theorem isRegular_of_strict? {s : String} {t : Instant} (h : strict? s = some t) :
    t.IsRegular := by
  have hread : ∀ t, strict s = .ok t → t.IsRegular := by
    rw [strict]
    split
    · intro _ h
      cases h
    · refine forall_of_bind fun century => forall_of_bind fun year => forall_of_bind fun _ =>
        forall_of_bind fun month => forall_of_bind fun _ => forall_of_bind fun day =>
        forall_of_bind fun date => forall_of_bind fun _ => forall_of_bind fun hour =>
        forall_of_bind fun _ => forall_of_bind fun minute => forall_of_bind fun _ =>
        forall_of_bind fun second t h => ?_
      obtain ⟨rest, h⟩ := exists_of_run' h
      exact ensures_strictTail date hour minute second _ t rest h
  refine hread t ?_
  rw [strict?] at h
  cases hs : strict s with
  | error e =>
    rw [hs] at h
    cases h
  | ok t' =>
    rw [hs] at h
    cases h
    rfl

namespace Date

theorem toDays_mem {date : Date} (h : date.isValid = true) :
    (Date.mk date.year 1 1).toDays ≤ date.toDays ∧
      date.toDays < (Date.mk (date.year + 1) 1 1).toDays := by
  have hle := le_of_isValid h
  have hfirst : 1 ≤ date.month ∧ 1 ≤ date.day := by
    simp [isValid] at h
    omega
  obtain ⟨year, month, day⟩ := date
  simp only at hle hfirst
  simp only [toDays, eraDays, if_pos (show 1 ≤ 2 by decide), Int.add_sub_cancel]
  by_cases hearly : month ≤ 2
  · simp only [if_pos hearly]
    omega
  · simp only [if_neg hearly]
    omega

theorem toDays_year_le {year year' : Int} (h : year ≤ year') :
    (Date.mk year 1 1).toDays ≤ (Date.mk year' 1 1).toDays :=
  le_year_ofDays.1 (Int.le_trans h (le_year_ofDays.2 (Int.le_refl _)))

end Date

def IsSupported (date : Date) : Prop :=
  date.isValid = true ∧ minYear ≤ date.year ∧ date.year ≤ maxYear

theorem isSupported_of_checkedDate {date date' : Date} (h : checkedDate date = .ok date') :
    IsSupported date' := by
  rw [checkedDate] at h
  split at h
  · rename_i hchecked
    cases h
    simpa [IsSupported, and_assoc] using hchecked
  · cases h

theorem isRegular_midnight {date : Date} (h : IsSupported date) : (midnight date).IsRegular := by
  obtain ⟨hvalid, hlow, hhigh⟩ := h
  have hdays := Date.toDays_mem hvalid
  have hfirst : -96465292 ≤ (Date.mk date.year 1 1).toDays :=
    @Date.toDays_year_le minYear _ hlow
  have hlast : (Date.mk (date.year + 1) 1 1).toDays ≤ 95026237 :=
    @Date.toDays_year_le _ (maxYear + 1) (by omega)
  have hseconds : Instant.minSeconds ≤ date.toDays * Instant.daySeconds ∧
      date.toDays * Instant.daySeconds ≤ Instant.maxSeconds := by
    rw [Instant.minSeconds, Instant.maxSeconds, Instant.daySeconds]
    omega
  refine ⟨Bool.and_eq_true_iff.2 ⟨?_, ?_⟩, .inl (Nat.zero_lt_succ _)⟩
  · exact decide_eq_true hseconds.1
  · exact decide_eq_true hseconds.2

theorem ensures_dateReader (layout : DateLayout) : Ensures (dateReader layout) IsSupported := by
  have hchecked : ∀ date, Ensures (liftM (checkedDate date) : Reader Date) IsSupported :=
    fun date => ensures_lift fun _ => isSupported_of_checkedDate
  cases layout with
  | yearMonthDay | monthDayYear =>
    exact ensures_last fun _ => ensures_last fun _ => ensures_last fun _ => ensures_last fun _ =>
      ensures_last fun _ => ensures_last fun _ => hchecked _

theorem isRegular_of_dateIn? {layout : DateLayout} {s : String} {date : Date}
    (h : dateIn? layout s = some date) : (midnight date).IsRegular := by
  rw [dateIn?] at h
  cases hread : (dateReader layout).run' s.toList with
  | error e =>
    rw [hread] at h
    cases h
  | ok date' =>
    rw [hread] at h
    cases h
    obtain ⟨rest, hread⟩ := exists_of_run' hread
    exact isRegular_midnight (ensures_dateReader layout _ _ _ hread)

def IsDateChar (c : Char) : Prop :=
  c.isDigit = true ∨ Text.isBlank c = true ∨ c ∈ ['-', '+', '/']

theorem takes_number (most : Option Nat) : Takes IsDateChar (number most) := by
  intro cs n rest h
  obtain ⟨digits, hcs, hdigits, -⟩ := exists_of_number h
  exact ⟨digits, hcs, fun c hc => .inl (hdigits c hc)⟩

theorem takes_blanks : Takes IsDateChar blanks := by
  intro cs a rest h
  cases h
  exact ⟨cs.takeWhile Text.isBlank, List.takeWhile_append_dropWhile.symm,
    fun c hc => .inr (.inl (List.mem_takeWhile_imp hc))⟩

theorem takes_oneOf {marks : List Char} (hmarks : ∀ c ∈ marks, IsDateChar c) :
    Takes IsDateChar (oneOf marks) := by
  intro cs a rest h
  cases cs with
  | nil => cases h
  | cons c cs =>
    rw [oneOf] at h
    split at h
    · rename_i hc
      cases h
      exact ⟨[c], rfl, fun d hd => List.mem_singleton.1 hd ▸ hmarks c (by simpa using hc)⟩
    · cases h

theorem takes_field (low high : Nat) : Takes IsDateChar (field low high) := by
  refine takes_bind takes_blanks fun _ => takes_bind (takes_number _) fun n => ?_
  intro cs a rest h
  split at h
  · cases h
    exact ⟨[], rfl, fun _ hc => nomatch hc⟩
  · cases h

theorem takes_year : Takes IsDateChar year := by
  refine takes_bind takes_blanks fun _ cs n rest h => ?_
  obtain ⟨got, mid, hget, h⟩ := exists_of_bind h
  cases hget
  have hsigned : ∀ (sign : Char) (cs : List Char) (f : Nat → Reader Int), IsDateChar sign →
      (∀ n, Takes IsDateChar (f n)) → (set cs >>= fun _ => number none >>= f) (sign :: cs) =
        .ok (n, rest) → ∃ taken, sign :: cs = taken ++ rest ∧ ∀ c ∈ taken, IsDateChar c := by
    intro sign cs f hsign hf h
    obtain ⟨taken, rfl, htaken⟩ := takes_bind (takes_number none) hf _ _ _ h
    exact ⟨sign :: taken, rfl, List.forall_mem_cons.2 ⟨hsign, htaken⟩⟩
  split at h
  · exact hsigned _ _ _ (.inr (.inr (by decide))) (fun _ => takes_lift _) h
  · exact hsigned _ _ _ (.inr (.inr (by decide))) (fun _ => takes_lift _) h
  · exact takes_bind (takes_number _) (fun _ => takes_lift _) _ _ _ h

theorem spends_dateReader (layout : DateLayout) : Spends IsDateChar (dateReader layout) := by
  have hmark : ∀ c ∈ ['-', '/'], Takes IsDateChar (oneOf [c]) := by
    intro c hc
    refine takes_oneOf fun d hd => .inr (.inr ?_)
    rw [List.mem_singleton.1 hd]
    simp only [List.mem_cons, List.not_mem_nil, or_false] at hc ⊢
    exact hc.imp_right .inr
  cases layout with
  | yearMonthDay =>
    exact spends_bind takes_year fun _ => spends_bind (hmark '-' (by decide)) fun _ =>
      spends_bind (takes_field 1 12) fun _ => spends_bind (hmark '-' (by decide)) fun _ =>
      spends_bind (takes_field 1 31) fun _ => spends_finish _
  | monthDayYear =>
    exact spends_bind (takes_field 1 12) fun _ => spends_bind (hmark '/' (by decide)) fun _ =>
      spends_bind (takes_field 1 31) fun _ => spends_bind (hmark '/' (by decide)) fun _ =>
      spends_bind takes_year fun _ => spends_finish _

theorem dateIn?_eq_none {c : Char} (hc : ¬IsDateChar c) {s : String} (hs : c ∈ s.toList)
    (layout : DateLayout) : dateIn? layout s = none := by
  rw [dateIn?]
  cases hread : (dateReader layout).run' s.toList with
  | error e => rfl
  | ok date =>
    obtain ⟨rest, hread⟩ := exists_of_run' hread
    exact absurd (spends_dateReader layout _ _ _ hread c hs) hc

end Time

end QaLake
