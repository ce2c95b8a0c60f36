import Mathlib.Data.List.Nodup
import Mathlib.Data.List.Pairwise
import QaLake.Number.Word
import QaLake.Proofs.Store.Sources

namespace QaLake.Store

variable {ρ κ : Type}

/-- What happens around a cursor: its next row is asked for, or the tables are written. -/
inductive Occurrence
  | next
  | write (f : Tables → Tables)

/-- The tables that there are one after another, those at the beginning first. -/
def Tables.through (t : Tables) : List Occurrence → List Tables
  | [] => [t]
  | .next :: rest => t.through rest
  | .write f :: rest => t :: (f t).through rest

theorem Tables.mem_through (t : Tables) (os : List Occurrence) : t ∈ t.through os := by
  induction os with
  | nil => exact List.mem_singleton_self t
  | cons o os ih =>
    cases o with
    | next => exact ih
    | write f => exact List.mem_cons_self

theorem length_le_of_ascending (low high : Int) {ks : List Int} (h : ks.Pairwise (· < ·))
    (hbounds : ∀ k ∈ ks, low ≤ k ∧ k < high) : (ks.length : Int) ≤ max 0 (high - low) := by
  induction ks generalizing low with
  | nil => exact Int.le_max_left 0 _
  | cons k ks ih =>
    obtain ⟨hfirst, hrest⟩ := List.pairwise_cons.1 h
    obtain ⟨hlow, hhigh⟩ := hbounds k List.mem_cons_self
    have hlen := ih (k + 1) hrest fun j hj =>
      ⟨hfirst j hj, (hbounds j (List.mem_cons_of_mem _ hj)).2⟩
    rw [List.length_cons]
    omega

/-- A batch with room for all positive positions of signed 64-bit words is as good as one without a
limit. -/
theorem Source.Reads.batch_unlimited {source : Source ρ} {db : Database} {rows : List κ}
    {position : κ → Int} {read : κ → Option ρ} (hs : source.Reads db rows position read)
    (hword : ∀ a ∈ rows, position a < Word.signedLimit) {after : Int} (hafter : 0 ≤ after)
    {limit : Nat} (hlimit : Word.signedLimit ≤ limit) :
    source.batch db after limit =
      readOrFail ((rows.filter fun a => after < position a).mapM read) := by
  have hlen : ((rows.filter fun a => after < position a).map position).length ≤ limit := by
    have hascending : ((rows.filter fun a => after < position a).map position).Pairwise (· < ·) :=
      List.pairwise_map.2 (hs.ascending.filter _)
    have hle := length_le_of_ascending 0 Word.signedLimit hascending
      fun k hk => by
        obtain ⟨a, ha, rfl⟩ := List.mem_map.1 hk
        obtain ⟨ha, hlater⟩ := List.mem_filter.1 ha
        have hbehind : after < position a := by simpa using hlater
        exact ⟨by omega, hword a ha⟩
    have hpos : (0 : Int) ≤ Word.signedLimit := by decide
    omega
  rw [List.length_map] at hlen
  rw [hs.batch, List.take_of_length_le hlen]

theorem exists_mapM_eq_some {read : κ → Option ρ} {as : List κ}
    (h : ∀ a ∈ as, (read a).isSome = true) : ∃ rs, as.mapM read = some rs := by
  rw [← Option.isSome_iff_exists, isSome_mapM, List.all_eq_true]
  exact h

theorem Source.Reads.positions_of_batch {source : Source ρ} {db : Database} {rows : List κ}
    {position : κ → Int} {read : κ → Option ρ} (hs : source.Reads db rows position read)
    {after : Int} {n : Nat} {r : ρ} {rest : List ρ}
    (hrs : ((rows.filter fun a => after < position a).take n).mapM read = some (r :: rest)) :
    ((r :: rest).map source.position).Pairwise (· < ·) ∧
      (∀ k ∈ (r :: rest).map source.position, after < k) ∧
      ∀ k ∈ (r :: rest).map source.position,
        k ≤ source.position ((r :: rest).getLast (List.cons_ne_nil r rest)) := by
  have hascending : ((r :: rest).map source.position).Pairwise (· < ·) := by
    rw [map_position_of_mapM hs.position_read hrs]
    exact List.pairwise_map.2 ((hs.ascending.filter _).sublist (List.take_sublist _ _))
  refine ⟨hascending, fun k hk => ?_, fun k hk => ?_⟩
  · rw [map_position_of_mapM hs.position_read hrs] at hk
    obtain ⟨a, ha, rfl⟩ := List.mem_map.1 hk
    simpa using (List.mem_filter.1 (List.mem_of_mem_take ha)).2
  · have hlast := (hascending.imp Int.le_of_lt).rel_getLast hk
    rwa [List.getLast_map] at hlast

/-- A row behind a position is in the batch from there, unless the batch is full and the row is
behind all of it. -/
theorem mem_take_of_reached {rows : List κ} {position : κ → Int}
    (h : rows.Pairwise fun a b => position a < position b) {after : Int} {n : Nat} {a : κ}
    (ha : a ∈ rows) (hafter : after < position a)
    (hreached : (∃ b ∈ (rows.filter fun a => after < position a).take n,
      position a ≤ position b) ∨ ((rows.filter fun a => after < position a).take n).length < n) :
    a ∈ (rows.filter fun a => after < position a).take n := by
  let later := rows.filter fun a => after < position a
  have hmem : a ∈ later := List.mem_filter.2 ⟨ha, by simpa using hafter⟩
  have hlater : later.Pairwise fun a b => position a < position b := h.filter _
  rw [← List.take_append_drop n later] at hmem hlater
  obtain htaken | hdropped := List.mem_append.1 hmem
  · exact htaken
  · exfalso
    obtain ⟨b, hb, hle⟩ | hshort := hreached
    · have hlt := (List.pairwise_append.1 hlater).2.2 b hb a hdropped
      exact absurd hle (Int.not_le.2 hlt)
    · have hdrop : later.drop n = [] := by
        have hlen : (later.take n).length < n := hshort
        rw [List.length_take] at hlen
        exact List.drop_eq_nil_of_le (by omega)
      rw [hdrop] at hdropped
      cases hdropped

namespace Cursor

def replies (t : Tables) (c : Cursor ρ) : List Occurrence → List (Option (Except Error ρ))
  | [] => []
  | .next :: rest => (c.next (.migrated t)).1 :: replies t (c.next (.migrated t)).2 rest
  | .write f :: rest => replies (f t) c rest

def handedOut (answers : List (Option (Except Error ρ))) : List ρ :=
  answers.filterMap fun o => o.bind Except.toOption

/-- What a cursor over rows in the order of their positions does while the tables are written, where
all rows can be read at all times. -/
structure Iterates (source : Source ρ) (rows : Tables → List κ) (position : κ → Int)
    (read : κ → Option ρ) (batchSize : Nat) (t : Tables) (os : List Occurrence) : Prop where
  /-- No row fails to be read. -/
  readable : ∀ o ∈ replies t (start source batchSize) os, ∀ r, o = some r → ∃ x, r = .ok x
  /-- Nothing is handed out but rows that were there, and none comes before an earlier one. -/
  stored : ∀ x ∈ handedOut (replies t (start source batchSize) os),
    ∃ u ∈ t.through os, ∃ a ∈ rows u, 0 < position a ∧ read a = some x
  ascending : ((handedOut (replies t (start source batchSize) os)).map source.position).Pairwise
    (· < ·)
  /-- A cursor that is through stays so. -/
  ended : (replies t (start source batchSize) os).Pairwise fun o o' => o = none → o' = none
  /-- A position that is occupied all the time has been handed out once when the cursor is through.
  -/
  complete : none ∈ replies t (start source batchSize) os → ∀ k, 0 < k →
    (∀ u ∈ t.through os, ∃ a ∈ rows u, position a = k) →
    ((handedOut (replies t (start source batchSize) os)).map source.position).count k = 1
  /-- Rows that are left alone are handed out one by one, and then there is nothing more. -/
  undisturbed : (∀ u ∈ t.through os, rows u = rows t) →
    ∀ (i : Nat) o, (replies t (start source batchSize) os)[i]? = some o →
      o = (((rows t).filter fun a => 0 < position a).filterMap read)[i]?.map Except.ok
  /-- A size beyond the signed 64-bit words is no limit. -/
  unlimited : Word.signedLimit ≤ batchSize → ∀ u ∈ t.through os,
    (∀ a ∈ rows u, position a < Word.signedLimit) → ∀ after, 0 ≤ after →
    source.batch (.migrated u) after batchSize =
      readOrFail (((rows u).filter fun a => after < position a).mapM read)

/-- How far a cursor has come: what it has handed out or has in its buffer ascends up to where its
next batch begins, and has every position up to there that is occupied all the time. -/
structure Covers (c : Cursor ρ) (source : Source ρ) (occupied : Int → Prop) (stored : ρ → Prop)
    (handed : List Int) : Prop where
  source_eq : c.source = source
  batchSize_pos : 0 < c.batchSize
  after_nonneg : 0 ≤ c.after
  ascending : (handed ++ c.buffer.map source.position).Pairwise (· < ·)
  bounded : ∀ k ∈ handed ++ c.buffer.map source.position, k ≤ c.after
  stored : ∀ r ∈ c.buffer, stored r
  covered : ∀ k, 0 < k → occupied k → k ≤ c.after ∨ c.exhausted = true →
    k ∈ handed ++ c.buffer.map source.position

theorem covers_start (source : Source ρ) (batchSize : Nat) (occupied : Int → Prop)
    (stored : ρ → Prop) : (start source batchSize).Covers source occupied stored [] where
  source_eq := rfl
  batchSize_pos := Nat.lt_of_lt_of_le Nat.zero_lt_one (Nat.le_max_left 1 batchSize)
  after_nonneg := Int.le_refl 0
  ascending := List.Pairwise.nil
  bounded := fun _ hk => nomatch hk
  stored := fun _ hr => nomatch hr
  covered := by
    rintro k hpos - (hle | hexhausted)
    · exact absurd hpos (Int.not_lt.2 hle)
    · cases hexhausted

theorem next_of_exhausted {c : Cursor ρ} (hbuffer : c.buffer = []) (h : c.exhausted = true)
    (db : Database) : c.next db = (none, c) := by
  rw [next, hbuffer]
  exact if_pos h

theorem exhausted_of_next {db : Database} {c c' : Cursor ρ} (h : c.next db = (none, c')) :
    c'.buffer = [] ∧ c'.exhausted = true := by
  rw [next] at h
  split at h
  · cases h
  · rename_i hbuffer
    split at h
    · rename_i hexhausted
      cases h
      exact ⟨hbuffer, hexhausted⟩
    · split at h
      · cases h
      · cases h
        exact ⟨hbuffer, rfl⟩
      · cases h

section Step

variable {source : Source ρ} {db : Database} {rows : List κ} {position : κ → Int}
  {read : κ → Option ρ} {occupied : Int → Prop} {stored : ρ → Prop} {c : Cursor ρ}
  {handed : List Int}

theorem Covers.next_of_buffer {r : ρ} {rest : List ρ} (hc : c.Covers source occupied stored handed)
    (hbuffer : c.buffer = r :: rest) :
    ∃ c', c.next db = (some (.ok r), c') ∧ stored r ∧
      c'.Covers source occupied stored (handed ++ [source.position r]) := by
  have hsplit : handed ++ c.buffer.map source.position =
      handed ++ [source.position r] ++ rest.map source.position := by
    rw [hbuffer, List.map_cons, List.append_assoc]
    rfl
  refine ⟨{ c with buffer := rest }, by rw [next, hbuffer],
    hc.stored r (hbuffer ▸ List.mem_cons_self), hc.source_eq, hc.batchSize_pos, hc.after_nonneg,
    hsplit ▸ hc.ascending, hsplit ▸ hc.bounded, fun x hx => ?_, hsplit ▸ hc.covered⟩
  exact hc.stored x (hbuffer ▸ List.mem_cons_of_mem _ hx)

theorem Covers.refill (hc : c.Covers source occupied stored handed)
    (hs : source.Reads db rows position read) (hbuffer : c.buffer = [])
    (hoccupied : ∀ k, occupied k → ∃ a ∈ rows, position a = k) {r : ρ} {rest : List ρ}
    (hrs : ((rows.filter fun a => c.after < position a).take c.batchSize).mapM read =
      some (r :: rest)) (hstored : ∀ x ∈ r :: rest, stored x) :
    Covers { c with
      after := source.position ((r :: rest).getLast (List.cons_ne_nil r rest))
      buffer := rest
      exhausted := (r :: rest).length < c.batchSize } source occupied stored
        (handed ++ [source.position r]) := by
  let last := source.position ((r :: rest).getLast (List.cons_ne_nil r rest))
  have hlast : last ∈ (r :: rest).map source.position := List.mem_map_of_mem (List.getLast_mem _)
  obtain ⟨hbatch, hafter, hle⟩ := hs.positions_of_batch hrs
  have hnext : c.after < last := hafter last hlast
  have hold : handed ++ c.buffer.map source.position = handed := by
    rw [hbuffer, List.map_nil, List.append_nil]
  have hsplit : handed ++ [source.position r] ++ rest.map source.position =
      handed ++ (r :: rest).map source.position := by
    rw [List.append_assoc]
    rfl
  have hascending := hc.ascending
  have hbounded := hc.bounded
  have hcovered := hc.covered
  rw [hold] at hascending hbounded hcovered
  refine ⟨hc.source_eq, hc.batchSize_pos, ?_, ?_, ?_, fun x hx => ?_, ?_⟩
  · exact Int.le_trans hc.after_nonneg (Int.le_of_lt hnext)
  · rw [hsplit]
    refine List.pairwise_append.2 ⟨hascending, hbatch, fun j hj k hk => ?_⟩
    exact Int.lt_of_le_of_lt (hbounded j hj) (hafter k hk)
  · rw [hsplit]
    intro k hk
    obtain hk | hk := List.mem_append.1 hk
    · exact Int.le_trans (hbounded k hk) (Int.le_of_lt hnext)
    · exact hle k hk
  · exact hstored x (List.mem_cons_of_mem _ hx)
  · rw [hsplit]
    intro k hpos hk hreached
    obtain ⟨a, ha, rfl⟩ := hoccupied k hk
    by_cases hbefore : position a ≤ c.after
    · exact List.mem_append_left _ (hcovered _ hpos hk (.inl hbefore))
    · refine List.mem_append_right _ ?_
      rw [map_position_of_mapM hs.position_read hrs] at hlast ⊢
      refine List.mem_map_of_mem ?_
      apply mem_take_of_reached hs.ascending ha (Int.not_le.1 hbefore)
      refine hreached.imp (fun hle => ?_) fun hshort => ?_
      · obtain ⟨b, hb, hlast⟩ := List.mem_map.1 hlast
        exact ⟨b, hb, hlast ▸ hle⟩
      · rw [← length_of_mapM hrs]
        exact of_decide_eq_true hshort

variable (hs : source.Reads db rows position read) (hread : ∀ a ∈ rows, (read a).isSome = true)
  (hoccupied : ∀ k, occupied k → ∃ a ∈ rows, position a = k)
  (hstored : ∀ a ∈ rows, 0 < position a → ∀ r, read a = some r → stored r)

include hs hread hoccupied hstored

/-- A cursor that has come as far as its batches hands out the next row, or it is through. -/
theorem Covers.next (hc : c.Covers source occupied stored handed) :
    (∃ r c', c.next db = (some (.ok r), c') ∧ stored r ∧
      c'.Covers source occupied stored (handed ++ [source.position r])) ∨
    (∃ c', c.next db = (none, c') ∧ c'.buffer = [] ∧ c'.exhausted = true ∧
      ∀ k, 0 < k → occupied k → k ∈ handed) := by
  cases hbuffer : c.buffer with
  | cons r rest => exact .inl ⟨r, hc.next_of_buffer hbuffer⟩
  | nil =>
    have hcovered := hc.covered
    rw [hbuffer, List.map_nil, List.append_nil] at hcovered
    cases hexhausted : c.exhausted with
    | true =>
      refine .inr ⟨c, next_of_exhausted hbuffer hexhausted db, hbuffer, hexhausted, ?_⟩
      exact fun k hpos hk => hcovered k hpos hk (.inr hexhausted)
    | false =>
      have hreadable : ∀ a ∈ (rows.filter fun a => c.after < position a).take c.batchSize,
          (read a).isSome = true := fun a ha =>
        hread a (List.mem_filter.1 (List.mem_of_mem_take ha)).1
      obtain ⟨rs, hrs⟩ := exists_mapM_eq_some hreadable
      have hbatch : c.source.batch db c.after c.batchSize = .ok rs := by
        rw [hc.source_eq, hs.batch, hrs]
        rfl
      cases rs with
      | nil =>
        refine .inr ⟨_, by simp only [Cursor.next, hbuffer, hexhausted, hbatch]; rfl, rfl, rfl,
          fun k hpos hk => ?_⟩
        obtain ⟨a, ha, rfl⟩ := hoccupied k hk
        by_cases hbefore : position a ≤ c.after
        · exact hcovered _ hpos hk (.inl hbefore)
        · have hempty := length_of_mapM hrs
          have hmem := mem_take_of_reached hs.ascending ha (Int.not_le.1 hbefore)
            (n := c.batchSize) (.inr (by rw [← hempty]; exact hc.batchSize_pos))
          rw [List.eq_nil_of_length_eq_zero hempty.symm] at hmem
          cases hmem
      | cons r rest =>
        have hfrom : ∀ x ∈ r :: rest, stored x := by
          intro x hx
          obtain ⟨a, ha, hax⟩ := exists_of_mapM_eq_some hrs hx
          obtain ⟨hrow, hlater⟩ := List.mem_filter.1 (List.mem_of_mem_take ha)
          have hafter : c.after < position a := by simpa using hlater
          exact hstored a hrow (Int.lt_of_le_of_lt hc.after_nonneg hafter) x hax
        refine .inl ⟨r, _, by simp only [Cursor.next, hbuffer, hexhausted, hbatch]; rfl,
          hfrom r List.mem_cons_self, ?_⟩
        have hrefill := hc.refill hs hbuffer hoccupied hrs hfrom
        rwa [← hc.source_eq] at hrefill ⊢

end Step

theorem replies_of_exhausted {c : Cursor ρ} (hbuffer : c.buffer = []) (h : c.exhausted = true)
    (t : Tables) (os : List Occurrence) : ∀ o ∈ replies t c os, o = none := by
  induction os generalizing t with
  | nil => exact fun _ ho => nomatch ho
  | cons o os ih =>
    cases o with
    | next =>
      rw [replies, next_of_exhausted hbuffer h]
      exact List.forall_mem_cons.2 ⟨rfl, ih t⟩
    | write f => exact ih (f t)

theorem handedOut_none {answers : List (Option (Except Error ρ))} (h : ∀ o ∈ answers, o = none) :
    handedOut answers = [] := by
  rw [handedOut, List.filterMap_eq_nil_iff]
  intro o ho
  rw [h o ho]
  rfl

section Run

variable {source : Source ρ} {rows : Tables → List κ} {position : κ → Int} {read : κ → Option ρ}
  (hs : ∀ t, source.Reads (.migrated t) (rows t) position read)

include hs

theorem Covers.replies (occupied : Int → Prop) (stored : ρ → Prop) {os : List Occurrence}
    {t : Tables} {c : Cursor ρ} {handed : List Int}
    (hread : ∀ u ∈ t.through os, ∀ a ∈ rows u, (read a).isSome = true)
    (hoccupied : ∀ u ∈ t.through os, ∀ k, occupied k → ∃ a ∈ rows u, position a = k)
    (hstored : ∀ u ∈ t.through os, ∀ a ∈ rows u, 0 < position a → ∀ r, read a = some r → stored r)
    (hc : c.Covers source occupied stored handed) :
    (∀ o ∈ Cursor.replies t c os, ∀ r, o = some r → ∃ x, r = .ok x) ∧
    (∀ x ∈ handedOut (Cursor.replies t c os), stored x) ∧
    (handed ++ (handedOut (Cursor.replies t c os)).map source.position).Pairwise (· < ·) ∧
    ((Cursor.replies t c os).Pairwise fun o o' => o = none → o' = none) ∧
    (none ∈ Cursor.replies t c os → ∀ k, 0 < k → occupied k →
      k ∈ handed ++ (handedOut (Cursor.replies t c os)).map source.position) := by
  induction os generalizing t c handed with
  | nil =>
    have hascending := (List.pairwise_append.1 hc.ascending).1
    refine ⟨fun _ ho => (nomatch ho), fun _ hx => (nomatch hx), ?_, List.Pairwise.nil,
      fun hnone => (nomatch hnone)⟩
    simpa [Cursor.replies, handedOut] using hascending
  | cons o os ih =>
    cases o with
    | write f =>
      have hbehind : ∀ u ∈ (f t).through os, u ∈ t.through (.write f :: os) := fun u hu =>
        List.mem_cons_of_mem t hu
      exact ih (fun u hu => hread u (hbehind u hu)) (fun u hu => hoccupied u (hbehind u hu))
        (fun u hu => hstored u (hbehind u hu)) hc
    | next =>
      have hnow : t ∈ t.through (.next :: os) := t.mem_through _
      rw [Cursor.replies]
      obtain ⟨r, c', hnext, hr, hc'⟩ | ⟨c', hnext, hbuffer, hexhausted, hall⟩ :=
        hc.next (hs t) (hread t hnow) (hoccupied t hnow) (hstored t hnow)
      · obtain ⟨hreadable, hfrom, hascending, hended, hcomplete⟩ := ih hread hoccupied hstored hc'
        have hout : handedOut (some (.ok r) :: Cursor.replies t c' os) =
            r :: handedOut (Cursor.replies t c' os) := rfl
        rw [hnext, hout, List.map_cons]
        rw [List.append_assoc, List.singleton_append] at hascending hcomplete
        refine ⟨List.forall_mem_cons.2 ⟨fun x hx => ⟨r, (Option.some.inj hx).symm⟩, hreadable⟩,
          List.forall_mem_cons.2 ⟨hr, hfrom⟩, hascending,
          List.pairwise_cons.2 ⟨fun _ _ hnone => (nomatch hnone), hended⟩, fun hnone => ?_⟩
        obtain hnone | hnone := List.mem_cons.1 hnone
        · cases hnone
        · exact hcomplete hnone
      · have hrest := replies_of_exhausted hbuffer hexhausted t os
        have hnones : ∀ o ∈ none :: Cursor.replies t c' os, o = none :=
          List.forall_mem_cons.2 ⟨rfl, hrest⟩
        rw [hnext, handedOut_none hnones, List.map_nil, List.append_nil]
        refine ⟨fun o ho r hr => ?_, fun _ hx => (nomatch hx),
          (List.pairwise_append.1 hc.ascending).1,
          List.pairwise_cons.2 ⟨fun o ho _ => hrest o ho, ?_⟩, fun _ => hall⟩
        · rw [hnones o ho] at hr
          cases hr
        · exact List.pairwise_of_forall_mem_list fun _ _ o' ho' _ => hrest o' ho'

/-- A cursor over rows that stay as they are hands out one after another of those to come. -/
theorem Awaits.replies {standing pending : List κ} {os : List Occurrence} {t : Tables}
    {c : Cursor ρ} (hsame : ∀ u ∈ t.through os, rows u = standing)
    (hread : ∀ a ∈ pending, (read a).isSome = true)
    (hc : c.Awaits source standing position read pending) (i : Nat)
    (o : Option (Except Error ρ)) (ho : (Cursor.replies t c os)[i]? = some o) :
    o = (pending.filterMap read)[i]?.map Except.ok := by
  induction os generalizing t c pending i with
  | nil => cases ho
  | cons occurrence os ih =>
    cases occurrence with
    | write f => exact ih (fun u hu => hsame u (List.mem_cons_of_mem t hu)) hread hc i ho
    | next =>
      have hreads := hs t
      rw [hsame t (t.mem_through _)] at hreads
      rw [Cursor.replies] at ho
      cases pending with
      | nil =>
        obtain ⟨c', hnext⟩ := next_of_pending_nil hreads hc
        obtain ⟨hbuffer, hexhausted⟩ := exhausted_of_next hnext
        rw [hnext] at ho
        have hnones : ∀ o ∈ none :: Cursor.replies t c' os, o = none :=
          List.forall_mem_cons.2 ⟨rfl, replies_of_exhausted hbuffer hexhausted t os⟩
        exact hnones o (List.mem_of_getElem? ho)
      | cons a pending =>
        obtain ⟨hfirst, hrest⟩ := List.forall_mem_cons.1 hread
        obtain ⟨rs, hrs⟩ := exists_mapM_eq_some hread
        obtain ⟨r, c', hr, hnext, hc'⟩ | ⟨hnone, -⟩ := next_of_pending_cons hreads hc
        · rw [hnext] at ho
          rw [List.filterMap_cons_some hr]
          cases i with
          | zero => exact (Option.some.inj ho).symm
          | succ i => exact ih hsame hrest hc' i ho
        · rw [hnone] at hrs
          cases hrs

theorem iterates {t : Tables} {os : List Occurrence}
    (hread : ∀ u ∈ t.through os, ∀ a ∈ rows u, (read a).isSome = true) (batchSize : Nat) :
    Iterates source rows position read batchSize t os := by
  obtain ⟨hreadable, hstored, hascending, hended, hcomplete⟩ := Covers.replies hs
    (fun k => ∀ u ∈ t.through os, ∃ a ∈ rows u, position a = k)
    (fun x => ∃ u ∈ t.through os, ∃ a ∈ rows u, 0 < position a ∧ read a = some x)
    hread (fun u hu k hk => hk u hu) (fun u hu a ha hpos r hr => ⟨u, hu, a, ha, hpos, hr⟩)
    (covers_start source batchSize _ _)
  rw [List.nil_append] at hascending hcomplete
  refine ⟨hreadable, hstored, hascending, hended, fun hnone k hpos hk => ?_, fun hsame i o => ?_,
    fun hlimit u _ hword after hafter => (hs u).batch_unlimited hword hafter hlimit⟩
  · have hnodup : List.Nodup _ := hascending.imp fun hlt => Int.ne_of_lt hlt
    exact List.count_eq_one_of_mem hnodup (hcomplete hnone k hpos hk)
  · refine Awaits.replies hs hsame (fun a ha => ?_)
      (awaits_start source batchSize (rows t) position read) i o
    exact hread t (t.mem_through os) a (List.mem_filter.1 ha).1

end Run

end Cursor

/-- Cursors miss no row and repeat none while the database is written: neither those over the staged
records of a table and a scope, where the writes leave records that can be read, nor those over the
tool rows of a scope. -/
theorem cursors_iterate (table : String) (scope : RunScope) (batchSize : Nat) (t : Tables)
    (os : List Occurrence) :
    ((∀ u ∈ t.through os, ∀ r ∈ u.staging.rowsOf table scope.tag, r.record?.isSome = true) →
      Cursor.Iterates (stagedSource table scope) (fun u => u.staging.rowsOf table scope.tag)
        (fun r => (r.id : Int)) StagedRow.record? batchSize t os) ∧
    ∀ (ρ : Type) [Streamed ρ] [LawfulStreamed ρ],
      Cursor.Iterates (toolSource ρ scope) (fun u => u.tool.rowsOf ρ scope)
        (fun r => (Streamed.key r).id) (fun r => some (Streamed.reread r)) batchSize t os := by
  refine ⟨fun hread => ?_, fun ρ _ _ => ?_⟩
  · exact Cursor.iterates (stagedSource_reads table scope) hread batchSize
  · exact Cursor.iterates (toolSource_reads ρ scope) (fun _ _ _ _ => rfl) batchSize

def Tables.withTexts (t : Tables) (table : String) (texts : List String) : Tables :=
  { t with staging := t.staging.insertPage table (RunScope.tag ⟨1, 7⟩) "" none (texts.map .str) }

def twoCases : Tables :=
  (Tables.empty.withTexts "testrail_cases" ["a", "b"]).withTexts "testrail_runs" ["r"]

/-- A page is staged, the records of another table go, and a suite comes, while rows are read. -/
def writtenMeanwhile : List Occurrence :=
  [.next, .write fun t => t.withTexts "testrail_cases" ["c", "d"], .next, .next,
    .write fun t => { t with staging := t.staging.delete "testrail_runs" (RunScope.tag ⟨1, 7⟩) },
    .next, .write fun t =>
      { t with tool := t.tool.insert (.suite { connectionId := 1, id := 9, projectId := 7 }) },
    .next, .next]

/-- Cursors read two rows at a time while there are writes. -/
theorem cursors_iterate_written :
    Cursor.Iterates (stagedSource "testrail_cases" ⟨1, 7⟩)
      (fun u => u.staging.rowsOf "testrail_cases" (RunScope.tag ⟨1, 7⟩)) (fun r => (r.id : Int))
      StagedRow.record? 2 twoCases writtenMeanwhile ∧
    Cursor.Iterates (toolSource Tool.Suite ⟨1, 7⟩) (fun u => u.tool.rowsOf Tool.Suite ⟨1, 7⟩)
      (fun r => (Streamed.key r).id) (fun r => some (Streamed.reread r)) 2 twoCases
      writtenMeanwhile := by
  have hiterate := cursors_iterate "testrail_cases" ⟨1, 7⟩ 2 twoCases writtenMeanwhile
  exact ⟨hiterate.1 (by decide +kernel), hiterate.2 Tool.Suite⟩

/-- The cases of the beginning and those that came are read once each. -/
example :
    (Cursor.handedOut (Cursor.replies twoCases
      (Cursor.start (stagedSource "testrail_cases" ⟨1, 7⟩) 2) writtenMeanwhile)).map
        StagedRecord.data = ["\"a\"", "\"b\"", "\"c\"", "\"d\""] := by
  decide +kernel

end QaLake.Store
