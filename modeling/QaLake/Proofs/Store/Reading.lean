import QaLake.Store.Cursor

namespace QaLake.Store

variable {ρ κ : Type}

def readOrFail {α : Type} (o : Option α) : Except Error α :=
  o.elim (.error .database) .ok

/-- The rows behind a source in the order of their positions, and what each of them is read as. -/
structure Source.Reads (source : Source ρ) (db : Database) (rows : List κ) (position : κ → Int)
    (read : κ → Option ρ) : Prop where
  ascending : rows.Pairwise fun a b => position a < position b
  position_read : ∀ a r, read a = some r → source.position r = position a
  batch : ∀ after limit, source.batch db after limit =
    readOrFail (((rows.filter fun a => after < position a).take limit).mapM read)
  length_le : rows.length ≤ source.bound db

/-- The rows that a cursor has still to hand out: those in its buffer and those behind it. -/
structure Cursor.Awaits (c : Cursor ρ) (source : Source ρ) (rows : List κ) (position : κ → Int)
    (read : κ → Option ρ) (pending : List κ) : Prop where
  source_eq : c.source = source
  batchSize_pos : 0 < c.batchSize
  pending_eq : ∃ buffered, buffered.mapM read = some c.buffer ∧
    pending = buffered ++ rows.filter fun a => c.after < position a
  exhausted : c.exhausted = true → (rows.filter fun a => c.after < position a) = []

theorem mapM_eq_some_cons {read : κ → Option ρ} {a : κ} {as : List κ} {rs : List ρ}
    (h : (a :: as).mapM read = some rs) :
    ∃ r rest, read a = some r ∧ as.mapM read = some rest ∧ rs = r :: rest := by
  rw [List.mapM_cons] at h
  cases hr : read a with
  | none => simp [hr] at h
  | some r =>
    cases hrest : as.mapM read with
    | none => simp [hr, hrest] at h
    | some rest =>
      simp only [hr, hrest, Option.bind_eq_bind, Option.bind_some, Option.pure_def,
        Option.some.injEq] at h
      exact ⟨r, rest, rfl, rfl, h.symm⟩

theorem exists_of_mapM_eq_some {read : κ → Option ρ} {as : List κ} {rs : List ρ}
    (h : as.mapM read = some rs) {r : ρ} (hr : r ∈ rs) : ∃ a ∈ as, read a = some r := by
  induction as generalizing rs with
  | nil =>
    cases h
    cases hr
  | cons a as ih =>
    obtain ⟨first, rest, hfirst, hrest, rfl⟩ := mapM_eq_some_cons h
    obtain rfl | hr := List.mem_cons.1 hr
    · exact ⟨a, List.mem_cons_self, hfirst⟩
    · obtain ⟨b, hb, hread⟩ := ih hrest hr
      exact ⟨b, List.mem_cons_of_mem _ hb, hread⟩

theorem filterMap_of_mapM {read : κ → Option ρ} {as : List κ} {rs : List ρ}
    (h : as.mapM read = some rs) : as.filterMap read = rs := by
  induction as generalizing rs with
  | nil =>
    cases h
    rfl
  | cons a as ih =>
    obtain ⟨r, rest, hr, hrest, rfl⟩ := mapM_eq_some_cons h
    rw [List.filterMap_cons_some hr, ih hrest]

theorem mapM_append_eq_none {read : κ → Option ρ} {as bs : List κ} (h : as.mapM read = none) :
    (as ++ bs).mapM read = none := by
  rw [List.mapM_append, h]
  rfl

theorem length_of_mapM {read : κ → Option ρ} {as : List κ} {rs : List ρ}
    (h : as.mapM read = some rs) : rs.length = as.length := by
  induction as generalizing rs with
  | nil =>
    cases h
    rfl
  | cons a as ih =>
    obtain ⟨r, rest, -, hrest, rfl⟩ := mapM_eq_some_cons h
    rw [List.length_cons, ih hrest, List.length_cons]

theorem isSome_mapM {α β : Type} (f : α → Option β) (l : List α) :
    (l.mapM f).isSome = l.all fun a => (f a).isSome := by
  induction l with
  | nil => rfl
  | cons a l ih =>
    rw [List.mapM_cons, List.all_cons, ← ih]
    cases f a with
    | none => rfl
    | some b => cases l.mapM f <;> rfl

theorem map_position_of_mapM {source : Source ρ} {position : κ → Int} {read : κ → Option ρ}
    (hread : ∀ a r, read a = some r → source.position r = position a) {as : List κ} {rs : List ρ}
    (h : as.mapM read = some rs) : rs.map source.position = as.map position := by
  induction as generalizing rs with
  | nil =>
    cases h
    rfl
  | cons a as ih =>
    obtain ⟨r, rest, hr, hrest, rfl⟩ := mapM_eq_some_cons h
    rw [List.map_cons, List.map_cons, hread a r hr, ih hrest]

theorem position_getLast {source : Source ρ} {position : κ → Int} {read : κ → Option ρ}
    (hread : ∀ a r, read a = some r → source.position r = position a) {as : List κ} {rs : List ρ}
    (h : as.mapM read = some rs) (has : as ≠ []) (hrs : rs ≠ []) :
    source.position (rs.getLast hrs) = position (as.getLast has) := by
  have hne : rs.map source.position ≠ [] := mt List.map_eq_nil_iff.1 hrs
  have hmap := map_position_of_mapM hread h
  calc source.position (rs.getLast hrs)
      = (rs.map source.position).getLast hne := (List.getLast_map hne).symm
    _ = (as.map position).getLast (hmap ▸ hne) := by simp only [hmap]
    _ = position (as.getLast has) := List.getLast_map _

theorem filter_behind_take {rows : List κ} {position : κ → Int}
    (h : rows.Pairwise fun a b => position a < position b) (after : Int) (n : Nat)
    (hne : (rows.filter fun a => after < position a).take n ≠ []) :
    (rows.filter fun a => position (((rows.filter fun a => after < position a).take n).getLast hne)
        < position a) =
      (rows.filter fun a => after < position a).drop n := by
  let later := rows.filter fun a => after < position a
  let last := (later.take n).getLast hne
  have hlater : later.Pairwise fun a b => position a < position b := h.filter _
  rw [← List.take_append_drop n later] at hlater
  obtain ⟨htake, -, hcross⟩ := List.pairwise_append.1 hlater
  have hlast : last ∈ later.take n := List.getLast_mem hne
  have hafter : after < position last := by
    have hm := (List.mem_filter.1 (List.mem_of_mem_take hlast)).2
    simpa using hm
  have hle : ∀ a ∈ later.take n, position a ≤ position last := by
    intro a ha
    have hsplit := List.dropLast_concat_getLast hne
    rw [← hsplit] at ha htake
    obtain ha | ha := List.mem_append.1 ha
    · have hlt := (List.pairwise_append.1 htake).2.2 a ha _ (List.mem_singleton_self _)
      exact Int.le_of_lt hlt
    · exact Int.le_of_eq (congrArg position (List.mem_singleton.1 ha))
  have hfilter : (rows.filter fun a => position last < position a) =
      later.filter fun a => position last < position a := by
    rw [List.filter_filter]
    refine List.filter_congr fun a _ => ?_
    by_cases ha : position last < position a
    · have : after < position a := by omega
      simp [ha, this]
    · simp [ha]
  have hgone : (later.take n).filter (fun a => position last < position a) = [] := by
    rw [List.filter_eq_nil_iff]
    intro a ha
    have := hle a ha
    simpa using this
  have hstay : (later.drop n).filter (fun a => position last < position a) = later.drop n := by
    rw [List.filter_eq_self]
    intro a ha
    simpa using hcross _ hlast a ha
  calc (rows.filter fun a => position last < position a)
      = (later.take n ++ later.drop n).filter fun a => position last < position a := by
        rw [List.take_append_drop]
        exact hfilter
    _ = later.drop n := by rw [List.filter_append, hgone, hstay, List.nil_append]

namespace Cursor

variable {source : Source ρ} {db : Database} {rows : List κ} {position : κ → Int}
  {read : κ → Option ρ} {c : Cursor ρ} {pending : List κ}

theorem awaits_start (source : Source ρ) (batchSize : Nat) (rows : List κ) (position : κ → Int)
    (read : κ → Option ρ) :
    (start source batchSize).Awaits source rows position read
      (rows.filter fun a => 0 < position a) where
  source_eq := rfl
  batchSize_pos := Nat.lt_of_lt_of_le Nat.zero_lt_one (Nat.le_max_left 1 batchSize)
  pending_eq := ⟨[], rfl, rfl⟩
  exhausted := by simp [start]

theorem next_of_pending_nil (hs : source.Reads db rows position read)
    (hc : c.Awaits source rows position read []) : ∃ c', c.next db = (none, c') := by
  obtain ⟨buffered, hbuffer, hpending⟩ := hc.pending_eq
  obtain ⟨rfl, hlater⟩ := List.append_eq_nil_iff.1 hpending.symm
  have hempty : c.buffer = [] := (Option.some.inj hbuffer).symm
  rw [next, hempty]
  cases he : c.exhausted with
  | true => exact ⟨c, rfl⟩
  | false =>
    have hbatch := hs.batch c.after c.batchSize
    rw [hlater, ← hc.source_eq] at hbatch
    refine ⟨{ c with exhausted := true }, ?_⟩
    simp [hbatch, readOrFail, hempty]

theorem next_of_pending_cons (hs : source.Reads db rows position read) {a : κ}
    (hc : c.Awaits source rows position read (a :: pending)) :
    (∃ r c', read a = some r ∧ c.next db = (some (.ok r), c') ∧
      c'.Awaits source rows position read pending) ∨
    ((a :: pending).mapM read = none ∧ ∃ c', c.next db = (some (.error .database), c')) := by
  obtain ⟨buffered, hbuffer, hpending⟩ := hc.pending_eq
  cases buffered with
  | cons b buffered =>
    obtain ⟨rfl, rfl⟩ := List.cons.inj hpending
    obtain ⟨r, rest, hr, hrest, hbuf⟩ := mapM_eq_some_cons hbuffer
    refine .inl ⟨r, { c with buffer := rest }, hr, by rw [next, hbuf], ?_⟩
    exact ⟨hc.source_eq, hc.batchSize_pos, ⟨buffered, hrest, rfl⟩, hc.exhausted⟩
  | nil =>
    have hempty : c.buffer = [] := (Option.some.inj hbuffer).symm
    rw [List.nil_append] at hpending
    have hgoes : c.exhausted = false := by
      cases he : c.exhausted with
      | false => rfl
      | true => exact absurd (hpending.trans (hc.exhausted he)) (List.cons_ne_nil _ _)
    obtain ⟨n, hn⟩ := Nat.exists_eq_add_of_lt hc.batchSize_pos
    rw [Nat.zero_add] at hn
    have htake : ((rows.filter fun a => c.after < position a).take c.batchSize) =
        a :: pending.take n := by
      rw [← hpending, hn, List.take_succ_cons]
    have hbatch := hs.batch c.after c.batchSize
    rw [htake, ← hc.source_eq] at hbatch
    cases hread : (a :: pending.take n).mapM read with
    | none =>
      refine .inr ⟨?_, { c with exhausted := true }, ?_⟩
      · have hall : (a :: (pending.take n ++ pending.drop n)).mapM read = none :=
          mapM_append_eq_none hread
        rwa [List.take_append_drop] at hall
      · simp [next, hempty, hgoes, hbatch, hread, readOrFail]
    | some rs =>
      obtain ⟨r, rest, hr, hrest, rfl⟩ := mapM_eq_some_cons hread
      have hne : (rows.filter fun a => c.after < position a).take c.batchSize ≠ [] := by
        rw [htake]
        exact List.cons_ne_nil _ _
      have hbehind := filter_behind_take hs.ascending c.after c.batchSize hne
      have hlast : c.source.position ((r :: rest).getLast (List.cons_ne_nil r rest)) =
          position (((rows.filter fun a => c.after < position a).take c.batchSize).getLast
            hne) := by
        rw [hc.source_eq]
        exact position_getLast hs.position_read (by rw [htake, hread]) hne _
      rw [← hlast, ← hpending, hn, List.drop_succ_cons] at hbehind
      refine .inl ⟨r, _, hr, by simp only [next, hempty, hgoes, hbatch, hread]; rfl, ?_⟩
      refine ⟨hc.source_eq, hc.batchSize_pos, ⟨pending.take n, hrest, ?_⟩, ?_⟩
      · rw [hbehind, List.take_append_drop]
      · intro hshort
        have hlen := length_of_mapM hrest
        simp only [List.length_cons, hlen, List.length_take, hn, decide_eq_true_eq] at hshort
        rw [hbehind, List.drop_eq_nil_iff]
        omega

theorem take_eq (hs : source.Reads db rows position read) (n : Nat)
    (hc : c.Awaits source rows position read pending) (hn : pending.length < n) :
    take db n c = readOrFail (pending.mapM read) := by
  induction n generalizing c pending with
  | zero => exact absurd hn (Nat.not_lt_zero _)
  | succ n ih =>
    rw [take]
    cases pending with
    | nil =>
      obtain ⟨c', h⟩ := next_of_pending_nil hs hc
      rw [h]
      rfl
    | cons a pending =>
      obtain ⟨r, c', hr, h, hc'⟩ | ⟨hnone, c', h⟩ := next_of_pending_cons hs hc
      · rw [h]
        simp only [ih hc' (Nat.lt_of_succ_lt_succ hn), List.mapM_cons, hr]
        cases pending.mapM read <;> rfl
      · rw [h, hnone]
        rfl

theorem toList_start (hs : source.Reads db rows position read) (batchSize : Nat) :
    (start source batchSize).toList db =
      readOrFail ((rows.filter fun a => 0 < position a).mapM read) := by
  refine take_eq hs _ (awaits_start source batchSize rows position read) ?_
  have hle := List.length_filter_le (fun a => decide (0 < position a)) rows
  have hbound := hs.length_le
  change _ < source.bound db + 1
  omega

end Cursor

end QaLake.Store
