import QaLake.Proofs.Keyed.Overwriting

namespace QaLake

variable {α β κ ι : Type} [DecidableEq κ] [DecidableEq ι] {key : α → κ} {rows : List α}

def lastPer (key : α → κ) : List α → List α
  | [] => []
  | r :: rest => if key r ∈ rest.map key then lastPer key rest else r :: lastPer key rest

theorem mem_lastPer (r : α) : r ∈ lastPer key rows ↔ lastUnder key rows (key r) = some r := by
  induction rows with
  | nil => simp [lastPer, lastUnder]
  | cons first rest ih =>
    rw [lastUnder_cons]
    by_cases hagain : key first ∈ rest.map key
    · rw [lastPer, if_pos hagain, ih]
      by_cases hkey : key first = key r
      · have hsome : (lastUnder key rest (key r)).isSome = true :=
          isSome_lastUnder.2 (hkey ▸ hagain)
        obtain ⟨found, hfound⟩ := Option.isSome_iff_exists.1 hsome
        rw [hfound, Option.some_or]
      · rw [if_neg hkey, Option.or_none]
    · rw [lastPer, if_neg hagain, List.mem_cons, ih]
      by_cases hkey : key first = key r
      · have hnone : lastUnder key rest (key r) = none :=
          lastUnder_eq_none fun d hd he => hagain (hkey ▸ he ▸ List.mem_map_of_mem hd)
        rw [hnone, Option.none_or, if_pos hkey, Option.some.injEq, eq_comm]
        simp
      · have hne : r ≠ first := fun he => hkey (congrArg key he.symm)
        rw [if_neg hkey, Option.or_none]
        simp [hne]

theorem mem_of_mem_lastPer {r : α} (h : r ∈ lastPer key rows) : r ∈ rows :=
  (mem_of_lastUnder ((mem_lastPer r).1 h)).1

theorem pairwise_lastPer (key : α → κ) (rows : List α) :
    (lastPer key rows).Pairwise fun a b => key a ≠ key b := by
  induction rows with
  | nil => exact List.Pairwise.nil
  | cons first rest ih =>
    by_cases hagain : key first ∈ rest.map key
    · rw [lastPer, if_pos hagain]
      exact ih
    · rw [lastPer, if_neg hagain]
      refine List.pairwise_cons.2 ⟨fun r hr he => hagain ?_, ih⟩
      exact he ▸ List.mem_map_of_mem (mem_of_mem_lastPer hr)

theorem lastPer_eq_self (h : rows.Pairwise fun a b => key a ≠ key b) : lastPer key rows = rows := by
  induction rows with
  | nil => rfl
  | cons first rest ih =>
    obtain ⟨hfirst, hrest⟩ := List.pairwise_cons.1 h
    have hnew : key first ∉ rest.map key := by
      intro hagain
      obtain ⟨r, hr, he⟩ := List.mem_map.1 hagain
      exact hfirst r hr he.symm
    rw [lastPer, if_neg hnew, ih hrest]

theorem lastPer_congr {key' : α → ι} (h : ∀ a ∈ rows, ∀ b ∈ rows, key a = key b ↔ key' a = key' b) :
    lastPer key rows = lastPer key' rows := by
  induction rows with
  | nil => rfl
  | cons first rest ih =>
    have hagain : key first ∈ rest.map key ↔ key' first ∈ rest.map key' := by
      rw [List.mem_map, List.mem_map]
      constructor
      · rintro ⟨r, hr, he⟩
        exact ⟨r, hr, (h r (List.mem_cons_of_mem _ hr) first List.mem_cons_self).1 he⟩
      · rintro ⟨r, hr, he⟩
        exact ⟨r, hr, (h r (List.mem_cons_of_mem _ hr) first List.mem_cons_self).2 he⟩
    have hrest := ih fun a ha b hb =>
      h a (List.mem_cons_of_mem _ ha) b (List.mem_cons_of_mem _ hb)
    simp only [lastPer, hrest, hagain]

theorem lastUnder_map {key' : β → ι} {wrap : α → β} {k : κ} {k' : ι}
    (h : ∀ r ∈ rows, key' (wrap r) = k' ↔ key r = k) :
    lastUnder key' (rows.map wrap) k' = (lastUnder key rows k).map wrap := by
  have hfilter : (rows.map wrap).filter (fun r => key' r = k') =
      (rows.filter fun r => key r = k).map wrap := by
    rw [List.filter_map]
    exact congrArg (List.map wrap) (List.filter_congr fun r hr => by simp [h r hr])
  rw [lastUnder, hfilter, List.getLast?_map]
  rfl

omit [DecidableEq κ] in
theorem RowTable.nodup_rows [KeyOrder κ] [Store.Upserted key] (t : RowTable key) :
    t.rows.Nodup := by
  refine t.rows_ascending.imp fun hbefore he => ?_
  rw [he, KeyOrder.irrefl] at hbefore
  cases hbefore

/-- A table in which the last of some rows is found under each key holds these rows. -/
theorem RowTable.perm_lastPer [KeyOrder κ] [Store.Upserted key] {t : RowTable key}
    (h : ∀ k, t.get? k = lastUnder key rows k) : t.rows.Perm (lastPer key rows) := by
  have hnodup : (lastPer key rows).Nodup :=
    (pairwise_lastPer key rows).imp fun hne he => hne (congrArg key he)
  refine (List.perm_ext_iff_of_nodup t.nodup_rows hnodup).2 fun r => ?_
  rw [t.mem_rows_iff, h, mem_lastPer]

end QaLake
