import Mathlib.Data.List.Dedup
import QaLake.Proofs.Keyed.LastPer
import QaLake.Proofs.Store.Rows
import QaLake.Store.Database

namespace QaLake

section Distinct

variable {α κ ι : Type} [DecidableEq κ] [DecidableEq ι] {key : α → κ} {rows : List α}

theorem map_lastPer (key : α → κ) (rows : List α) :
    (lastPer key rows).map key = (rows.map key).dedup := by
  induction rows with
  | nil => rfl
  | cons r rest ih =>
    rw [lastPer, List.map_cons]
    by_cases hagain : key r ∈ rest.map key
    · rw [if_pos hagain, List.dedup_cons_of_mem hagain, ih]
    · rw [if_neg hagain, List.dedup_cons_of_notMem hagain, List.map_cons, ih]

/-- Where the last row of each key is kept, the rows of one sort are as many as there are different
ids among those of that sort, if ids tell keys apart there. -/
theorem length_of_last (key : α → κ) {l : List α} {p : α → Bool} {id : α → ι} (hl : l.Nodup)
    (hmem : ∀ r, r ∈ l ↔ p r = true ∧ lastUnder key rows (key r) = some r)
    (hsort : ∀ a b, key a = key b → p a = p b)
    (hid : ∀ a b, p a = true → p b = true → (key a = key b ↔ id a = id b)) :
    l.length = ((rows.filter p).map id).dedup.length := by
  have hlast : ∀ r, p r = true →
      lastUnder key (rows.filter p) (key r) = lastUnder key rows (key r) := by
    intro r hr
    refine lastUnder_filter fun d hd => ?_
    rw [hsort d r hd, hr]
  have hperm : l.Perm (lastPer key (rows.filter p)) := by
    have hnodup : (lastPer key (rows.filter p)).Nodup :=
      (pairwise_lastPer key _).imp fun hne he => hne (congrArg key he)
    refine (List.perm_ext_iff_of_nodup hl hnodup).2 fun r => ?_
    rw [hmem, mem_lastPer]
    constructor
    · rintro ⟨hr, hlastr⟩
      rw [hlast r hr, hlastr]
    · intro hlastr
      have hr : p r = true := (List.mem_filter.1 (mem_of_lastUnder hlastr).1).2
      exact ⟨hr, (hlast r hr).symm.trans hlastr⟩
  have hids : lastPer key (rows.filter p) = lastPer id (rows.filter p) :=
    lastPer_congr fun a ha b hb => hid a b (List.mem_filter.1 ha).2 (List.mem_filter.1 hb).2
  rw [hperm.length_eq, hids, ← map_lastPer, List.length_map]

end Distinct

namespace Database

variable {ρ : Type}

theorem foldlM_write (f : ρ → Store.Tables → Store.Tables) (rows : List ρ) (t : Store.Tables) :
    rows.foldlM (fun db r => db.write (f r)) (migrated t) =
      .ok (migrated (rows.foldl (fun t r => f r t) t)) := by
  induction rows generalizing t with
  | nil => rfl
  | cons r rest ih => exact ih (f r t)

end Database

end QaLake
