import QaLake.Proofs.Keyed.Entries

namespace QaLake

/-- A store with rows of `ρ` under keys of `κ`: what is found under a key is the last row written
there, and a store is nothing but what is found in it. -/
structure Overwriting {S κ ρ : Type} [DecidableEq κ] (get : S → κ → Option ρ) (put : S → ρ → S)
    (key : ρ → κ) : Prop where
  get_put : ∀ s r k, get (put s r) k = if k = key r then some r else get s k
  ext : ∀ s t, (∀ k, get s k = get t k) → s = t

/-- The last of some rows that has a key. -/
def lastUnder {κ ρ : Type} [DecidableEq κ] (key : ρ → κ) (rows : List ρ) (k : κ) : Option ρ :=
  (rows.filter fun r => key r = k).getLast?

section LastUnder

variable {κ ρ : Type} [DecidableEq κ] {key : ρ → κ} {rows : List ρ} {k : κ} {r : ρ}

theorem lastUnder_cons (key : ρ → κ) (r : ρ) (rows : List ρ) (k : κ) :
    lastUnder key (r :: rows) k =
      (lastUnder key rows k).or (if key r = k then some r else none) := by
  by_cases h : key r = k
  · rw [lastUnder, List.filter_cons_of_pos (by simpa using h), List.getLast?_cons, if_pos h,
      lastUnder]
    cases (rows.filter fun r => key r = k).getLast? <;> rfl
  · rw [lastUnder, List.filter_cons_of_neg (by simpa using h), if_neg h]
    simp [lastUnder]

theorem mem_of_lastUnder (h : lastUnder key rows k = some r) : r ∈ rows ∧ key r = k := by
  have hm := List.mem_of_getLast? h
  simpa using hm

theorem lastUnder_eq_none (h : ∀ r ∈ rows, key r ≠ k) : lastUnder key rows k = none := by
  have hnil : (rows.filter fun r => key r = k) = [] := by
    simpa [List.filter_eq_nil_iff] using h
  rw [lastUnder, hnil]
  rfl

theorem lastUnder_eq_find? (h : rows.Pairwise fun a b => key a ≠ key b) (k : κ) :
    lastUnder key rows k = rows.find? fun r => key r = k := by
  induction rows with
  | nil => rfl
  | cons r rest ih =>
    obtain ⟨hfirst, hrest⟩ := List.pairwise_cons.1 h
    by_cases hr : key r = k
    · have hnone : lastUnder key rest k = none :=
        lastUnder_eq_none fun d hd he => hfirst d hd (hr.trans he.symm)
      simp [lastUnder_cons, hnone, hr]
    · simp [lastUnder_cons, ih hrest, hr]

theorem find?_of_mem (h : rows.Pairwise fun a b => key a ≠ key b) (hr : r ∈ rows) :
    (rows.find? fun d => key d = key r) = some r := by
  induction rows with
  | nil => cases hr
  | cons first rest ih =>
    obtain ⟨hfirst, hrest⟩ := List.pairwise_cons.1 h
    obtain rfl | hr := List.mem_cons.1 hr
    · simp
    · simp [hfirst r hr, ih hrest hr]

theorem lastUnder_eq_some_iff (h : rows.Pairwise fun a b => key a ≠ key b) :
    lastUnder key rows k = some r ↔ r ∈ rows ∧ key r = k := by
  constructor
  · exact mem_of_lastUnder
  · rintro ⟨hr, rfl⟩
    rw [lastUnder_eq_find? h]
    exact find?_of_mem h hr

theorem isSome_lastUnder : (lastUnder key rows k).isSome = true ↔ k ∈ rows.map key := by
  rw [lastUnder, List.getLast?_isSome, ne_eq, List.filter_eq_nil_iff, List.mem_map]
  simp

theorem lastUnder_filter {p : ρ → Bool} (h : ∀ r, key r = k → p r = true) :
    lastUnder key (rows.filter p) k = lastUnder key rows k := by
  rw [lastUnder, List.filter_filter, lastUnder]
  refine congrArg List.getLast? (List.filter_congr fun r _ => ?_)
  by_cases hr : key r = k
  · simp [hr, h r hr]
  · simp [hr]

end LastUnder

namespace Overwriting

variable {S κ ρ : Type} [DecidableEq κ] {get : S → κ → Option ρ} {put : S → ρ → S} {key : ρ → κ}

/-- Behind some writes a key has the last row written under it, or else what it had. -/
theorem get_foldl (h : Overwriting get put key) (rows : List ρ) (s : S) (k : κ) :
    get (rows.foldl put s) k = (lastUnder key rows k).or (get s k) := by
  induction rows generalizing s with
  | nil => rfl
  | cons r rows ih =>
    rw [List.foldl_cons, ih, h.get_put, lastUnder_cons]
    by_cases hk : k = key r
    · subst hk
      cases lastUnder key rows (key r) <;> simp
    · have hk' : key r ≠ k := fun e => hk e.symm
      simp [hk, hk']

theorem foldl_eq_self (h : Overwriting get put key) {rows : List ρ} {s : S}
    (hs : ∀ k r, lastUnder key rows k = some r → get s k = some r) : rows.foldl put s = s := by
  refine h.ext _ _ fun k => ?_
  rw [h.get_foldl]
  cases hl : lastUnder key rows k with
  | none => rfl
  | some r => rw [hs k r hl]; rfl

theorem get_foldl_of_ne (h : Overwriting get put key) {rows : List ρ} {k : κ}
    (hne : ∀ r ∈ rows, key r ≠ k) (s : S) : get (rows.foldl put s) k = get s k := by
  rw [h.get_foldl, lastUnder_eq_none hne]
  rfl

theorem put_put (h : Overwriting get put key) (s : S) {r r' : ρ} (hkey : key r = key r') :
    put (put s r) r' = put s r' := by
  refine h.ext _ _ fun k => ?_
  rw [h.get_put, h.get_put, h.get_put, hkey]
  by_cases hk : k = key r'
  · rw [if_pos hk, if_pos hk]
  · rw [if_neg hk, if_neg hk, if_neg hk]

theorem put_comm (h : Overwriting get put key) (s : S) {r r' : ρ} (hkey : key r ≠ key r') :
    put (put s r) r' = put (put s r') r := by
  refine h.ext _ _ fun k => ?_
  rw [h.get_put, h.get_put, h.get_put, h.get_put]
  by_cases hk : k = key r'
  · have hne : k ≠ key r := fun he => hkey (he.symm.trans hk)
    rw [if_pos hk, if_neg hne, if_pos hk]
  · rw [if_neg hk, if_neg hk]

theorem foldl_perm (h : Overwriting get put key) {rows rows' : List ρ} (hperm : rows.Perm rows')
    (hkeys : rows.Pairwise fun a b => key a ≠ key b) (s : S) :
    rows.foldl put s = rows'.foldl put s := by
  have hkeys' : rows'.Pairwise fun a b => key a ≠ key b :=
    hperm.pairwise hkeys fun hne => hne.symm
  refine h.ext _ _ fun k => ?_
  have hlast : lastUnder key rows k = lastUnder key rows' k := by
    ext r
    rw [lastUnder_eq_some_iff hkeys, lastUnder_eq_some_iff hkeys', hperm.mem_iff]
  rw [h.get_foldl, h.get_foldl, hlast]

end Overwriting

section Tables

variable {κ α : Type} [KeyOrder κ] [DecidableEq κ]

theorem Table.overwriting : Overwriting (fun (t : Table κ α) k => (t.get? k).map (Prod.mk k))
    (fun t e => t.insert e.1 e.2) Prod.fst where
  get_put t e k := by
    rw [Table.get?_insert]
    by_cases hk : k = e.1
    · rw [if_pos hk, if_pos hk, hk]
      rfl
    · rw [if_neg hk, if_neg hk]
  ext _ _ h := by
    apply Table.ext_get?
    intro k
    have hk := congrArg (Option.map Prod.snd) (h k)
    simpa [Function.comp_def] using hk

theorem Keyed.ofList_perm {entries entries' : List (κ × α)} (hperm : entries.Perm entries')
    (hkeys : entries.Pairwise fun a b => a.1 ≠ b.1) :
    Keyed.ofList entries = Keyed.ofList entries' := by
  have htables := Table.overwriting.foldl_perm hperm hkeys Table.empty
  have hentries := congrArg Table.entries htables
  rwa [Table.entries_foldl, Table.entries_foldl] at hentries

theorem Keyed.get?_ofList {entries : List (κ × α)} (hkeys : entries.Pairwise fun a b => a.1 ≠ b.1)
    (k : κ) (v : α) : Keyed.get? k (Keyed.ofList entries) = some v ↔ (k, v) ∈ entries := by
  have hfold := Table.overwriting.get_foldl entries Table.empty k
  have hnone : Table.get? (Table.empty : Table κ α) k = none := rfl
  rw [Table.get?, Table.entries_foldl, hnone, Option.map_none, Option.or_none] at hfold
  change (Keyed.get? k (Keyed.ofList entries)).map (Prod.mk k) = _ at hfold
  have hmem : lastUnder Prod.fst entries k = some (k, v) ↔ (k, v) ∈ entries := by
    simp [lastUnder_eq_some_iff hkeys]
  rw [← hmem, ← hfold]
  simp

end Tables

end QaLake
