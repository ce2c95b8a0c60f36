import QaLake.Keyed.Order

namespace QaLake.Keyed

variable {κ α : Type} [KeyOrder κ]

/-- The entries with the value written under the key, in place of the one that was there. -/
def insert (k : κ) (v : α) : List (κ × α) → List (κ × α)
  | [] => [(k, v)]
  | e :: rest =>
    if KeyOrder.before k e.1 then (k, v) :: e :: rest
    else if KeyOrder.before e.1 k then e :: insert k v rest
    else (k, v) :: rest

def get? [DecidableEq κ] (k : κ) : List (κ × α) → Option α
  | [] => none
  | e :: rest => if e.1 = k then some e.2 else get? k rest

def ofList (entries : List (κ × α)) : List (κ × α) :=
  entries.foldl (fun acc e => insert e.1 e.2 acc) []

def Sorted (entries : List (κ × α)) : Prop :=
  entries.Pairwise fun a b => KeyOrder.before a.1 b.1 = true

theorem eq_of_not_before {a b : κ} (h : KeyOrder.before a b = false)
    (h' : KeyOrder.before b a = false) : a = b := by
  rcases KeyOrder.total a b with e | e | e
  · simp [e] at h
  · exact e
  · simp [e] at h'

theorem mem_insert {k : κ} {v : α} {entries : List (κ × α)} {e : κ × α}
    (h : e ∈ insert k v entries) : e = (k, v) ∨ e ∈ entries := by
  induction entries with
  | nil => simp_all [insert]
  | cons d rest ih =>
    simp only [insert] at h
    split at h
    · simp_all
    · split at h
      · rcases List.mem_cons.1 h with rfl | h
        · exact .inr List.mem_cons_self
        · rcases ih h with h | h
          · exact .inl h
          · exact .inr (List.mem_cons_of_mem _ h)
      · rcases List.mem_cons.1 h with h | h
        · exact .inl h
        · exact .inr (List.mem_cons_of_mem _ h)

theorem sorted_insert {entries : List (κ × α)} (h : Sorted entries) (k : κ) (v : α) :
    Sorted (insert k v entries) := by
  induction entries with
  | nil => simp [insert, Sorted]
  | cons d rest ih =>
    simp only [Sorted, List.pairwise_cons] at h
    simp only [insert]
    split
    · rename_i hk
      simp only [Sorted, List.pairwise_cons]
      refine ⟨fun e he => ?_, h⟩
      rcases List.mem_cons.1 he with rfl | he
      · exact hk
      · exact KeyOrder.trans hk (h.1 e he)
    · rename_i hk
      split
      · rename_i hd
        simp only [Sorted, List.pairwise_cons]
        refine ⟨fun e he => ?_, ih h.2⟩
        rcases mem_insert he with rfl | he
        · exact hd
        · exact h.1 e he
      · rename_i hd
        have hkd : k = d.1 := eq_of_not_before (by simpa using hk) (by simpa using hd)
        simp only [Sorted, List.pairwise_cons]
        exact ⟨fun e he => hkd ▸ h.1 e he, h.2⟩

theorem get?_insert_self [DecidableEq κ] (k : κ) (v : α) (entries : List (κ × α)) :
    get? k (insert k v entries) = some v := by
  induction entries with
  | nil => simp [insert, get?]
  | cons d rest ih =>
    simp only [insert]
    split
    · simp [get?]
    · split
      · rename_i hd
        have hne : d.1 ≠ k := fun e => by simp [e, KeyOrder.irrefl] at hd
        simp [get?, hne, ih]
      · simp [get?]

theorem get?_insert_of_ne [DecidableEq κ] {k k' : κ} (h : k' ≠ k) (v : α)
    (entries : List (κ × α)) : get? k' (insert k v entries) = get? k' entries := by
  induction entries with
  | nil => simp [insert, get?, Ne.symm h]
  | cons d rest ih =>
    simp only [insert]
    split
    · simp [get?, Ne.symm h]
    · rename_i hk
      split
      · simp [get?, ih]
      · rename_i hd
        have hkd : k = d.1 := eq_of_not_before (by simpa using hk) (by simpa using hd)
        simp [get?, ← hkd, Ne.symm h]

omit [KeyOrder κ] in
theorem mem_of_get? [DecidableEq κ] {k : κ} {v : α} {entries : List (κ × α)}
    (h : get? k entries = some v) : (k, v) ∈ entries := by
  induction entries with
  | nil => cases h
  | cons d rest ih =>
    rw [get?] at h
    split at h
    · rename_i hd
      cases h
      exact hd ▸ List.mem_cons_self
    · exact List.mem_cons_of_mem _ (ih h)

section Map

variable {β : Type} (f : α → β)

theorem sorted_map {entries : List (κ × α)} (h : Sorted entries) :
    Sorted (entries.map fun e => (e.1, f e.2)) :=
  List.pairwise_map.2 h

omit [KeyOrder κ] in
theorem get?_map [DecidableEq κ] (k : κ) (entries : List (κ × α)) :
    get? k (entries.map fun e => (e.1, f e.2)) = (get? k entries).map f := by
  induction entries with
  | nil => rfl
  | cons d rest ih =>
    simp only [List.map_cons, get?, ih]
    split <;> rfl

theorem map_insert (k : κ) (v : α) (entries : List (κ × α)) :
    (insert k v entries).map (fun e => (e.1, f e.2)) =
      insert k (f v) (entries.map fun e => (e.1, f e.2)) := by
  induction entries with
  | nil => rfl
  | cons d rest ih =>
    simp only [List.map_cons, insert]
    split
    · rfl
    · split
      · rw [List.map_cons, ih]
      · rfl

end Map

end QaLake.Keyed
