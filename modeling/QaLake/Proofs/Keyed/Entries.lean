import QaLake.Store.RowTable

namespace QaLake.Keyed

variable {κ α : Type} [KeyOrder κ]

theorem insert_append {k : κ} {v : α} {entries : List (κ × α)}
    (h : ∀ e ∈ entries, KeyOrder.before e.1 k = true) :
    insert k v entries = entries ++ [(k, v)] := by
  induction entries with
  | nil => rfl
  | cons e rest ih =>
    have he : KeyOrder.before e.1 k = true := h e List.mem_cons_self
    have hk : KeyOrder.before k e.1 = false := by
      cases hb : KeyOrder.before k e.1 with
      | false => rfl
      | true => exact absurd (KeyOrder.trans he hb) (by simp [KeyOrder.irrefl])
    simp only [insert, hk, Bool.false_eq_true, if_false, he, if_true, List.cons_append]
    rw [ih fun e' he' => h e' (List.mem_cons_of_mem _ he')]

theorem foldl_insert_of_sorted {acc entries : List (κ × α)} (h : Sorted (acc ++ entries)) :
    entries.foldl (fun acc e => insert e.1 e.2 acc) acc = acc ++ entries := by
  induction entries generalizing acc with
  | nil => simp
  | cons e rest ih =>
    have happend : acc ++ e :: rest = (acc ++ [e]) ++ rest := by simp
    have hacc : ∀ d ∈ acc, KeyOrder.before d.1 e.1 = true := fun d hd =>
      (List.pairwise_append.1 h).2.2 d hd e List.mem_cons_self
    rw [List.foldl_cons, insert_append hacc]
    rw [happend] at h ⊢
    exact ih h

theorem ofList_of_sorted {entries : List (κ × α)} (h : Sorted entries) :
    ofList entries = entries := by
  have hnil : Sorted ([] ++ entries) := h
  exact foldl_insert_of_sorted hnil

theorem sorted_ofList (entries : List (κ × α)) : Sorted (ofList entries) := by
  have hfold : ∀ acc : List (κ × α), Sorted acc →
      Sorted (entries.foldl (fun acc e => insert e.1 e.2 acc) acc) := by
    induction entries with
    | nil => exact fun _ h => h
    | cons e rest ih => exact fun acc h => ih _ (sorted_insert h e.1 e.2)
  exact hfold [] List.Pairwise.nil

theorem mem_of_mem_ofList {entries : List (κ × α)} {e : κ × α} (h : e ∈ ofList entries) :
    e ∈ entries := by
  have hfold : ∀ acc : List (κ × α),
      e ∈ entries.foldl (fun acc e => insert e.1 e.2 acc) acc → e ∈ acc ∨ e ∈ entries := by
    clear h
    induction entries with
    | nil => exact fun _ => .inl
    | cons d rest ih =>
      intro acc h
      obtain h | h := ih _ h
      · obtain rfl | h := mem_insert h
        · exact .inr List.mem_cons_self
        · exact .inl h
      · exact .inr (List.mem_cons_of_mem _ h)
  exact (hfold [] h).resolve_left List.not_mem_nil

variable [DecidableEq κ]

theorem get?_of_before {k : κ} {entries : List (κ × α)}
    (h : ∀ e ∈ entries, KeyOrder.before k e.1 = true) : get? k entries = none := by
  induction entries with
  | nil => rfl
  | cons e rest ih =>
    have he : e.1 ≠ k := by
      intro he
      have hb := h e List.mem_cons_self
      simp [he, KeyOrder.irrefl] at hb
    rw [get?, if_neg he]
    exact ih fun d hd => h d (List.mem_cons_of_mem _ hd)

theorem mem_iff_get? {entries : List (κ × α)} (h : Sorted entries) (k : κ) (v : α) :
    (k, v) ∈ entries ↔ get? k entries = some v := by
  induction entries with
  | nil => simp [get?]
  | cons e rest ih =>
    have hrest : Sorted rest := (List.pairwise_cons.1 h).2
    have hbefore := (List.pairwise_cons.1 h).1
    by_cases he : e.1 = k
    · have hnone : (k, v) ∉ rest := by
        intro hm
        have hb := hbefore _ hm
        simp [he, KeyOrder.irrefl] at hb
      rw [get?, if_pos he, List.mem_cons, Option.some.injEq]
      constructor
      · rintro (rfl | hm)
        · rfl
        · exact absurd hm hnone
      · rintro rfl
        exact .inl (by rw [← he])
    · rw [get?, if_neg he, List.mem_cons, ih hrest]
      constructor
      · rintro (rfl | hm)
        · exact absurd rfl he
        · exact hm
      · exact .inr

theorem sorted_ext {entries entries' : List (κ × α)} (h : Sorted entries) (h' : Sorted entries')
    (hget : ∀ k, get? k entries = get? k entries') : entries = entries' := by
  induction entries generalizing entries' with
  | nil =>
    cases entries' with
    | nil => rfl
    | cons e rest =>
      have he := hget e.1
      simp [get?] at he
  | cons e rest ih =>
    cases entries' with
    | nil =>
      have he := hget e.1
      simp [get?] at he
    | cons e' rest' =>
      obtain ⟨hbefore, hrest⟩ := List.pairwise_cons.1 h
      obtain ⟨hbefore', hrest'⟩ := List.pairwise_cons.1 h'
      -- A first key that comes before the first key of the other list is missing there.
      have habsent : ∀ {d d' : κ × α} {l : List (κ × α)}, KeyOrder.before d.1 d'.1 = true →
          (∀ x ∈ l, KeyOrder.before d'.1 x.1 = true) → get? d.1 (d' :: l) = none := by
        intro d d' l hd hl
        refine get?_of_before fun x hx => ?_
        obtain rfl | hx := List.mem_cons.1 hx
        · exact hd
        · exact KeyOrder.trans hd (hl x hx)
      have hkey : e.1 = e'.1 := by
        obtain hb | hb | hb := KeyOrder.total e.1 e'.1
        · have he := hget e.1
          rw [habsent hb hbefore', get?, if_pos rfl] at he
          cases he
        · exact hb
        · have he := hget e'.1
          rw [habsent hb hbefore, get?, if_pos rfl] at he
          cases he
      have hvalue : e.2 = e'.2 := by
        have he := hget e.1
        rw [get?, if_pos rfl, get?, if_pos hkey.symm] at he
        exact Option.some.inj he
      have htail : rest = rest' := by
        refine ih hrest hrest' fun k => ?_
        by_cases hk : e.1 = k
        · subst hk
          rw [get?_of_before hbefore, get?_of_before fun x hx => hkey ▸ hbefore' x hx]
        · have he := hget k
          rwa [get?, if_neg hk, get?, if_neg (hkey ▸ hk)] at he
      rw [htail, show e = e' from Prod.ext hkey hvalue]

end QaLake.Keyed

namespace QaLake

variable {κ α : Type} [KeyOrder κ] [DecidableEq κ]

theorem Table.ext_get? {t u : Table κ α} (h : ∀ k, t.get? k = u.get? k) : t = u :=
  Table.ext (Keyed.sorted_ext t.sorted u.sorted h)

omit [DecidableEq κ] in
theorem Table.entries_foldl (entries : List (κ × α)) (t : Table κ α) :
    (entries.foldl (fun t e => t.insert e.1 e.2) t).entries =
      entries.foldl (fun acc e => Keyed.insert e.1 e.2 acc) t.entries := by
  induction entries generalizing t with
  | nil => rfl
  | cons e rest ih => exact ih _

omit [DecidableEq κ] in
theorem Table.foldl_insert (t : Table κ α) :
    t.entries.foldl (fun u e => u.insert e.1 e.2) Table.empty = t := by
  apply Table.ext
  rw [Table.entries_foldl]
  exact Keyed.ofList_of_sorted t.sorted

namespace RowTable

variable {key : α → κ} [Store.Upserted key]

omit [DecidableEq κ] in
theorem rows_ascending (t : RowTable key) :
    t.rows.Pairwise fun a b => KeyOrder.before (key a) (key b) = true := by
  refine List.pairwise_map.2 (List.Pairwise.imp_of_mem ?_ t.written.sorted)
  intro a b ha hb h
  rwa [t.keyed a ha, t.keyed b hb]

theorem ext_get? {t u : RowTable key} (h : ∀ k, t.get? k = u.get? k) : t = u := by
  have hwritten : t.written = u.written := Table.ext_get? h
  have hstored : t.stored = u.stored := by rw [t.holds, u.holds, hwritten]
  cases t
  cases u
  cases hwritten
  cases hstored
  rfl

theorem mem_rows_iff (t : RowTable key) (r : α) :
    r ∈ t.rows ↔ t.get? (key r) = some r := by
  have hget : t.get? (key r) = some r ↔ (key r, r) ∈ t.written.entries :=
    (Keyed.mem_iff_get? t.written.sorted (key r) r).symm
  rw [hget, rows, Table.rows, List.mem_map]
  constructor
  · rintro ⟨e, he, rfl⟩
    rw [t.keyed e he]
    exact he
  · intro hm
    exact ⟨_, hm, rfl⟩

theorem mem_rows_iff_map {β : Type} {wrap : α → β}
    (hinj : ∀ a b, wrap a = wrap b → a = b) (t : RowTable key) (r : α) :
    r ∈ t.rows ↔ (t.get? (key r)).map wrap = some (wrap r) := by
  rw [t.mem_rows_iff, Option.map_eq_some_iff]
  constructor
  · intro hr
    exact ⟨r, hr, rfl⟩
  · rintro ⟨a, ha, he⟩
    rwa [hinj a r he] at ha

end RowTable

end QaLake
