import QaLake.Proofs.Json.RoundTrip

namespace QaLake.Json

open Document

theorem membersDepth_le_iff {members : List (String × Json)} {n : Nat} :
    membersDepth (Document.ofMembers members) ≤ n ↔ ∀ m ∈ members, m.2.depth ≤ n := by
  induction members with
  | nil => simp [Document.ofMembers, membersDepth]
  | cons m rest ih =>
    rw [Document.ofMembers, membersDepth, Nat.max_le, ih, List.forall_mem_cons]
    rfl

theorem depth_ofMembers_le (members : List (String × Json)) :
    (Json.ofMembers members).depth ≤ (Json.obj members).depth := by
  refine Nat.succ_le_succ (membersDepth_le_iff.2 fun m hm => ?_)
  exact membersDepth_le_iff.1 (Nat.le_refl _) m (Keyed.mem_of_mem_ofList hm)

mutual

theorem depth_le_of_json? (d : Document) {j : Json} (h : d.json? = some j) :
    j.depth ≤ d.depth := by
  match d with
  | .null | .bool _ =>
    cases h
    exact Nat.le_refl _
  | .num n =>
    obtain ⟨n, -, rfl⟩ := Option.map_eq_some_iff.1 h
    exact Nat.le_refl _
  | .str s =>
    obtain ⟨s, -, rfl⟩ := Option.map_eq_some_iff.1 h
    exact Nat.le_refl _
  | .arr items =>
    obtain ⟨js, hjs, rfl⟩ := Option.map_eq_some_iff.1 h
    exact Nat.succ_le_succ (itemsDepth_le_of_json? items hjs)
  | .obj members =>
    obtain ⟨ms, hms, rfl⟩ := Option.map_eq_some_iff.1 h
    exact Nat.le_trans (depth_ofMembers_le ms)
      (Nat.succ_le_succ (membersDepth_le_of_json? members hms))

theorem itemsDepth_le_of_json? (items : List Document) {js : List Json}
    (h : itemsJson? items = some js) : itemsDepth (ofItems js) ≤ itemsDepth items := by
  match items with
  | [] =>
    cases h
    exact Nat.le_refl _
  | item :: rest =>
    obtain ⟨first, hfirst, h⟩ := Option.bind_eq_some_iff.1 h
    obtain ⟨others, hothers, h⟩ := Option.bind_eq_some_iff.1 h
    cases h
    have hitem := depth_le_of_json? item hfirst
    have hrest := itemsDepth_le_of_json? rest hothers
    exact Nat.max_le_of_le_of_le (Nat.le_trans hitem (Nat.le_max_left _ _))
      (Nat.le_trans hrest (Nat.le_max_right _ _))

theorem membersDepth_le_of_json? (members : List (Option String × Document))
    {ms : List (String × Json)} (h : membersJson? members = some ms) :
    membersDepth (Document.ofMembers ms) ≤ membersDepth members := by
  match members with
  | [] =>
    cases h
    exact Nat.le_refl _
  | (name, value) :: rest =>
    obtain ⟨name, -, h⟩ := Option.bind_eq_some_iff.1 h
    obtain ⟨first, hfirst, h⟩ := Option.bind_eq_some_iff.1 h
    obtain ⟨others, hothers, h⟩ := Option.bind_eq_some_iff.1 h
    cases h
    have hvalue := depth_le_of_json? value hfirst
    have hrest := membersDepth_le_of_json? rest hothers
    exact Nat.max_le_of_le_of_le (Nat.le_trans hvalue (Nat.le_max_left _ _))
      (Nat.le_trans hrest (Nat.le_max_right _ _))

end

theorem depth_le_of_parse? {s : String} {j : Json} (h : parse? s = some j) :
    j.depth ≤ maxDepth := by
  obtain ⟨d, -, h⟩ := Option.bind_eq_some_iff.1 h
  split at h
  · rename_i hd
    exact Nat.le_trans (depth_le_of_json? d h) hd
  · cases h

end QaLake.Json
