import QaLake.Proofs.Json.RoundTrip

namespace QaLake.Json

open Document

mutual

/-- Whether the whole numbers of a value fit the 64-bit words and its members stand in order. -/
def IsWellFormed : Json → Prop
  | .num (.int n) => -Word.signedLimit ≤ n ∧ n < Word.unsignedLimit
  | .arr items => ItemsWellFormed items
  | .obj members => Keyed.Sorted members ∧ MembersWellFormed members
  | _ => True

def ItemsWellFormed : List Json → Prop
  | [] => True
  | item :: rest => IsWellFormed item ∧ ItemsWellFormed rest

def MembersWellFormed : List (String × Json) → Prop
  | [] => True
  | (_, value) :: rest => IsWellFormed value ∧ MembersWellFormed rest

end

mutual

def IsFloatFree : Json → Prop
  | .num (.float _) => False
  | .arr items => ItemsFloatFree items
  | .obj members => MembersFloatFree members
  | _ => True

def ItemsFloatFree : List Json → Prop
  | [] => True
  | item :: rest => IsFloatFree item ∧ ItemsFloatFree rest

def MembersFloatFree : List (String × Json) → Prop
  | [] => True
  | (_, value) :: rest => IsFloatFree value ∧ MembersFloatFree rest

end

mutual

theorem IsWellFormed.isPlain {j : Json} (h : j.IsWellFormed) (hfree : j.IsFloatFree) :
    j.IsPlain := by
  match j with
  | .null | .bool _ | .str _ => exact trivial
  | .num (.int n) => exact h
  | .num (.float x) => exact hfree.elim
  | .arr items => exact ItemsWellFormed.itemsPlain h hfree
  | .obj members => exact ⟨h.1, MembersWellFormed.membersPlain h.2 hfree⟩

theorem ItemsWellFormed.itemsPlain {items : List Json} (h : ItemsWellFormed items)
    (hfree : ItemsFloatFree items) : ItemsPlain items := by
  match items with
  | [] => exact trivial
  | item :: rest => exact ⟨h.1.isPlain hfree.1, ItemsWellFormed.itemsPlain h.2 hfree.2⟩

theorem MembersWellFormed.membersPlain {members : List (String × Json)}
    (h : MembersWellFormed members) (hfree : MembersFloatFree members) : MembersPlain members := by
  match members with
  | [] => exact trivial
  | (_, value) :: rest => exact ⟨h.1.isPlain hfree.1, MembersWellFormed.membersPlain h.2 hfree.2⟩

end

theorem membersWellFormed_iff {members : List (String × Json)} :
    MembersWellFormed members ↔ ∀ m ∈ members, m.2.IsWellFormed := by
  induction members with
  | nil => simp [MembersWellFormed]
  | cons m rest ih => rw [MembersWellFormed, ih, List.forall_mem_cons]

theorem isWellFormed_filter {members : List (String × Json)} (h : (Json.obj members).IsWellFormed)
    (keep : String × Json → Bool) : (Json.obj (members.filter keep)).IsWellFormed := by
  refine ⟨h.1.filter _, membersWellFormed_iff.2 fun m hm => ?_⟩
  exact membersWellFormed_iff.1 h.2 m (List.mem_filter.1 hm).1

namespace Literal

theorem absorb_lt {significand : Nat} (h : significand < Word.unsignedLimit) (digits : List Nat) :
    (absorb significand digits).1 < Word.unsignedLimit := by
  induction digits generalizing significand with
  | nil => exact h
  | cons d rest ih =>
    rw [absorb]
    split
    · rename_i hroom
      exact ih hroom
    · exact h

theorem ne_int_of_ofParts {negative : Bool} {significand : Nat} {e n : Int} :
    ofParts negative significand e ≠ some (.int n) := by
  rw [ofParts]
  intro h
  obtain ⟨x, -, hx⟩ := Option.map_eq_some_iff.1 h
  cases hx

theorem ne_int_of_overlong {negative zero positive : Bool} {n : Int} :
    overlong negative zero positive ≠ some (.int n) := by
  rw [overlong]
  split <;> simp

theorem number_inRange {l : Literal} {n : Int} (h : l.number = some (.int n)) :
    -Word.signedLimit ≤ n ∧ n < Word.unsignedLimit := by
  have hlimit : (absorb 0 l.whole).1 < Word.unsignedLimit := absorb_lt (by decide) l.whole
  have hsigned : (0 : Int) ≤ Word.signedLimit := by decide
  rw [number] at h
  generalize absorb 0 l.whole = parts at h hlimit
  obtain ⟨whole, dropped⟩ := parts
  simp only at h hlimit
  split at h
  · split at h
    · cases h
      omega
    · split at h
      · cases h
      · split at h
        · cases h
          omega
        · obtain ⟨x, -, hx⟩ := Option.map_eq_some_iff.1 h
          cases hx
  · split at h
    · exact absurd h ne_int_of_ofParts
    · split at h
      · exact absurd h ne_int_of_overlong
      · exact absurd h ne_int_of_ofParts

end Literal

namespace Document

mutual

def InRange : Document → Prop
  | .num (some (.int n)) => -Word.signedLimit ≤ n ∧ n < Word.unsignedLimit
  | .arr items => ItemsInRange items
  | .obj members => MembersInRange members
  | _ => True

def ItemsInRange : List Document → Prop
  | [] => True
  | item :: rest => InRange item ∧ ItemsInRange rest

def MembersInRange : List (Option String × Document) → Prop
  | [] => True
  | (_, value) :: rest => InRange value ∧ MembersInRange rest

end

mutual

theorem value_inRange (fuel : Nat) (cs : List Char) : (value fuel cs).1.InRange := by
  match fuel with
  | 0 => exact trivial
  | fuel + 1 =>
    unfold value
    split
    · exact trivial
    · exact trivial
    · exact trivial
    · split <;> exact trivial
    · split
      · exact trivial
      · exact items_inRange fuel _
    · split
      · exact trivial
      · exact members_inRange fuel _
    · split
      · rename_i l rest hl
        cases hnumber : l.number with
        | none => exact trivial
        | some n =>
          cases n with
          | int n => exact Literal.number_inRange hnumber
          | float x => exact trivial
      · exact trivial

theorem items_inRange (fuel : Nat) (cs : List Char) : ItemsInRange (items fuel cs).1 := by
  match fuel with
  | 0 => exact ⟨trivial, trivial⟩
  | fuel + 1 =>
    have hvalue := value_inRange fuel cs
    rw [items]
    split
    · rename_i item hitem
      rw [hitem] at hvalue
      exact ⟨hvalue, trivial, trivial⟩
    · rename_i item rest hitem
      rw [hitem] at hvalue
      split
      · exact ⟨hvalue, trivial⟩
      · exact ⟨hvalue, items_inRange fuel _⟩
      · exact ⟨hvalue, trivial, trivial⟩

theorem members_inRange (fuel : Nat) (cs : List Char) : MembersInRange (members fuel cs).1 := by
  match fuel with
  | 0 => exact ⟨trivial, trivial⟩
  | fuel + 1 =>
    rw [members]
    split
    · exact ⟨trivial, trivial⟩
    · exact ⟨trivial, trivial, trivial⟩
    · rename_i name rest hname
      have hvalue := value_inRange fuel rest
      split
      · rename_i value hv
        rw [hv] at hvalue
        exact ⟨hvalue, trivial, trivial⟩
      · rename_i value rest' hv
        rw [hv] at hvalue
        split
        · exact ⟨hvalue, trivial⟩
        · exact ⟨hvalue, members_inRange fuel _⟩
        · exact ⟨hvalue, trivial, trivial⟩

end

theorem read_inRange (s : String) : (read s).1.InRange := by
  rw [read]
  have hvalue := value_inRange (s.toList.length + 1) (skipBlanks s.toList)
  split <;> rename_i hd <;> rw [hd] at hvalue <;> exact hvalue

end Document

mutual

theorem isWellFormed_of_json? (d : Document) (hd : d.InRange) {j : Json}
    (h : d.json? = some j) : j.IsWellFormed := by
  match d with
  | .null | .bool _ =>
    cases h
    exact trivial
  | .num n =>
    obtain ⟨n, rfl, rfl⟩ := Option.map_eq_some_iff.1 h
    cases n with
    | int n => exact hd
    | float x => exact trivial
  | .str s =>
    obtain ⟨s, -, rfl⟩ := Option.map_eq_some_iff.1 h
    exact trivial
  | .arr items =>
    obtain ⟨js, hjs, rfl⟩ := Option.map_eq_some_iff.1 h
    exact itemsWellFormed_of_json? items hd hjs
  | .obj members =>
    obtain ⟨ms, hms, rfl⟩ := Option.map_eq_some_iff.1 h
    have hall := membersWellFormed_iff.1 (membersWellFormed_of_json? members hd hms)
    refine ⟨Keyed.sorted_ofList ms, membersWellFormed_iff.2 fun m hm => ?_⟩
    exact hall m (Keyed.mem_of_mem_ofList hm)

theorem itemsWellFormed_of_json? (items : List Document) (hd : ItemsInRange items)
    {js : List Json} (h : itemsJson? items = some js) : ItemsWellFormed js := by
  match items with
  | [] =>
    cases h
    exact trivial
  | item :: rest =>
    obtain ⟨first, hfirst, h⟩ := Option.bind_eq_some_iff.1 h
    obtain ⟨others, hothers, h⟩ := Option.bind_eq_some_iff.1 h
    cases h
    exact ⟨isWellFormed_of_json? item hd.1 hfirst, itemsWellFormed_of_json? rest hd.2 hothers⟩

theorem membersWellFormed_of_json? (members : List (Option String × Document))
    (hd : MembersInRange members) {ms : List (String × Json)}
    (h : membersJson? members = some ms) : MembersWellFormed ms := by
  match members with
  | [] =>
    cases h
    exact trivial
  | (name, value) :: rest =>
    obtain ⟨name, -, h⟩ := Option.bind_eq_some_iff.1 h
    obtain ⟨first, hfirst, h⟩ := Option.bind_eq_some_iff.1 h
    obtain ⟨others, hothers, h⟩ := Option.bind_eq_some_iff.1 h
    cases h
    exact ⟨isWellFormed_of_json? value hd.1 hfirst, membersWellFormed_of_json? rest hd.2 hothers⟩

end

theorem isWellFormed_of_parse? {s : String} {j : Json} (h : parse? s = some j) :
    j.IsWellFormed := by
  obtain ⟨d, hd, h⟩ := Option.bind_eq_some_iff.1 h
  have hread : (Document.read s).1 = d := by
    rw [Document.read?] at hd
    split at hd
    · rename_i hs
      rw [hs, Option.some.inj hd]
    · cases hd
  split at h
  · exact isWellFormed_of_json? d (hread ▸ read_inRange s) h
  · cases h

end QaLake.Json
