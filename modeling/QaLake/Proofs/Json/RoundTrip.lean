import QaLake.Json.Decode
import QaLake.Proofs.Json.Digits
import QaLake.Proofs.Json.Reading
import QaLake.Proofs.Keyed.Entries

namespace QaLake.Json

open Document

mutual

/-- A value without floating-point numbers, whose whole numbers fit the 64-bit words and whose
members stand in their order, as those of all values that are read do. -/
def IsPlain : Json → Prop
  | .null | .bool _ | .str _ => True
  | .num (.int n) => -Word.signedLimit ≤ n ∧ n < Word.unsignedLimit
  | .num (.float _) => False
  | .arr items => ItemsPlain items
  | .obj members => Keyed.Sorted members ∧ MembersPlain members

def ItemsPlain : List Json → Prop
  | [] => True
  | item :: rest => IsPlain item ∧ ItemsPlain rest

def MembersPlain : List (String × Json) → Prop
  | [] => True
  | (_, value) :: rest => IsPlain value ∧ MembersPlain rest

end

mutual

def IsWhole : Json → Prop
  | .null | .bool _ | .str _ => True
  | .num (.int n) => -Word.signedLimit ≤ n ∧ n < Word.unsignedLimit
  | .num (.float _) => False
  | .arr items => ItemsWhole items
  | .obj members => MembersWhole members

def ItemsWhole : List Json → Prop
  | [] => True
  | item :: rest => IsWhole item ∧ ItemsWhole rest

def MembersWhole : List (String × Json) → Prop
  | [] => True
  | (_, value) :: rest => IsWhole value ∧ MembersWhole rest

end

mutual

theorem IsPlain.isWhole {j : Json} (h : j.IsPlain) : j.IsWhole := by
  match j with
  | .null | .bool _ | .str _ => trivial
  | .num (.int n) => exact h
  | .arr items => exact ItemsPlain.itemsWhole h
  | .obj members => exact MembersPlain.membersWhole h.2

theorem ItemsPlain.itemsWhole {items : List Json} (h : ItemsPlain items) : ItemsWhole items := by
  match items with
  | [] => trivial
  | item :: rest => exact ⟨IsPlain.isWhole h.1, ItemsPlain.itemsWhole h.2⟩

theorem MembersPlain.membersWhole {members : List (String × Json)} (h : MembersPlain members) :
    MembersWhole members := by
  match members with
  | [] => trivial
  | (_, value) :: rest => exact ⟨IsPlain.isWhole h.1, MembersPlain.membersWhole h.2⟩

end

theorem itemsWhole_iff {items : List Json} : ItemsWhole items ↔ ∀ j ∈ items, j.IsWhole := by
  induction items with
  | nil => simp [ItemsWhole]
  | cons item rest ih => rw [ItemsWhole, ih, List.forall_mem_cons]

theorem membersWhole_iff {members : List (String × Json)} :
    MembersWhole members ↔ ∀ m ∈ members, m.2.IsWhole := by
  induction members with
  | nil => simp [MembersWhole]
  | cons m rest ih => rw [MembersWhole, ih, List.forall_mem_cons]

theorem membersPlain_iff {members : List (String × Json)} :
    MembersPlain members ↔ ∀ m ∈ members, m.2.IsPlain := by
  induction members with
  | nil => simp [MembersPlain]
  | cons m rest ih => rw [MembersPlain, ih, List.forall_mem_cons]

theorem isPlain_int {n : Int} (h : Word.IsSigned n) : (Json.int n).IsPlain :=
  ⟨h.1, Int.lt_trans h.2 (by decide)⟩

theorem Decoder.int64_int {n : Int} (h : Word.IsSigned n) :
    Decoder.int64 (ofJson (.int n)) = .ok n :=
  if_pos h

def isNumber : Json → Bool
  | .num _ => true
  | _ => false

def depth (j : Json) : Nat :=
  (Document.ofJson j).depth

theorem isLiteral_intChars (n : Int) :
    IsLiteral ⟨decide (n < 0), (Nat.toDigits 10 n.natAbs).map digitValue, none, none⟩
      (intChars n) := by
  have hdigits : AreDigits ((Nat.toDigits 10 n.natAbs).map digitValue)
      (Nat.toDigits 10 n.natAbs) :=
    ⟨Nat.toDigits_ne_nil, fun _ => isDigit_of_mem_digits, rfl⟩
  refine ⟨Nat.toDigits 10 n.natAbs, [], [], ?_, ⟨hdigits, fun hzero => ?_⟩, rfl, rfl⟩
  · by_cases hn : n < 0 <;> simp [intChars, hn]
  · cases h : Nat.toDigits 10 n.natAbs with
    | nil => exact absurd h Nat.toDigits_ne_nil
    | cons c cs =>
      rw [h, List.map_cons, List.head?_cons, Option.some.injEq] at hzero
      by_cases hcs : cs = []
      · rw [hcs, List.map_cons, hzero, List.map_nil]
      · exact absurd hzero (digits_cons h hcs)

theorem isQuoted_strChars (s : String) : IsQuoted (some s) (strChars s) := by
  obtain ⟨quoted, hquoted, hs⟩ := isQuoted_of_string? (string?_strChars s [])
  rw [List.append_nil] at hquoted
  rw [strChars, List.cons_append, hquoted]
  exact hs

mutual

theorem isWritten_chars (j : Json) (hj : j.IsWhole) : IsWritten (ofJson j) j.chars := by
  match j with
  | .null | .bool true | .bool false => rfl
  | .num (.int n) => exact ⟨_, number_digits n hj.1 hj.2, isLiteral_intChars n⟩
  | .str s => exact isQuoted_strChars s
  | .arr items => exact ⟨_, rfl, areItems_itemsChars items hj⟩
  | .obj members => exact ⟨_, rfl, areMembers_membersChars members hj⟩

theorem areItems_itemsChars (items : List Json) (hj : ItemsWhole items) :
    AreItems (ofItems items) (itemsChars items) := by
  match items with
  | [] => exact .nil
  | [item] => exact .of_form (isWritten_chars item hj.1)
  | item :: next :: rest =>
    exact ⟨_, _, rfl, .of_form (isWritten_chars item hj.1), areItems_itemsChars (next :: rest) hj.2⟩

theorem areMembers_membersChars (members : List (String × Json)) (hj : MembersWhole members) :
    AreMembers (Document.ofMembers members) (membersChars members) := by
  match members with
  | [] => exact .nil
  | [(name, value)] =>
    exact ⟨_, _, rfl, .of_form (isQuoted_strChars name), .of_form (isWritten_chars value hj.1)⟩
  | (name, value) :: next :: rest =>
    exact ⟨strChars name ++ ':' :: value.chars, _, rfl,
      ⟨_, _, rfl, .of_form (isQuoted_strChars name), .of_form (isWritten_chars value hj.1)⟩,
      areMembers_membersChars (next :: rest) hj.2⟩

end

mutual

theorem json?_ofJson (j : Json) (hj : j.IsPlain) : (ofJson j).json? = some j := by
  match j with
  | .null => rfl
  | .bool b => rfl
  | .num n => rfl
  | .str s => rfl
  | .arr items => simp [ofJson, json?, itemsJson?_ofItems items hj]
  | .obj members =>
    simp [ofJson, json?, membersJson?_ofMembers members hj.2, Json.ofMembers,
      Keyed.ofList_of_sorted hj.1]

theorem itemsJson?_ofItems (items : List Json) (hj : ItemsPlain items) :
    itemsJson? (ofItems items) = some items := by
  match items with
  | [] => rfl
  | item :: rest =>
    simp [ofItems, itemsJson?, json?_ofJson item hj.1, itemsJson?_ofItems rest hj.2]

theorem membersJson?_ofMembers (members : List (String × Json)) (hj : MembersPlain members) :
    membersJson? (Document.ofMembers members) = some members := by
  match members with
  | [] => rfl
  | (name, value) :: rest =>
    simp [Document.ofMembers, membersJson?, json?_ofJson value hj.1,
      membersJson?_ofMembers rest hj.2]

end

theorem read?_text (j : Json) (hj : j.IsWhole) : read? j.text = some (ofJson j) := by
  rw [read?_eq_some_iff, text, String.toList_ofList]
  exact .of_form (isWritten_chars j hj)

theorem parse?_text (j : Json) (hj : j.IsPlain) (hdepth : j.depth ≤ maxDepth) :
    parse? j.text = some j := by
  have hd : (ofJson j).depth ≤ maxDepth := hdepth
  simp [parse?, read?_text j hj.isWhole, hd, json?_ofJson j hj]

section Texts

variable {α : Type} {dec : Medium → Decoder α} {s : String}

theorem decodeText_of_read? {d : Document} (h : Document.read? s = some d) :
    decodeText dec s = dec .text d := by
  rw [Document.read?] at h
  rw [decodeText]
  split at h
  · rename_i hread
    cases h
    simp only [hread, if_true]
    exact bind_pure _
  · cases h

theorem decodeText_eq_ok_iff {a : α} :
    decodeText dec s = .ok a ↔ ∃ d, Document.read? s = some d ∧ dec .text d = .ok a := by
  constructor
  · intro h
    cases hread : Document.read? s with
    | some d => exact ⟨d, rfl, (decodeText_of_read? hread).symm.trans h⟩
    | none =>
      rw [Document.read?] at hread
      rw [decodeText] at h
      split at hread
      · cases hread
      · rename_i d hread'
        rw [hread'] at h
        cases hdec : dec .text d <;> simp [hdec, bind, Except.bind] at h
  · rintro ⟨d, hread, h⟩
    rw [decodeText_of_read? hread, h]

end Texts

theorem isPlain_filter {members : List (String × Json)} (h : (Json.obj members).IsPlain)
    (keep : String × Json → Bool) : (Json.obj (members.filter keep)).IsPlain := by
  refine ⟨h.1.filter _, ?_⟩
  have hmembers := h.2
  clear h
  induction members with
  | nil => exact trivial
  | cons m rest ih =>
    rw [List.filter_cons]
    split
    · exact ⟨hmembers.1, ih hmembers.2⟩
    · exact ih hmembers.2

theorem depth_filter_le (members : List (String × Json)) (keep : String × Json → Bool) :
    (Json.obj (members.filter keep)).depth ≤ (Json.obj members).depth := by
  have hle : Document.membersDepth (Document.ofMembers (members.filter keep)) ≤
      Document.membersDepth (Document.ofMembers members) := by
    induction members with
    | nil => exact Nat.le_refl _
    | cons m rest ih =>
      rw [List.filter_cons]
      split
      · exact Nat.max_le_of_le_of_le (Nat.le_max_left _ _) (Nat.le_trans ih (Nat.le_max_right _ _))
      · exact Nat.le_trans ih (Nat.le_max_right _ _)
  exact Nat.succ_le_succ hle

end QaLake.Json
