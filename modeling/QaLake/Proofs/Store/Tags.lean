import QaLake.Proofs.Domain.Identifiers
import QaLake.Proofs.Json.Required
import QaLake.RunScope

namespace QaLake.RunScope

open Json

/-- Whether the connection and the project are signed 64-bit words. -/
structure IsSigned (a : RunScope) : Prop where
  connection : Word.IsSigned a.connection
  project : Word.IsSigned a.project

def members (a : RunScope) : List (Option String × Document) :=
  [(some "connectionId", .num (some (.int a.connection))),
    (some "projectId", .num (some (.int a.project)))]

/-- Whether a document is an object with the two members of a scope, in any order and among members
of other names, or an array of the two values. -/
inductive IsWrittenAs (a : RunScope) : Document → Prop
  | object {written others : List (Option String × Document)} :
    written.Perm (a.members ++ others) →
      (∀ m ∈ others, ∃ name, m.1 = some name ∧ name ≠ "connectionId" ∧ name ≠ "projectId") →
      IsWrittenAs a (.obj written)
  | array : IsWrittenAs a (.arr (a.members.map Prod.snd))

/-- Whether a text says a scope, with any blanks and with any escapes in the names. -/
def IsWrittenIn (a : RunScope) (text : String) : Prop :=
  ∃ d, a.IsWrittenAs d ∧ Document.Padded (Document.IsWritten d) text.toList

theorem isUnordered_shape : shape.IsUnordered where
  names := by simp [shape, RecordField.of]
  fields := by simp [shape]

theorem isRequired_shape : shape.IsRequired := by
  simp [Shape.IsRequired, shape, RecordField.of]

theorem areOthers_iff {others : List (Option String × Document)} :
    shape.AreOthers others ↔
      ∀ m ∈ others, ∃ name, m.1 = some name ∧ name ≠ "connectionId" ∧ name ≠ "projectId" := by
  have hfield : ∀ name, shape.field? name = none ↔ name ≠ "connectionId" ∧ name ≠ "projectId" := by
    intro name
    simp only [Shape.field?, shape, RecordField.of, List.find?_eq_none, List.forall_mem_cons,
      beq_iff_eq]
    exact ⟨fun h => ⟨Ne.symm h.1, Ne.symm h.2.1⟩, fun h => ⟨Ne.symm h.1, Ne.symm h.2, nofun⟩⟩
  simp only [Shape.AreOthers, hfield]

theorem eq_members {written : List (Option String × Document)} {a : RunScope}
    (h : shape.AreFields written) (hvalues : written.map Prod.snd = a.members.map Prod.snd) :
    written = a.members :=
  List.zip_of_prod h hvalues

theorem readItems_pair (expected : String) (total : Nat) (c p : Document) (r : RunScope) :
    Shape.readItems expected total shape.fields [c, p] r =
      Decoder.int64 c >>= fun n => (Decoder.int64 p).map fun k => ⟨n, k⟩ := by
  change (Decoder.int64 c).map _ >>= (fun r => (Decoder.int64 p).map _ >>= .ok) = _
  cases Decoder.int64 c with
  | error e => rfl
  | ok n => cases Decoder.int64 p <;> rfl

theorem readsItems_iff {items : List Document} {a : RunScope} :
    shape.ReadsItems items a ↔ a.IsSigned ∧ items = a.members.map Prod.snd := by
  constructor
  · rintro ⟨hlength, hread⟩
    obtain ⟨c, p, rfl⟩ := List.length_eq_two.1 hlength
    rw [readItems_pair] at hread
    cases hc : Decoder.int64 c with
    | error e =>
      rw [hc] at hread
      cases hread
    | ok n =>
      cases hp : Decoder.int64 p with
      | error e =>
        rw [hc, hp] at hread
        cases hread
      | ok k =>
        rw [hc, hp] at hread
        cases hread
        obtain ⟨rfl, hn⟩ := Decoder.eq_num_of_int64 hc
        obtain ⟨rfl, hk⟩ := Decoder.eq_num_of_int64 hp
        exact ⟨⟨hn, hk⟩, rfl⟩
  · rintro ⟨ha, rfl⟩
    have hc : Decoder.int64 (.num (some (.int a.connection))) = .ok a.connection :=
      Decoder.int64_int ha.connection
    have hp : Decoder.int64 (.num (some (.int a.project))) = .ok a.project :=
      Decoder.int64_int ha.project
    refine ⟨rfl, ?_⟩
    rw [members, List.map_cons, List.map_cons, List.map_nil, readItems_pair, hc, hp]
    rfl

theorem decode_eq_ok_iff {d : Document} {a : RunScope} :
    shape.decode .text d = .ok a ↔ a.IsSigned ∧ a.IsWrittenAs d := by
  rw [Shape.decode_eq_ok_iff_of_required isUnordered_shape isRequired_shape]
  constructor
  · rintro (⟨members, written, others, rfl, hperm, hwritten, hothers, hread⟩ | ⟨items, rfl, hread⟩)
    · obtain ⟨ha, hvalues⟩ := readsItems_iff.1 hread
      rw [eq_members hwritten hvalues] at hperm
      exact ⟨ha, .object hperm (areOthers_iff.1 hothers)⟩
    · obtain ⟨ha, rfl⟩ := readsItems_iff.1 hread
      exact ⟨ha, .array⟩
  · rintro ⟨ha, hd⟩
    have hread := readsItems_iff.2 ⟨ha, rfl⟩
    cases hd with
    | array => exact .inr ⟨_, rfl, hread⟩
    | @object written others hperm hothers =>
      exact .inl ⟨written, a.members, others, rfl, hperm, rfl, areOthers_iff.2 hothers, hread⟩

theorem ofText_eq_ok_iff {text : String} {a : RunScope} :
    ofText text = .ok a ↔ a.IsSigned ∧ a.IsWrittenIn text := by
  simp only [ofText, decodeText_eq_ok_iff, Document.read?_eq_some_iff, decode_eq_ok_iff,
    IsWrittenIn]
  constructor
  · rintro ⟨d, htext, ha, hd⟩
    exact ⟨ha, d, hd, htext⟩
  · rintro ⟨ha, d, hd, htext⟩
    exact ⟨d, htext, ha, hd⟩

example : ofText "[1,\t42]" = .ok ⟨1, 42⟩ := by decide +kernel

theorem tag_eq_text (a : RunScope) : a.tag =
    (Json.obj [("connectionId", .int a.connection), ("projectId", .int a.project)]).text := by
  have hfront : "\x7b\"connectionId\":".toList = '{' :: strChars "connectionId" ++ [':'] := by
    decide
  have hmiddle : ",\"projectId\":".toList = ',' :: strChars "projectId" ++ [':'] := by
    decide
  have hback : "\x7d".toList = ['}'] := by decide
  have hint : ∀ n : Int, (toString n).toList = (Json.int n).chars := by
    intro n
    rw [← text_int, Number.text, String.toList_ofList]
    rfl
  refine String.toList_inj.1 ?_
  rw [text, String.toList_ofList]
  unfold tag
  simp only [String.toList_append, hfront, hmiddle, hback, hint, chars, membersChars,
    List.cons_append, List.append_assoc, List.nil_append]

theorem isWrittenIn_tag {a : RunScope} (ha : a.IsSigned) : a.IsWrittenIn a.tag := by
  have hwhole : (Json.obj [("connectionId", .int a.connection),
      ("projectId", .int a.project)]).IsWhole :=
    ⟨(isPlain_int ha.connection).isWhole, (isPlain_int ha.project).isWhole, trivial⟩
  refine ⟨.obj a.members, @IsWrittenAs.object a a.members [] ?_ nofun, ?_⟩
  · rw [List.append_nil]
  · rw [← Document.read?_eq_some_iff, tag_eq_text]
    exact read?_text _ hwhole

theorem ofText_tag {a : RunScope} (ha : a.IsSigned) : ofText a.tag = .ok a :=
  ofText_eq_ok_iff.2 ⟨ha, isWrittenIn_tag ha⟩

end QaLake.RunScope
