import QaLake.Proofs.Json.Records
import QaLake.Proofs.Tool.Record
import QaLake.Store.ToolTables

namespace QaLake

namespace Json

namespace Shape

variable {σ : Type} {shape : Shape σ} {P : σ → Prop}

theorem readMembers_keeps
    (hfields : ∀ f ∈ shape.fields, ∀ d r r', f.read d r = .ok r' → P r → P r')
    {members : List (Option String × Document)} {seen seen' : List String} {r r' : σ}
    (h : shape.readMembers members seen r = .ok (seen', r')) (hr : P r) : P r' := by
  induction members generalizing seen r with
  | nil =>
    cases h
    exact hr
  | cons m rest ih =>
    obtain ⟨name, d⟩ := m
    cases name with
    | none => cases h
    | some name =>
      rw [readMembers] at h
      split at h
      · exact ih h hr
      · rename_i f hfield
        split at h
        · cases h
        · obtain ⟨r₁, hread, h⟩ := Tool.exists_of_bind_eq_ok h
          have hmem : f ∈ shape.fields := List.mem_of_find?_eq_some hfield
          exact ih h (hfields f hmem d r r₁ hread hr)

theorem ofMembers_keeps
    (hfields : ∀ f ∈ shape.fields, ∀ d r r', f.read d r = .ok r' → P r → P r')
    (hblank : P shape.blank) {members : List (Option String × Document)} {r : σ}
    (h : shape.ofMembers members = .ok r) : P r := by
  rw [ofMembers] at h
  obtain ⟨⟨seen, r'⟩, hread, h⟩ := Tool.exists_of_bind_eq_ok h
  have hr' : P r' := readMembers_keeps hfields hread hblank
  simp only at h
  split at h
  · cases h
  · cases h
    exact hr'

end Shape

end Json

namespace Tool

open Json

def payload? {σ : Type} (shape : Shape σ) : Json → Option σ
  | .obj members => (decodeValue shape.decode (.obj members)).toOption
  | _ => none

theorem payload?_keeps {σ : Type} {shape : Shape σ} {P : σ → Prop}
    (hfields : ∀ f ∈ shape.fields, ∀ d r r', f.read d r = .ok r' → P r → P r')
    (hblank : P shape.blank) {j : Json} {r : σ} (h : payload? shape j = some r) : P r := by
  cases j with
  | obj members =>
    have hdecode : (shape.ofMembers (Document.ofMembers members)).toOption = some r := h
    cases hmembers : shape.ofMembers (Document.ofMembers members) with
    | error e =>
      rw [hmembers] at hdecode
      cases hdecode
    | ok r' =>
      rw [hmembers] at hdecode
      cases hdecode
      exact Shape.ofMembers_keeps hfields hblank hmembers
  | _ => cases h

section OfJson

variable (scope : RunScope)

def Suite.ofJson? (j : Json) : Option Suite :=
  (payload? suiteShape j).map fun r =>
    { r with connectionId := scope.connection, projectId := scope.project }

def Run.ofJson? (j : Json) : Option Run := do
  let r ← payload? runShape j
  let counts ← payload? countsShape j
  return { r with
    connectionId := scope.connection, projectId := scope.project, counts := counts }

def Case.ofJson? : Json → Option Case
  | .obj members => (payload? caseShape (.obj members)).map fun r => { r with
      connectionId := scope.connection, projectId := scope.project,
      customFields := customMembers members }
  | _ => none

/-- The result of a record that was fetched for a run. The record may name another run. -/
def Result.ofJson? (run : Int) (j : Json) : Option Result :=
  (payload? resultShape j).map fun r => { r with
    connectionId := scope.connection, projectId := scope.project,
    runId := if r.runId = 0 then run else r.runId }

end OfJson

variable {scope : RunScope}

theorem Run.isSigned_of_ofJson? {j : Json} {r : Run} (h : Run.ofJson? scope j = some r) :
    Word.IsSigned r.id := by
  obtain ⟨payload, hpayload, h⟩ := Option.bind_eq_some_iff.1 h
  obtain ⟨counts, -, h⟩ := Option.bind_eq_some_iff.1 h
  cases h
  have hkeep : ∀ f ∈ runShape.fields, ∀ d (r r' : Run), f.read d r = .ok r' →
      Word.IsSigned r.id → Word.IsSigned r'.id := by
    intro f hf d r r' hread hr
    simp only [runShape, List.mem_cons, List.not_mem_nil, or_false] at hf
    obtain rfl | hf := hf
    · obtain ⟨v, hv, rfl⟩ := RecordField.exists_of_read hread
      exact (Decoder.eq_num_of_int64 hv).2
    · have hid : r'.id = r.id := by
        obtain rfl | rfl | rfl | rfl | rfl | rfl | rfl | rfl | rfl | rfl | rfl | rfl := hf <;>
          obtain ⟨v, -, rfl⟩ := RecordField.exists_of_read hread <;> rfl
      rwa [hid]
  have hid : Word.IsSigned payload.id := payload?_keeps hkeep (by decide) hpayload
  exact hid

theorem payload?_of_decodePayload {σ : Type} {kind : EntityKind} {shape : Shape σ}
    {members : List (String × Json)} {r : σ}
    (h : decodePayload kind shape (.obj members) = .ok r) :
    payload? shape (.obj members) = some r := by
  rw [decodePayload] at h
  rw [payload?]
  cases hdecode : decodeValue shape.decode (.obj members) with
  | error f =>
    rw [hdecode] at h
    cases h
  | ok r' =>
    rw [hdecode] at h
    cases h
    rfl

theorem Run.isSigned_of_rowsOfRecord {data : String} {input : Option String} {rows : List Row}
    (h : rowsOfRecord .run scope data input = .ok rows) {r : Run} (hr : .run r ∈ rows) :
    Word.IsSigned r.id := by
  rw [rowsOfRecord] at h
  split at h
  · cases h
  · rename_i members hmembers
    obtain ⟨row, hrow, h⟩ := exists_of_bind_eq_ok h
    cases h
    obtain ⟨run, hrun, hrow⟩ := exists_of_bind_eq_ok hrow
    obtain ⟨counts, hcounts, hrow⟩ := exists_of_bind_eq_ok hrow
    cases hrow
    have hread : Run.ofJson? scope (.obj members) = some r := by
      rw [Run.ofJson?, payload?_of_decodePayload hrun, payload?_of_decodePayload hcounts]
      exact congrArg some (Row.run.inj (List.mem_singleton.1 hr)).symm
    exact isSigned_of_ofJson? hread
  · cases h

/-- The run of a result is the one that its record names, or else the one it was fetched for. -/
theorem Result.runId_of_rowsOfRecord {data : String} {input : Option String} {rows : List Row}
    (h : rowsOfRecord .result scope data input = .ok rows) {r : Result} (hr : .result r ∈ rows) :
    ∃ own : Result, rowsOfRecord .result scope data none = .ok [.result own] ∧
      r.runId = if own.runId = 0 then inputId input else own.runId := by
  rw [rowsOfRecord] at h ⊢
  split at h
  · cases h
  · obtain ⟨payload, hpayload, h⟩ := exists_of_bind_eq_ok h
    cases h
    refine ⟨{ payload with
      connectionId := scope.connection, projectId := scope.project,
      runId := if payload.runId = 0 then inputId none else payload.runId }, ?_, ?_⟩
    · simp only [rowsOfObject, hpayload]
      rfl
    · rw [Row.result.inj (List.mem_singleton.1 hr)]
      by_cases hrun : payload.runId = 0
      · have hnone : inputId none = 0 := rfl
        simp only [hrun, hnone, if_true]
      · simp only [hrun, if_false]
  · cases h

theorem rowsOfRecord_text {kind : EntityKind} {j : Json} (input : Option String)
    (hplain : j.IsPlain) (hdepth : j.depth ≤ Document.maxDepth) :
    rowsOfRecord kind scope j.text input =
      match j with
      | .obj members => rowsOfObject kind scope input members
      | _ => .error (.parse kind .notAnObject) := by
  rw [rowsOfRecord, parse?_text j hplain hdepth]
  cases j <;> rfl

section Rows

variable {j : Json} (input : Option String) (hplain : j.IsPlain)
  (hdepth : j.depth ≤ Document.maxDepth)

include hplain hdepth

theorem rowsOfRecord_suite :
    ((rowsOfRecord .suite scope j.text input).toOption).getD [] =
      ((Suite.ofJson? scope j).map Row.suite).toList := by
  rw [rowsOfRecord_text input hplain hdepth]
  cases j with
  | obj members =>
    change ((decodePayload .suite suiteShape (.obj members) >>= _).toOption).getD [] = _
    rw [Suite.ofJson?, payload?, decodePayload]
    cases decodeValue suiteShape.decode (.obj members) <;> rfl
  | _ => rfl

theorem rowsOfRecord_run :
    ((rowsOfRecord .run scope j.text input).toOption).getD [] =
      ((Run.ofJson? scope j).map Row.run).toList := by
  rw [rowsOfRecord_text input hplain hdepth]
  cases j with
  | obj members =>
    change ((runRow scope (.obj members) >>= _).toOption).getD [] = _
    rw [Run.ofJson?, payload?, payload?, runRow, decodePayload, decodePayload]
    cases decodeValue runShape.decode (.obj members) with
    | error e => rfl
    | ok r => cases decodeValue countsShape.decode (.obj members) <;> rfl
  | _ => rfl

theorem rowsOfRecord_case :
    ((rowsOfRecord .case scope j.text input).toOption).getD [] =
      ((Case.ofJson? scope j).map Row.case).toList := by
  rw [rowsOfRecord_text input hplain hdepth]
  cases j with
  | obj members =>
    change ((decodePayload .case caseShape (.obj members) >>= _).toOption).getD [] = _
    rw [Case.ofJson?, payload?, decodePayload]
    cases decodeValue caseShape.decode (.obj members) <;> rfl
  | _ => rfl

theorem rowsOfRecord_result :
    ((rowsOfRecord .result scope j.text input).toOption).getD [] =
      ((Result.ofJson? scope (inputId input) j).map Row.result).toList := by
  rw [rowsOfRecord_text input hplain hdepth]
  cases j with
  | obj members =>
    change ((decodePayload .result resultShape (.obj members) >>= _).toOption).getD [] = _
    rw [Result.ofJson?, payload?, decodePayload]
    cases decodeValue resultShape.decode (.obj members) <;> rfl
  | _ => rfl

theorem Case.reread_of_ofJson? {r : Case} (h : Case.ofJson? scope j = some r) : r.reread = r := by
  cases j with
  | obj members =>
    obtain ⟨payload, -, hr⟩ := Option.map_eq_some_iff.1 h
    have hfields : r.customFields = customMembers members := by rw [← hr]
    have hfew : (Json.obj (customMembers members)).depth ≤ Document.maxDepth :=
      Nat.le_trans (depth_filter_le members _) hdepth
    have hread : parse? (Json.obj (customMembers members)).text =
        some (.obj (customMembers members)) := parse?_text _ (isPlain_filter hplain _) hfew
    rw [Case.reread, fieldsOf, hfields, hread]
    simp only [← hfields]
  | _ => cases h

end Rows

theorem inputId_text {id : Int} (h : Word.IsSigned id) :
    inputId (some (Json.obj [("id", .int id)]).text) = id := by
  have hplain : (Json.obj [("id", .int id)]).IsPlain :=
    ⟨List.pairwise_singleton _ _, ⟨h.1, Int.lt_trans h.2 (by decide)⟩, trivial⟩
  have hdepth : (Json.obj [("id", .int id)]).depth = 1 := rfl
  rw [inputId, Option.bind_some, parse?_text _ hplain (hdepth ▸ by decide)]
  change (Json.int64? (.int id)).getD 0 = id
  rw [Json.int, Json.int64?, if_pos h]
  rfl

end Tool

end QaLake
