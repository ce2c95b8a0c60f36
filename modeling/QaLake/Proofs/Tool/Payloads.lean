import QaLake.Proofs.Json.Records
import QaLake.Proofs.Store.Rows
import QaLake.Proofs.Tool.Record

namespace QaLake.Tool

open Json

/-- Whether a member of a payload says something else than the scope of the payload. -/
def isShown (name : String) : Bool :=
  name != "connection_id" && name != "project_id"

/-- Whether a payload names no project, or a project by a number. -/
def NamesProject (members : List (String × Json)) : Prop :=
  ∀ v, ("project_id", v) ∈ members → ∃ n, v = .int n ∧ Word.IsSigned n

/-- Whether two payloads say the same but for the scope they name. -/
structure AgreeButScope (members members' : List (String × Json)) : Prop where
  shown : members.filter (isShown ·.1) = members'.filter (isShown ·.1)
  project : NamesProject members
  project' : NamesProject members'

def IsInputOf (id : Int) (input : Option String) : Prop :=
  ∃ text record, input = some text ∧ Json.parse? text = some record ∧
    record.get? "id" = some (.int id) ∧ Word.IsSigned id

/-- Whether a run is the one that the results of a payload belong to: the run it names, or else the
record it was fetched for, or else none. -/
def IsRunOf (members : List (String × Json)) (input : Option String) (run : Int) : Prop :=
  ∃ own, NumberAt "run_id" members own ∧ (own ≠ 0 → run = own) ∧
    (own = 0 → (∀ id, IsInputOf id input → run = id) ∧ ((∀ id, ¬ IsInputOf id input) → run = 0))

/-- Whether a row says what a payload says of its id, its custom fields and its run. -/
structure Row.Describes (members : List (String × Json)) (input : Option String) (r : Row) : Prop
    where
  id : ∃ id, NumberAt "id" members id ∧ r.name.id = .inl id
  customFields : ∀ c, r = .case c → c.customFields.Sublist members ∧
    ∀ m, m ∈ c.customFields ↔ m ∈ members ∧ "custom_".toList <+: m.1.toList
  run : ∀ s, r = .result s → IsRunOf members input s.runId

section Scope

variable {σ β : Type} {shape : Shape σ} {view : σ → σ} {members members' : List (String × Json)}

/-- Whether a record is read from a payload without its connection, and a view of it does not show
the project. -/
structure IsUnscoped (shape : Shape σ) (view : σ → σ) : Prop where
  optional : shape.IsOptional
  connection : ∀ f ∈ shape.fields, f.name ≠ "connection_id"
  project : ∀ f ∈ shape.fields, f.name = "project_id" →
    ∀ n, Word.IsSigned n → ∀ r, (f.read (.ofJson (.int n)) r).map view = .ok (view r)
  shown : ∀ f ∈ shape.fields, f.name ≠ "project_id" → f.Respects view

/-- A view of a record that does not show the scope is read from the members that say something
else. -/
theorem IsUnscoped.map_foldlM (h : IsUnscoped shape view) (hproject : NamesProject members)
    (r : σ) : (members.foldlM shape.readMember r).map view =
      (members.filter (isShown ·.1)).foldlM shape.readMember (view r) := by
  refine Shape.map_foldlM (fun f hf hshown => ?_) (fun m hm hhidden r => ?_) r
  · have hname : f.name ≠ "project_id" := by
      rintro he
      rw [he] at hshown
      exact absurd hshown (by decide)
    exact h.shown f hf hname
  · rw [Shape.readMember]
    cases hfield : shape.field? m.1 with
    | none => rfl
    | some f =>
      obtain ⟨hf, hname⟩ := Shape.mem_of_field? hfield
      have hnamed : m.1 = "project_id" := by
        have hconnection := hname ▸ h.connection f hf
        simpa [isShown, hconnection] using hhidden
      obtain ⟨n, hn, hrange⟩ := hproject m.2 (hnamed ▸ hm)
      simp only [hn]
      exact h.project f hf (hname.trans hnamed) n hrange r

variable (hmembers : (Json.obj members).IsWellFormed)
  (hmembers' : (Json.obj members').IsWellFormed) (hagree : AgreeButScope members members')

include hmembers hmembers' hagree

theorem IsUnscoped.map_decode (h : IsUnscoped shape view) :
    (decodeValue shape.decode (.obj members)).map view =
      (decodeValue shape.decode (.obj members')).map view := by
  rw [decodeValue, decodeValue, Shape.decode_obj h.optional hmembers,
    Shape.decode_obj h.optional hmembers', h.map_foldlM hagree.project,
    h.map_foldlM hagree.project', hagree.shown]

theorem IsUnscoped.decode_eq (h : IsUnscoped shape id) :
    decodeValue shape.decode (.obj members) = decodeValue shape.decode (.obj members') := by
  have hview := h.map_decode hmembers hmembers' hagree
  rw [Except.map_id] at hview
  exact hview

theorem IsUnscoped.decode_bind (h : IsUnscoped shape view) (kind : EntityKind)
    {finish : σ → Except Error β} (hfinish : ∀ r, finish (view r) = finish r) :
    (decodePayload kind shape (.obj members) >>= finish) =
      (decodePayload kind shape (.obj members') >>= finish) := by
  have hview := h.map_decode hmembers hmembers' hagree
  rw [decodePayload, decodePayload]
  cases hread : decodeValue shape.decode (.obj members) with
  | error e =>
    cases hread' : decodeValue shape.decode (.obj members') with
    | error e' =>
      rw [hread, hread'] at hview
      rw [Except.error.inj hview]
    | ok r' =>
      rw [hread, hread'] at hview
      cases hview
  | ok r =>
    cases hread' : decodeValue shape.decode (.obj members') with
    | error e' =>
      rw [hread, hread'] at hview
      cases hview
    | ok r' =>
      rw [hread, hread'] at hview
      have hr : view r = view r' := Except.ok.inj hview
      change finish r = finish r'
      rw [← hfinish r, hr, hfinish r']

end Scope

section Shapes

variable {σ : Type} {shape : Shape σ} {view : σ → σ} {getId : σ → Int}
  {putId putProject : Int → σ → σ} {fields : List (RecordField σ)}

/-- Whether a record is read from a payload without its scope, and with its id. -/
structure IsPayload (shape : Shape σ) (view : σ → σ) (getId : σ → Int) : Prop
    extends IsUnscoped shape view where
  id : shape.Holds "id" Decoder.int64 getId
  blank : getId shape.blank = 0

theorem isUnscoped_of_names (hfields : ∀ f ∈ shape.fields, f.IsOptional)
    (hnames : ("connection_id" :: "project_id" :: shape.fields.map RecordField.name).Nodup) :
    IsUnscoped shape id := by
  obtain ⟨hconnection, hnames⟩ := List.nodup_cons.1 hnames
  obtain ⟨hproject, hnames⟩ := List.nodup_cons.1 hnames
  rw [List.mem_cons, not_or] at hconnection
  constructor
  · exact ⟨hfields, hnames⟩
  · exact fun f hf he => hconnection.2 (List.mem_map.2 ⟨f, hf, he⟩)
  · exact fun f hf he => absurd (List.mem_map.2 ⟨f, hf, he⟩) hproject
  · exact fun f _ _ => f.respects_id

theorem isPayload_of_id (hfields : shape.fields = payloadField "id" Decoder.int64 putId :: fields)
    (hput : ∀ v r, getId (putId v r) = v) (hoptional : ∀ f ∈ fields, f.IsOptional)
    (hkeeps : ∀ f ∈ fields, f.Keeps getId)
    (hnames : ("connection_id" :: "project_id" :: shape.fields.map RecordField.name).Nodup)
    (hblank : getId shape.blank = 0) : IsPayload shape id getId where
  toIsUnscoped := by
    refine isUnscoped_of_names (hfields ▸ ?_) hnames
    exact List.forall_mem_cons.2 ⟨RecordField.isOptional_of, hoptional⟩
  id := .of_split [] hfields hput (List.forall_mem_nil _) hkeeps
  blank := hblank

/-- A payload that has an id and a project, which a view of the record does not show. -/
theorem isPayload_of_project
    (hfields : shape.fields = payloadField "id" Decoder.int64 putId ::
      payloadField "project_id" Decoder.int64 putProject :: fields)
    (hput : ∀ v r, getId (putId v r) = v) (hkept : ∀ v r, getId (putProject v r) = getId r)
    (hshown : ∀ v r, view (putId v r) = putId v (view r))
    (hhidden : ∀ v r, view (putProject v r) = view r)
    (hoptional : ∀ f ∈ fields, f.IsOptional) (hkeeps : ∀ f ∈ fields, f.Keeps getId)
    (hrespects : ∀ f ∈ fields, f.Respects view)
    (hnames : ("connection_id" :: shape.fields.map RecordField.name).Nodup)
    (hblank : getId shape.blank = 0) : IsPayload shape view getId where
  optional := by
    refine ⟨hfields ▸ ?_, (List.nodup_cons.1 hnames).2⟩
    exact List.forall_mem_cons.2 ⟨RecordField.isOptional_of,
      List.forall_mem_cons.2 ⟨RecordField.isOptional_of, hoptional⟩⟩
  connection := fun f hf he =>
    (List.nodup_cons.1 hnames).1 (List.mem_map.2 ⟨f, hf, he⟩)
  project := by
    intro f hf hname n hrange r
    have hmem : payloadField "project_id" Decoder.int64 putProject ∈ shape.fields := by
      rw [hfields]
      exact List.mem_cons_of_mem _ List.mem_cons_self
    obtain rfl := List.inj_on_of_nodup_map (List.nodup_cons.1 hnames).2 hf hmem hname
    change ((Decoder.int64 (.ofJson (.int n))).map fun v => putProject v r).map view = .ok (view r)
    rw [Decoder.int64_eq_ok_iff.2 ⟨rfl, hrange⟩]
    exact congrArg Except.ok (hhidden n r)
  shown := by
    rw [hfields]
    exact List.forall_mem_cons.2 ⟨fun _ => RecordField.respects_of hshown,
      List.forall_mem_cons.2 ⟨fun hname => absurd rfl hname, fun f hf _ => hrespects f hf⟩⟩
  id := by
    refine .of_split [] hfields hput (List.forall_mem_nil _) ?_
    exact List.forall_mem_cons.2 ⟨RecordField.keeps_of hkept, hkeeps⟩
  blank := hblank

theorem projectShape_isPayload : IsPayload projectShape id Project.id :=
  isPayload_of_id rfl (fun _ _ => rfl) (by simp [payloadField]) (by simp [payloadField])
    (by decide) rfl

theorem sectionShape_isPayload : IsPayload sectionShape id Section.id :=
  isPayload_of_id rfl (fun _ _ => rfl) (by simp [payloadField]) (by simp [payloadField])
    (by decide) rfl

theorem resultShape_isPayload : IsPayload resultShape id Result.id :=
  isPayload_of_id rfl (fun _ _ => rfl) (by simp [payloadField]) (by simp [payloadField])
    (by decide) rfl

theorem caseShape_isPayload : IsPayload caseShape id Case.id :=
  isPayload_of_id rfl (fun _ _ => rfl) (by simp [payloadField]) (by simp [payloadField])
    (by decide) rfl

theorem userShape_isPayload : IsPayload userShape id User.id :=
  isPayload_of_id rfl (fun _ _ => rfl) (by simp [payloadField]) (by simp [payloadField])
    (by decide) rfl

theorem caseFieldShape_isPayload : IsPayload caseFieldShape id CaseField.id :=
  isPayload_of_id rfl (fun _ _ => rfl) (by simp [payloadField]) (by simp [payloadField])
    (by decide) rfl

theorem caseTypeShape_isPayload : IsPayload caseTypeShape id CaseType.id :=
  isPayload_of_id rfl (fun _ _ => rfl) (by simp [payloadField]) (by simp [payloadField])
    (by decide) rfl

theorem priorityShape_isPayload : IsPayload priorityShape id Priority.id :=
  isPayload_of_id rfl (fun _ _ => rfl) (by simp [payloadField]) (by simp [payloadField])
    (by decide) rfl

theorem statusShape_isPayload : IsPayload statusShape id Status.id :=
  isPayload_of_id rfl (fun _ _ => rfl) (by simp [payloadField]) (by simp [payloadField])
    (by decide) rfl

theorem suiteShape_isPayload :
    IsPayload suiteShape (fun r => { r with projectId := 0 }) Suite.id :=
  isPayload_of_project rfl (fun _ _ => rfl) (fun _ _ => rfl) (fun _ _ => rfl) (fun _ _ => rfl)
    (by simp [payloadField]) (by simp [payloadField]) (by simp [payloadField]) (by decide) rfl

theorem milestoneShape_isPayload :
    IsPayload milestoneShape (fun r => { r with projectId := 0 }) Milestone.id :=
  isPayload_of_project rfl (fun _ _ => rfl) (fun _ _ => rfl) (fun _ _ => rfl) (fun _ _ => rfl)
    (by simp [payloadField]) (by simp [payloadField]) (by simp [payloadField]) (by decide) rfl

theorem planShape_isPayload :
    IsPayload planShape (fun r => { r with projectId := 0 }) Plan.id :=
  isPayload_of_project rfl (fun _ _ => rfl) (fun _ _ => rfl) (fun _ _ => rfl) (fun _ _ => rfl)
    (by simp [payloadField]) (by simp [payloadField]) (by simp [payloadField]) (by decide) rfl

theorem runShape_isPayload :
    IsPayload runShape (fun r => { r with projectId := 0 }) Run.id :=
  isPayload_of_project rfl (fun _ _ => rfl) (fun _ _ => rfl) (fun _ _ => rfl) (fun _ _ => rfl)
    (by simp [payloadField]) (by simp [payloadField]) (by simp [payloadField]) (by decide) rfl

theorem countsShape_isUnscoped : IsUnscoped countsShape id :=
  isUnscoped_of_names (by simp [countsShape, payloadField]) (by decide)

theorem entriesShape_isUnscoped (medium : Medium) : IsUnscoped (entriesShape medium) id :=
  isUnscoped_of_names (by simp [entriesShape, payloadField])
    (show ["connection_id", "project_id", "entries"].Nodup by decide)

theorem resultShape_holds_run : resultShape.Holds "run_id" Decoder.int64 Result.runId :=
  .of_split [_] rfl (fun _ _ => rfl) (by simp [payloadField])
    (by simp [payloadField])

end Shapes

section Rows

variable {kind : EntityKind} {scope : RunScope} {input : Option String} {rows : List Row}
  {members members' : List (String × Json)}

theorem inputId_eq {id : Int} (h : IsInputOf id input) : inputId input = id := by
  obtain ⟨text, record, rfl, hread, hid, hrange⟩ := h
  have hint : Json.int64? (.int id) = some id := if_pos hrange
  rw [inputId, Option.bind_some, hread, Option.bind_some, hid, Option.bind_some, hint,
    Option.getD_some]

theorem inputId_eq_zero (h : ∀ id, ¬ IsInputOf id input) : inputId input = 0 := by
  rw [inputId]
  cases hid : ((input.bind Json.parse?).bind (·.get? "id")).bind Json.int64? with
  | none => rfl
  | some id =>
    obtain ⟨v, hv, hint⟩ := Option.bind_eq_some_iff.1 hid
    obtain ⟨record, hrecord, hv⟩ := Option.bind_eq_some_iff.1 hv
    obtain ⟨text, htext, hread⟩ := Option.bind_eq_some_iff.1 hrecord
    have hnumber : v = .int id ∧ Word.IsSigned id := by
      unfold Json.int64? at hint
      split at hint
      · split at hint
        · rename_i hrange
          cases hint
          exact ⟨rfl, hrange⟩
        · cases hint
      · cases hint
    exact absurd ⟨text, record, htext, hread, hnumber.1 ▸ hv, hnumber.2⟩ (h id)

theorem customMembers_shown (members : List (String × Json)) :
    customMembers (members.filter (isShown ·.1)) = customMembers members := by
  rw [customMembers, customMembers, List.filter_filter]
  refine List.filter_congr fun m _ => ?_
  by_cases hm : "custom_".toList.isPrefixOf m.1.toList = true
  · have hshown : isShown m.1 = true := by
      rw [isShown, Bool.and_eq_true, bne_iff_ne, bne_iff_ne]
      constructor <;> rintro he <;> rw [he] at hm <;> exact absurd hm (by decide)
    rw [hm, hshown, Bool.and_true]
  · rw [Bool.not_eq_true] at hm
    rw [hm, Bool.false_and]

theorem mem_customMembers {m : String × Json} :
    m ∈ customMembers members ↔ m ∈ members ∧ "custom_".toList <+: m.1.toList := by
  rw [customMembers, List.mem_filter, List.isPrefixOf_iff_prefix]

theorem foldlM_of_decodePayload {σ : Type} {shape : Shape σ} (hshape : shape.IsOptional)
    (hmembers : (Json.obj members).IsWellFormed) {r : σ}
    (h : decodePayload kind shape (.obj members) = .ok r) :
    members.foldlM shape.readMember shape.blank = .ok r := by
  rw [← Shape.decode_obj hshape hmembers .value]
  exact eq_ok_of_mapError_eq_ok h

section Agreement

variable (hmembers : (Json.obj members).IsWellFormed)
  (hmembers' : (Json.obj members').IsWellFormed) (hagree : AgreeButScope members members')

include hmembers hmembers' hagree

theorem counts_congr : decodePayload kind countsShape (.obj members) =
    decodePayload kind countsShape (.obj members') := by
  rw [decodePayload, decodePayload, countsShape_isUnscoped.decode_eq hmembers hmembers' hagree]

theorem planRows_congr : planRows scope (.obj members) = planRows scope (.obj members') := by
  have hentries : decodeValue (fun s => (entriesShape s).decode s) (.obj members) =
      decodeValue (fun s => (entriesShape s).decode s) (.obj members') :=
    (entriesShape_isUnscoped .value).decode_eq hmembers hmembers' hagree
  rw [planRows, planRows, counts_congr hmembers hmembers' hagree, hentries]
  exact planShape_isPayload.decode_bind hmembers hmembers' hagree _ fun _ => rfl

theorem runRow_congr : runRow scope (.obj members) = runRow scope (.obj members') := by
  rw [runRow, runRow, counts_congr hmembers hmembers' hagree]
  exact runShape_isPayload.decode_bind hmembers hmembers' hagree _ fun _ => rfl

theorem rowsOfObject_congr :
    rowsOfObject kind scope input members = rowsOfObject kind scope input members' := by
  cases kind with
  | project => exact projectShape_isPayload.decode_bind hmembers hmembers' hagree _ fun _ => rfl
  | suite => exact suiteShape_isPayload.decode_bind hmembers hmembers' hagree _ fun _ => rfl
  | testSection => exact sectionShape_isPayload.decode_bind hmembers hmembers' hagree _ fun _ => rfl
  | milestone =>
    exact milestoneShape_isPayload.decode_bind hmembers hmembers' hagree _ fun _ => rfl
  | plan => exact planRows_congr hmembers hmembers' hagree
  | planEntry => rfl
  | run =>
    change (do return [← runRow scope (.obj members)]) = do return [← runRow scope (.obj members')]
    rw [runRow_congr hmembers hmembers' hagree]
  | result => exact resultShape_isPayload.decode_bind hmembers hmembers' hagree _ fun _ => rfl
  | case =>
    have hcustom : customMembers members = customMembers members' := by
      rw [← customMembers_shown members, hagree.shown, customMembers_shown]
    rw [rowsOfObject, rowsOfObject, hcustom]
    exact caseShape_isPayload.decode_bind hmembers hmembers' hagree _ fun _ => rfl
  | user => exact userShape_isPayload.decode_bind hmembers hmembers' hagree _ fun _ => rfl
  | caseField =>
    exact caseFieldShape_isPayload.decode_bind hmembers hmembers' hagree _ fun _ => rfl
  | caseType => exact caseTypeShape_isPayload.decode_bind hmembers hmembers' hagree _ fun _ => rfl
  | priority => exact priorityShape_isPayload.decode_bind hmembers hmembers' hagree _ fun _ => rfl
  | status => exact statusShape_isPayload.decode_bind hmembers hmembers' hagree _ fun _ => rfl

end Agreement

section Description

variable (hmembers : (Json.obj members).IsWellFormed)

include hmembers

theorem IsPayload.numberAt {σ : Type} {shape : Shape σ} {view : σ → σ} {getId : σ → Int}
    (h : IsPayload shape view getId) {r : σ}
    (hr : decodePayload kind shape (.obj members) = .ok r) :
    NumberAt "id" members (getId r) :=
  h.id.numberAt h.optional h.blank (Keyed.nodup_of_sorted hmembers.1)
    (foldlM_of_decodePayload h.optional hmembers hr)

theorem IsPayload.first {σ : Type} {shape : Shape σ} {view : σ → σ} {getId : σ → Int}
    (h : IsPayload shape view getId) {row : σ → Row} (hkind : ∀ r, (row r).kind = kind)
    (hname : ∀ r, (row r).name.id = .inl (getId r)) (hcase : ∀ r c, row r ≠ .case c)
    (hresult : ∀ r s, row r ≠ .result s)
    (hrows : (do return [row (← decodePayload kind shape (.obj members))]) = Except.ok rows) :
    ∃ first rest, rows = first :: rest ∧ first.kind = kind ∧ first.Describes members input := by
  obtain ⟨r, hr, hrows⟩ := exists_of_bind_eq_ok hrows
  cases hrows
  refine ⟨row r, [], rfl, hkind r, ⟨getId r, h.numberAt hmembers hr, hname r⟩, ?_, ?_⟩
  · exact fun c hc => absurd hc (hcase r c)
  · exact fun s hs => absurd hs (hresult r s)

theorem isRunOf_of_decodePayload {r : Result}
    (hr : decodePayload kind resultShape (.obj members) = .ok r) :
    IsRunOf members input (if r.runId = 0 then inputId input else r.runId) := by
  have hrun : NumberAt "run_id" members r.runId :=
    resultShape_holds_run.numberAt resultShape_isPayload.optional rfl
      (Keyed.nodup_of_sorted hmembers.1)
      (foldlM_of_decodePayload resultShape_isPayload.optional hmembers hr)
  refine ⟨r.runId, hrun, fun hne => if_neg hne, fun hzero => ?_⟩
  rw [if_pos hzero]
  exact ⟨fun id hinput => inputId_eq hinput, fun hnone => inputId_eq_zero hnone⟩

theorem first_rowsOfObject (h : rowsOfObject kind scope input members = .ok rows) :
    ∃ first rest, rows = first :: rest ∧ first.kind = kind ∧ first.Describes members input := by
  cases kind with
  | project =>
    exact projectShape_isPayload.first hmembers (fun _ => rfl) (fun _ => rfl) (by simp) (by simp) h
  | suite =>
    exact suiteShape_isPayload.first hmembers (fun _ => rfl) (fun _ => rfl) (by simp) (by simp) h
  | testSection =>
    exact sectionShape_isPayload.first hmembers (fun _ => rfl) (fun _ => rfl) (by simp) (by simp) h
  | milestone =>
    exact milestoneShape_isPayload.first hmembers (fun _ => rfl) (fun _ => rfl) (by simp) (by simp)
      h
  | user =>
    exact userShape_isPayload.first hmembers (fun _ => rfl) (fun _ => rfl) (by simp) (by simp) h
  | caseField =>
    exact caseFieldShape_isPayload.first hmembers (fun _ => rfl) (fun _ => rfl) (by simp) (by simp)
      h
  | caseType =>
    exact caseTypeShape_isPayload.first hmembers (fun _ => rfl) (fun _ => rfl) (by simp) (by simp) h
  | priority =>
    exact priorityShape_isPayload.first hmembers (fun _ => rfl) (fun _ => rfl) (by simp) (by simp) h
  | status =>
    exact statusShape_isPayload.first hmembers (fun _ => rfl) (fun _ => rfl) (by simp) (by simp) h
  | plan =>
    obtain ⟨plan, hplan, h⟩ := exists_of_bind_eq_ok h
    obtain ⟨counts, -, h⟩ := exists_of_bind_eq_ok h
    obtain ⟨entries, -, h⟩ := exists_of_bind_eq_ok h
    obtain ⟨described, -, h⟩ := exists_of_bind_eq_ok h
    cases h
    refine ⟨_, _, rfl, rfl, ⟨_, planShape_isPayload.numberAt hmembers hplan, rfl⟩, ?_, ?_⟩
    · exact fun c hc => nomatch hc
    · exact fun s hs => nomatch hs
  | planEntry => cases h
  | run =>
    obtain ⟨row, hrow, h⟩ := exists_of_bind_eq_ok h
    obtain ⟨run, hrun, hrow⟩ := exists_of_bind_eq_ok hrow
    obtain ⟨counts, -, hrow⟩ := exists_of_bind_eq_ok hrow
    cases h
    cases hrow
    refine ⟨_, _, rfl, rfl, ⟨_, runShape_isPayload.numberAt hmembers hrun, rfl⟩, ?_, ?_⟩
    · exact fun c hc => nomatch hc
    · exact fun s hs => nomatch hs
  | result =>
    obtain ⟨r, hr, h⟩ := exists_of_bind_eq_ok h
    cases h
    refine ⟨_, _, rfl, rfl, ⟨_, resultShape_isPayload.numberAt hmembers hr, rfl⟩, ?_, ?_⟩
    · exact fun c hc => nomatch hc
    · rintro s hs
      cases hs
      exact isRunOf_of_decodePayload hmembers hr
  | case =>
    obtain ⟨r, hr, h⟩ := exists_of_bind_eq_ok h
    cases h
    refine ⟨_, _, rfl, rfl, ⟨_, caseShape_isPayload.numberAt hmembers hr, rfl⟩, ?_, ?_⟩
    · rintro c hc
      cases hc
      exact ⟨List.filter_sublist, fun m => mem_customMembers⟩
    · exact fun s hs => nomatch hs

end Description

theorem rowsOfRecord_of_parse? {text : String} (h : Json.parse? text = some (.obj members)) :
    rowsOfRecord kind scope text input = rowsOfObject kind scope input members := by
  rw [rowsOfRecord, h]

/-- A payload cannot choose the scope it lands in: two payloads that say the same but for their
scopes are read as the same rows, or refused for the same reason. The first row is of the kind of
the record and says what the payload says, and all rows are in the scope of the run. -/
theorem scope_not_chosen {text text' : String} (hread : Json.parse? text = some (.obj members))
    (hread' : Json.parse? text' = some (.obj members')) (hagree : AgreeButScope members members') :
    rowsOfRecord kind scope text input = rowsOfRecord kind scope text' input ∧
      ∀ rows, rowsOfRecord kind scope text input = .ok rows →
        ∃ first rest, rows = first :: rest ∧ first.kind = kind ∧ first.Describes members input ∧
          ∀ r ∈ rows, r.IsOf scope := by
  have hmembers := isWellFormed_of_parse? hread
  have hmembers' := isWellFormed_of_parse? hread'
  constructor
  · rw [rowsOfRecord_of_parse? hread, rowsOfRecord_of_parse? hread',
      rowsOfObject_congr hmembers hmembers' hagree]
  · intro rows hrows
    have hscope : ∀ r ∈ rows, r.IsOf scope := fun r hr => (mem_rowsOfRecord hrows hr).2
    rw [rowsOfRecord_of_parse? hread] at hrows
    obtain ⟨first, rest, hfirst, hkind, hdescribes⟩ := first_rowsOfObject hmembers hrows
    exact ⟨first, rest, hfirst, hkind, hdescribes, hscope⟩

def strayCase : List (String × Json) :=
  [("connection_id", .arr [.int 9]), ("custom_steps", .str "open"), ("id", .int 7),
    ("project_id", .int 3)]

def bareCase : List (String × Json) :=
  [("custom_steps", .str "open"), ("id", .int 7)]

theorem scope_not_chosen_case :
    Json.parse? (Json.obj strayCase).text = some (.obj strayCase) ∧
      Json.parse? (Json.obj bareCase).text = some (.obj bareCase) ∧
      AgreeButScope strayCase bareCase ∧
      rowsOfRecord .case ⟨1, 2⟩ (Json.obj strayCase).text none =
        rowsOfRecord .case ⟨1, 2⟩ (Json.obj bareCase).text none ∧
      rowsOfRecord .case ⟨1, 2⟩ (Json.obj strayCase).text none = .ok [.case {
        connectionId := 1, projectId := 2, id := 7
        customFields := [("custom_steps", .str "open")] }] := by
  have hread : Json.parse? (Json.obj strayCase).text = some (.obj strayCase) := by
    refine parse?_text _ ⟨show List.Pairwise _ _ by decide, ?_⟩ (by decide)
    simp [strayCase, MembersPlain, ItemsPlain, IsPlain, Json.int, Word.signedLimit,
      Word.unsignedLimit]
  have hbare : Json.parse? (Json.obj bareCase).text = some (.obj bareCase) := by
    refine parse?_text _ ⟨show List.Pairwise _ _ by decide, ?_⟩ (by decide)
    simp [bareCase, MembersPlain, IsPlain, Json.int, Word.signedLimit, Word.unsignedLimit]
  have hagree : AgreeButScope strayCase bareCase := by
    refine ⟨rfl, fun v hv => ⟨3, ?_, by decide⟩, fun v hv => ?_⟩
    · simpa [strayCase] using hv
    · simp [bareCase] at hv
  refine ⟨hread, hbare, hagree, (scope_not_chosen hread hbare hagree).1, ?_⟩
  rw [rowsOfRecord_of_parse? hread]
  rfl

end Rows

end QaLake.Tool
