import Mathlib.Data.List.Find
import Mathlib.Data.List.Pairwise
import Mathlib.Data.List.Perm.Basic
import QaLake.Proofs.Json.Records

namespace QaLake.Json

variable {σ α β : Type}

/-- Whether some members are others with names added that these do not have, each with null and
once, in any places. -/
structure AddsNulls (added : List String) (members members' : List (Option String × Document)) :
    Prop where
  others : members'.filter (fun m => m.1 ∉ added.map some) = members
  null : ∀ m ∈ members', m.1 ∈ added.map some → m.2 = .null
  once : members'.Pairwise fun m m' => m.1 ∈ added.map some → m.1 ≠ m'.1

/-- What stands under a name, as a value or the default if it is null, and the default if nothing
stands there. -/
def valueUnder (name : String) (default : α) (dec : Decoder α)
    (members : List (Option String × Document)) : Except Fault α :=
  match Keyed.get? (some name) members with
  | none => .ok default
  | some .null => .ok default
  | some d => dec d

theorem valueUnder_of_get? {name : String} {default : α} {dec : Decoder α} {d : Document}
    {members : List (Option String × Document)} (h : Keyed.get? (some name) members = some d) :
    valueUnder name default dec members = Decoder.orDefault default dec d := by
  rw [valueUnder, h]
  cases d <;> rfl

namespace RecordField

def Commutes (f g : RecordField σ) : Prop :=
  ∀ d e r, (f.read d r).toOption.bind (fun r => (g.read e r).toOption) =
    (g.read e r).toOption.bind fun r => (f.read d r).toOption

theorem Commutes.symm {f g : RecordField σ} (h : f.Commutes g) : g.Commutes f :=
  fun d e r => (h e d r).symm

theorem Commutes.read_null {f g : RecordField σ} (h : f.Commutes g) {d : Document} {r r' : σ}
    (hread : f.read d r = .ok r') (hidle : g.read .null r = .ok r) : g.read .null r' = .ok r' := by
  have hboth := h d .null r
  rw [hread, hidle] at hboth
  change (g.read .null r').toOption = (f.read d r).toOption at hboth
  rw [hread] at hboth
  cases hg : g.read .null r' with
  | error e =>
    rw [hg] at hboth
    cases hboth
  | ok r'' =>
    rw [hg] at hboth
    cases hboth
    rfl

@[simp]
theorem commutes_of {name name' : String} {dec : Decoder α} {dec' : Decoder β} {put : α → σ → σ}
    {put' : β → σ → σ} {absence absence' : Absence}
    (h : ∀ a b r, put' b (put a r) = put a (put' b r)) :
    (RecordField.of name dec put absence).Commutes (.of name' dec' put' absence') := by
  intro d e r
  change ((dec d).map fun a => put a r).toOption.bind
      (fun r => ((dec' e).map fun b => put' b r).toOption) =
    ((dec' e).map fun b => put' b r).toOption.bind fun r => ((dec d).map fun a => put a r).toOption
  cases dec d with
  | error _ => cases dec' e <;> rfl
  | ok a =>
    cases dec' e with
    | error _ => rfl
    | ok b => exact congrArg some (h a b r)

end RecordField

namespace Shape

variable (shape : Shape σ)

/-- Whether the fields of a record have different names and can be read in any order. -/
structure IsUnordered : Prop where
  names : (shape.fields.map RecordField.name).Nodup
  fields : shape.fields.Pairwise RecordField.Commutes

def readWritten (r : σ) (m : Option String × Document) : Except Fault σ :=
  match m.1 with
  | none => .error .malformed
  | some name =>
    match shape.field? name with
    | none => .ok r
    | some f => f.read m.2 r

def fieldsOf (members : List (Option String × Document)) : List String :=
  members.filterMap fun m => m.1.filter fun name => (shape.field? name).isSome

variable {shape}

theorem IsUnordered.commutes (hshape : shape.IsUnordered) {f g : RecordField σ}
    (hf : f ∈ shape.fields) (hg : g ∈ shape.fields) (hne : f.name ≠ g.name) : f.Commutes g := by
  have : Std.Symm (@RecordField.Commutes σ) := ⟨fun _ _ h => h.symm⟩
  exact hshape.fields.forall hf hg fun he => hne (he ▸ rfl)

section Order

variable {members members' : List (Option String × Document)}

theorem readWritten_of_none {name : String} (h : shape.field? name = none) (d : Document) (r : σ) :
    shape.readWritten r (some name, d) = .ok r := by
  simp only [readWritten, h]

theorem readWritten_of_some {name : String} {f : RecordField σ} (h : shape.field? name = some f)
    (d : Document) (r : σ) : shape.readWritten r (some name, d) = f.read d r := by
  simp only [readWritten, h]

theorem fieldsOf_cons_of_none {name : String} (h : shape.field? name = none) (d : Document) :
    shape.fieldsOf ((some name, d) :: members) = shape.fieldsOf members := by
  have hfilter : (some name).filter (fun name => (shape.field? name).isSome) = none := by simp [h]
  simp only [fieldsOf, List.filterMap_cons, hfilter]

theorem fieldsOf_cons_of_some {name : String} {f : RecordField σ} (h : shape.field? name = some f)
    (d : Document) :
    shape.fieldsOf ((some name, d) :: members) = name :: shape.fieldsOf members := by
  have hfilter : (some name).filter (fun name => (shape.field? name).isSome) = some name := by
    simp [h]
  simp only [fieldsOf, List.filterMap_cons, hfilter]

theorem readMembers_of_none {name : String} (h : shape.field? name = none) (d : Document)
    (seen : List String) (r : σ) :
    shape.readMembers ((some name, d) :: members) seen r = shape.readMembers members seen r := by
  simp only [readMembers, h]

theorem readMembers_of_seen {name : String} {f : RecordField σ} (h : shape.field? name = some f)
    {seen : List String} (hseen : name ∈ seen) (d : Document) (r : σ) :
    shape.readMembers ((some name, d) :: members) seen r =
      .error (.mismatch (.duplicateField name)) := by
  simp [readMembers, h, hseen]

theorem readMembers_of_some {name : String} {f : RecordField σ} (h : shape.field? name = some f)
    {seen : List String} (hseen : name ∉ seen) (d : Document) (r : σ) :
    shape.readMembers ((some name, d) :: members) seen r =
      f.read d r >>= shape.readMembers members (name :: seen) := by
  simp [readMembers, h, hseen]

theorem readMembers_eq_ok_iff {seen seen' : List String} {r r' : σ} :
    shape.readMembers members seen r = .ok (seen', r') ↔
      seen' = (shape.fieldsOf members).reverse ++ seen ∧
        ((shape.fieldsOf members).Nodup ∧ ∀ name ∈ shape.fieldsOf members, name ∉ seen) ∧
        members.foldlM shape.readWritten r = .ok r' := by
  induction members generalizing seen r with
  | nil =>
    simp only [readMembers, fieldsOf, List.filterMap_nil, List.foldlM_nil, pure, Except.pure,
      Except.ok.injEq, Prod.mk.injEq]
    simp [eq_comm]
  | cons m rest ih =>
    obtain ⟨_ | name, d⟩ := m
    · simp [readMembers, readWritten, bind, Except.bind]
    rw [List.foldlM_cons]
    cases hfield : shape.field? name with
    | none =>
      rw [readMembers_of_none hfield, fieldsOf_cons_of_none hfield, readWritten_of_none hfield]
      exact ih
    | some f =>
      rw [fieldsOf_cons_of_some hfield, readWritten_of_some hfield]
      by_cases hseen : name ∈ seen
      · simp [readMembers_of_seen hfield hseen, hseen]
      rw [readMembers_of_some hfield hseen]
      cases hread : f.read d r with
      | error e => simp [bind, Except.bind]
      | ok r₁ =>
        refine ih.trans ?_
        simp only [List.reverse_cons, List.append_assoc, List.singleton_append,
          List.nodup_cons, List.mem_cons, not_or, forall_eq_or_imp, bind, Except.bind]
        refine and_congr_right fun _ => and_congr_left fun _ => ?_
        constructor
        · rintro ⟨hnodup, hapart⟩
          exact ⟨⟨fun hname => (hapart name hname).1 rfl, hnodup⟩, hseen,
            fun name' h => (hapart name' h).2⟩
        · rintro ⟨⟨hname, hnodup⟩, -, hapart⟩
          exact ⟨hnodup, fun name' h => ⟨fun he => hname (he ▸ h), hapart name' h⟩⟩

theorem toOption_foldlM (r : σ) : (members.foldlM shape.readWritten r).toOption =
    members.foldl (fun r? m => r?.bind fun r => (shape.readWritten r m).toOption) (some r) := by
  have hnone : ∀ members : List (Option String × Document),
      members.foldl (fun r? m => r?.bind fun r => (shape.readWritten r m).toOption) none =
        none := by
    intro members
    induction members with
    | nil => rfl
    | cons m rest ih => exact ih
  induction members generalizing r with
  | nil => rfl
  | cons m rest ih =>
    rw [List.foldlM_cons, List.foldl_cons, Option.bind_some]
    cases shape.readWritten r m with
    | error e => exact (hnone rest).symm
    | ok r' => exact ih r'

theorem readWritten_comm (hshape : shape.IsUnordered) {m m' : Option String × Document}
    (hne : ∀ name, m.1 = some name → m'.1 = some name → shape.field? name = none) (r : σ) :
    (shape.readWritten r m).toOption.bind (fun r => (shape.readWritten r m').toOption) =
      (shape.readWritten r m').toOption.bind fun r => (shape.readWritten r m).toOption := by
  obtain ⟨_ | name, d⟩ := m
  · simp [readWritten, Except.toOption]
  obtain ⟨_ | name', d'⟩ := m'
  · simp [readWritten, Except.toOption]
  cases hfield : shape.field? name with
  | none => simp [readWritten_of_none hfield, Except.toOption]
  | some f =>
    cases hfield' : shape.field? name' with
    | none => simp [readWritten_of_none hfield', Except.toOption]
    | some g =>
      obtain ⟨hf, rfl⟩ := mem_of_field? hfield
      obtain ⟨hg, rfl⟩ := mem_of_field? hfield'
      simp only [readWritten_of_some hfield, readWritten_of_some hfield']
      refine hshape.commutes hf hg (fun he => ?_) d d' r
      rw [hne f.name rfl (congrArg some he.symm)] at hfield
      cases hfield

theorem foldlM_perm (hshape : shape.IsUnordered) (hperm : members.Perm members')
    (hnodup : (shape.fieldsOf members).Nodup) (r : σ) :
    (members.foldlM shape.readWritten r).toOption =
      (members'.foldlM shape.readWritten r).toOption := by
  rw [toOption_foldlM, toOption_foldlM]
  have hsymm : Std.Symm fun m m' : Option String × Document =>
      ∀ name, m.1 = some name → m'.1 = some name → shape.field? name = none :=
    ⟨fun _ _ h name hm hm' => h name hm' hm⟩
  have hapart : members.Pairwise fun m m' =>
      ∀ name, m.1 = some name → m'.1 = some name → shape.field? name = none := by
    refine (List.pairwise_filterMap.1 hnodup).imp fun {m m'} h name hm hm' => ?_
    by_contra hsome
    have hfield : (some name).filter (fun name => (shape.field? name).isSome) = some name := by
      simpa [Option.isSome_iff_ne_none] using hsome
    exact h name (by rw [hm, hfield]) name (by rw [hm', hfield]) rfl
  refine hperm.foldl_eq' (fun m hm m' hm' r? => ?_) (some r)
  cases r? with
  | none => rfl
  | some r =>
    by_cases hmm' : m = m'
    · rw [hmm']
    · exact readWritten_comm hshape (hapart.forall hm hm' hmm') r

theorem ofMembers_eq_ok_iff {r : σ} : shape.ofMembers members = .ok r ↔
    ((shape.fieldsOf members).Nodup ∧
      ∀ f ∈ shape.fields, f.absence = .required → f.name ∈ shape.fieldsOf members) ∧
      members.foldlM shape.readWritten shape.blank = .ok r := by
  have hfind : ∀ seen : List String,
      shape.fields.find? (fun f => f.absence = .required && !seen.contains f.name) = none ↔
        ∀ f ∈ shape.fields, f.absence = .required → f.name ∈ seen := by
    simp [List.find?_eq_none]
  rw [ofMembers]
  constructor
  · intro h
    cases hread : shape.readMembers members [] shape.blank with
    | error e =>
      rw [hread] at h
      cases h
    | ok p =>
      obtain ⟨seen, r'⟩ := p
      rw [hread] at h
      obtain ⟨rfl, ⟨hnodup, -⟩, hfold⟩ := readMembers_eq_ok_iff.1 hread
      simp only [bind, Except.bind] at h
      split at h
      · cases h
      · rename_i hnone
        cases h
        refine ⟨⟨hnodup, fun f hf hrequired => ?_⟩, hfold⟩
        simpa using (hfind _).1 hnone f hf hrequired
  · rintro ⟨⟨hnodup, hrequired⟩, hfold⟩
    have hread : shape.readMembers members [] shape.blank =
        .ok ((shape.fieldsOf members).reverse ++ [], r) :=
      readMembers_eq_ok_iff.2 ⟨rfl, ⟨hnodup, fun _ _ => List.not_mem_nil⟩, hfold⟩
    have hnone := (hfind ((shape.fieldsOf members).reverse ++ [])).2 (by simpa using hrequired)
    simp only [hread, bind, Except.bind, hnone]
    rfl

theorem ofMembers_perm (hshape : shape.IsUnordered) (hperm : members.Perm members') {r : σ}
    (h : shape.ofMembers members = .ok r) : shape.ofMembers members' = .ok r := by
  obtain ⟨⟨hnodup, hrequired⟩, hfold⟩ := ofMembers_eq_ok_iff.1 h
  have hfields : (shape.fieldsOf members).Perm (shape.fieldsOf members') := hperm.filterMap _
  refine ofMembers_eq_ok_iff.2 ⟨⟨hfields.nodup_iff.1 hnodup, fun f hf hf' => ?_⟩, ?_⟩
  · exact hfields.mem_iff.1 (hrequired f hf hf')
  · have hsame := foldlM_perm hshape hperm hnodup shape.blank
    rw [hfold] at hsame
    cases hfold' : members'.foldlM shape.readWritten shape.blank with
    | error e =>
      rw [hfold'] at hsame
      cases hsame
    | ok r' =>
      rw [hfold'] at hsame
      cases hsame
      rfl

end Order

section Nulls

variable {members members' : List (Option String × Document)} {added : List String}

theorem readMembers_filter (hshape : shape.IsUnordered)
    (hnull : ∀ m ∈ members', m.1 ∈ added.map some → m.2 = .null)
    (honce : members'.Pairwise fun m m' => m.1 ∈ added.map some → m.1 ≠ m'.1) {seen : List String}
    (hseen : ∀ m ∈ members', ∀ name ∈ added, m.1 = some name → name ∉ seen) {r : σ}
    (hidle : ∀ f ∈ shape.fields, f.name ∈ added → f.read .null r = .ok r) :
    (shape.readMembers members' seen r).map (fun p => (p.1.filter (· ∉ added), p.2)) =
      shape.readMembers (members'.filter fun m => m.1 ∉ added.map some)
        (seen.filter (· ∉ added)) r := by
  induction members' generalizing seen r with
  | nil => rfl
  | cons m rest ih =>
    obtain ⟨name?, d⟩ := m
    have hnull' := fun m hm => hnull m (List.mem_cons_of_mem _ hm)
    have hseen' := fun m hm => hseen m (List.mem_cons_of_mem _ hm)
    obtain ⟨hfirst, honce'⟩ := List.pairwise_cons.1 honce
    have hlater : ∀ name', (∀ m ∈ rest, name' ∈ added → m.1 ≠ some name') →
        ∀ m ∈ rest, ∀ name ∈ added, m.1 = some name → name ∉ name' :: seen := by
      intro name' hapart m hm name hname hm'
      rw [List.mem_cons, not_or]
      exact ⟨fun he => hapart m hm (he ▸ hname) (he ▸ hm'), hseen' m hm name hname hm'⟩
    cases name? with
    | none =>
      rw [List.filter_cons_of_pos (by simp)]
      rfl
    | some name =>
      by_cases hname : name ∈ added
      · -- An added null is passed over: its field is not seen before or behind it.
        have hmem : some name ∈ added.map some := List.mem_map_of_mem hname
        obtain rfl : d = .null := hnull _ List.mem_cons_self hmem
        rw [List.filter_cons_of_neg (by simpa using hmem)]
        cases hfield : shape.field? name with
        | none =>
          rw [readMembers_of_none hfield]
          exact ih hnull' honce' hseen' hidle
        | some f =>
          obtain ⟨hf, rfl⟩ := mem_of_field? hfield
          have hnew := hseen _ List.mem_cons_self f.name hname rfl
          have hrest := ih hnull' honce'
            (hlater f.name fun m hm _ he => hfirst m hm hmem he.symm) hidle
          rw [List.filter_cons_of_neg (by simpa using hname)] at hrest
          rw [readMembers_of_some hfield hnew, hidle f hf hname]
          exact hrest
      · -- Another member is read on both sides, and leaves the fields of the nulls idle.
        have hmem : some name ∉ added.map some := by simpa using hname
        rw [List.filter_cons_of_pos (by simpa using hmem)]
        cases hfield : shape.field? name with
        | none =>
          rw [readMembers_of_none hfield, readMembers_of_none hfield]
          exact ih hnull' honce' hseen' hidle
        | some f =>
          obtain ⟨hf, rfl⟩ := mem_of_field? hfield
          by_cases hold : f.name ∈ seen
          · rw [readMembers_of_seen hfield hold,
              readMembers_of_seen hfield (List.mem_filter.2 ⟨hold, by simpa using hname⟩)]
            rfl
          rw [readMembers_of_some hfield hold,
            readMembers_of_some hfield fun h => hold (List.mem_filter.1 h).1]
          cases hread : f.read d r with
          | error e => rfl
          | ok r' =>
            have hidle' : ∀ g ∈ shape.fields, g.name ∈ added → g.read .null r' = .ok r' := by
              intro g hg hg'
              have hne : f.name ≠ g.name := fun he => hname (he ▸ hg')
              exact (hshape.commutes hf hg hne).read_null hread (hidle g hg hg')
            have hrest := ih hnull' honce'
              (hlater f.name fun _ _ hadded => absurd hadded hname) hidle'
            rw [List.filter_cons_of_pos (by simpa using hname)] at hrest
            exact hrest

theorem ofMembers_of_addsNulls (hshape : shape.IsUnordered) (h : AddsNulls added members members')
    (hadded : ∀ f ∈ shape.fields, f.name ∈ added →
      f.absence ≠ .required ∧ f.read .null shape.blank = .ok shape.blank) :
    shape.ofMembers members' = shape.ofMembers members := by
  have hnew : ∀ m ∈ members', ∀ name ∈ added, m.1 = some name → name ∉ [] :=
    fun _ _ _ _ _ => List.not_mem_nil
  have hread := readMembers_filter hshape h.null h.once hnew fun f hf hf' => (hadded f hf hf').2
  rw [h.others, List.filter_nil] at hread
  rw [ofMembers, ofMembers, ← hread]
  cases shape.readMembers members' [] shape.blank with
  | error e => rfl
  | ok p =>
    obtain ⟨seen, r⟩ := p
    have hmissing : shape.fields.find? (fun f => f.absence = .required &&
          !(seen.filter (· ∉ added)).contains f.name) =
        shape.fields.find? (fun f => f.absence = .required && !seen.contains f.name) := by
      refine List.find?_congr fun f hf => ?_
      by_cases hname : f.name ∈ added
      · simp [(hadded f hf hname).1]
      · simp [hname]
    simp only [Except.map, bind, Except.bind, hmissing]

theorem addsNulls_append {name : String} (h : Keyed.get? (some name) members = none) :
    AddsNulls [name] members (members ++ [(some name, .null)]) := by
  have habsent := Keyed.get?_eq_none_iff.1 h
  have hothers : ∀ m ∈ members, m.1 ∉ [name].map some := fun m hm => by simpa using habsent m hm
  constructor
  · rw [List.filter_append, List.filter_eq_self.2 (by simpa using habsent)]
    simp
  · intro m hm hname
    obtain hm | hm := List.mem_append.1 hm
    · exact absurd hname (hothers m hm)
    · rw [List.mem_singleton.1 hm]
  · refine List.pairwise_append.2 ⟨?_, List.pairwise_singleton _ _, fun m hm _ _ hname => ?_⟩
    · exact List.pairwise_of_forall_mem_list fun m hm _ _ hname => absurd hname (hothers m hm)
    · exact absurd hname (hothers m hm)

end Nulls

section Value

variable {name : String} {default : α} {dec : Decoder α} {put : α → σ → σ} {get : σ → α}

theorem get_of_last (hshape : shape.IsUnordered)
    (hfield : .of name (Decoder.orDefault default dec) put .default ∈ shape.fields)
    (hget : ∀ a r, get (put a r) = a) {members : List (Option String × Document)} {d : Document}
    {r : σ} (h : shape.ofMembers (members ++ [(some name, d)]) = .ok r) :
    Decoder.orDefault default dec d = .ok (get r) := by
  obtain ⟨-, hfold⟩ := ofMembers_eq_ok_iff.1 h
  have hname : shape.field? name = some _ := field?_eq_some hshape.names hfield
  rw [List.foldlM_append] at hfold
  cases hbefore : members.foldlM shape.readWritten shape.blank with
  | error e =>
    rw [hbefore] at hfold
    cases hfold
  | ok r₀ =>
    rw [hbefore] at hfold
    change [(some name, d)].foldlM shape.readWritten r₀ = .ok r at hfold
    rw [List.foldlM_cons, readWritten_of_some hname] at hfold
    simp only [List.foldlM_nil, bind_pure] at hfold
    change (Decoder.orDefault default dec d).map (fun a => put a r₀) = .ok r at hfold
    cases hdec : Decoder.orDefault default dec d with
    | error e =>
      rw [hdec] at hfold
      cases hfold
    | ok a =>
      rw [hdec] at hfold
      cases hfold
      rw [hget]

theorem valueUnder_of_ofMembers (hshape : shape.IsUnordered)
    (hfield : .of name (Decoder.orDefault default dec) put .default ∈ shape.fields)
    (hget : ∀ a r, get (put a r) = a) (hblank : put default shape.blank = shape.blank)
    {members : List (Option String × Document)} {r : σ} (h : shape.ofMembers members = .ok r) :
    valueUnder name default dec members = .ok (get r) := by
  -- The order does not matter, so that the member may stand last, as null if it was absent.
  cases hmember : Keyed.get? (some name) members with
  | some d =>
    obtain ⟨before, behind, rfl⟩ := List.append_of_mem (Keyed.mem_of_get? hmember)
    have hperm : (before ++ (some name, d) :: behind).Perm (before ++ behind ++ [(some name, d)]) :=
      List.perm_middle.trans (List.perm_append_singleton _ _).symm
    rw [valueUnder_of_get? hmember]
    exact get_of_last hshape hfield hget (ofMembers_perm hshape hperm h)
  | none =>
    have hidle : ∀ f ∈ shape.fields, f.name ∈ [name] →
        f.absence ≠ .required ∧ f.read .null shape.blank = .ok shape.blank := by
      intro f hf hname
      have hsame := field?_eq_some hshape.names hf
      rw [List.mem_singleton.1 hname] at hsame
      obtain rfl := Option.some.inj (hsame.symm.trans (field?_eq_some hshape.names hfield))
      exact ⟨nofun, congrArg Except.ok hblank⟩
    have hnull := ofMembers_of_addsNulls hshape (addsNulls_append hmember) hidle
    rw [valueUnder, hmember]
    exact get_of_last hshape hfield hget (hnull.trans h)

end Value

theorem ofMembers_congr {members members' : List (Option String × Document)}
    (h : List.Forall₂ (fun m m' => m.1 = m'.1 ∧
      ∀ f ∈ shape.fields, m.1 = some f.name → f.read m.2 = f.read m'.2) members members') :
    shape.ofMembers members = shape.ofMembers members' := by
  have hread : ∀ seen r, shape.readMembers members seen r = shape.readMembers members' seen r := by
    induction h with
    | nil => exact fun _ _ => rfl
    | @cons m m' rest rest' hm _ ih =>
      intro seen r
      obtain ⟨name?, d⟩ := m
      obtain ⟨_, d'⟩ := m'
      obtain ⟨rfl, hsame⟩ := hm
      cases name? with
      | none => rfl
      | some name =>
        rw [readMembers, readMembers]
        cases hfield : shape.field? name with
        | none => exact ih seen r
        | some f =>
          obtain ⟨hf, rfl⟩ := mem_of_field? hfield
          have hfirst : f.read d = f.read d' := hsame f hf rfl
          simp only [hfirst, ih]
  rw [ofMembers, ofMembers, hread]

end Shape

theorem Decoder.members_congr {dec : Decoder α} {members members' : List (Option String × Document)}
    (h : List.Forall₂ (fun m m' => m.1 = m'.1 ∧ dec m.2 = dec m'.2) members members')
    (t : Table String α) : Decoder.members dec members t = Decoder.members dec members' t := by
  induction h generalizing t with
  | nil => rfl
  | @cons m m' rest rest' hm _ ih =>
    obtain ⟨name?, d⟩ := m
    obtain ⟨_, d'⟩ := m'
    obtain ⟨rfl, hsame⟩ := hm
    cases name? with
    | none => rfl
    | some name => simp only [Decoder.members, hsame, ih]

end QaLake.Json
