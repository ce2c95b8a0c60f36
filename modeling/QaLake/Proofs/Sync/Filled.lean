import QaLake.Proofs.Domain.Identifiers
import QaLake.Proofs.Keyed.LastPer
import QaLake.Proofs.Sync.Completeness
import QaLake.Proofs.Sync.History

namespace QaLake

open Store

namespace Store

section Streamed

variable {ρ : Type} [Streamed ρ] {tool : ToolTables} {scope : RunScope} {rows : List ρ}

def Streamed.id (r : ρ) : Int :=
  (Streamed.key r).id

def Streamed.IsOf (scope : RunScope) (r : ρ) : Prop :=
  (Streamed.key r).connection = scope.connection ∧ Streamed.project r = scope.project ∧
    Streamed.reread r = r

variable [LawfulStreamed ρ]

theorem streamed_ascending (tool : ToolTables) (scope : RunScope) :
    (tool.streamed ρ scope).Pairwise fun a b => Streamed.id a < Streamed.id b := by
  refine List.pairwise_map.2 (List.Pairwise.imp ?_ ((rowsOf_ascending ρ tool scope).filter _))
  intro a b h
  rwa [Streamed.id, Streamed.id, LawfulStreamed.key_reread, LawfulStreamed.key_reread]

theorem get?_of_find? (hfind : ∀ n, n.kind = Streamed.kind ρ →
      tool.find? n = lastUnder Tool.Row.name (rows.map Streamed.toRow) n) (k : RowKey Int) :
    (Streamed.table (ρ := ρ) tool).get? k = lastUnder Streamed.key rows k := by
  apply Option.map_injective fun a b => LawfulStreamed.toRow_inj a b
  have hk := hfind ⟨Streamed.kind ρ, k.connection, .inl k.id⟩ rfl
  rw [LawfulStreamed.find?_eq] at hk
  rw [hk]
  apply lastUnder_map
  intro r hr
  rw [LawfulStreamed.name_toRow]
  obtain ⟨connection, id⟩ := k
  obtain ⟨connection', id'⟩ := Streamed.key r
  simp

omit [LawfulStreamed ρ] in
theorem lastPer_key (hscope : ∀ r ∈ rows, Streamed.IsOf scope r) :
    lastPer Streamed.key rows = lastPer Streamed.id rows := by
  refine lastPer_congr fun a ha b hb => ⟨fun he => congrArg RowKey.id he, fun he => ?_⟩
  have hkey : ∀ k k' : RowKey Int, k.connection = k'.connection → k.id = k'.id → k = k' := by
    rintro ⟨connection, id⟩ ⟨connection', id'⟩ rfl rfl
    rfl
  exact hkey _ _ ((hscope a ha).1.trans (hscope b hb).1.symm) he

/-- If the last of some rows of a scope is found under each name, these are the rows streamed. -/
theorem streamed_perm (hfind : ∀ n, n.kind = Streamed.kind ρ →
      tool.find? n = lastUnder Tool.Row.name (rows.map Streamed.toRow) n)
    (hscope : ∀ r ∈ rows, Streamed.IsOf scope r)
    (hids : ∀ r ∈ lastPer Streamed.id rows, 0 < Streamed.id r) :
    (tool.streamed ρ scope).Perm (lastPer Streamed.id rows) := by
  have hrows := RowTable.perm_lastPer (get?_of_find? hfind)
  rw [lastPer_key hscope] at hrows
  have hall : (lastPer Streamed.id rows).filter (fun r =>
      (Streamed.key r).connection == scope.connection && Streamed.project r == scope.project) =
        lastPer Streamed.id rows := by
    rw [List.filter_eq_self]
    intro r hr
    obtain ⟨hconnection, hproject, -⟩ := hscope r (mem_of_mem_lastPer hr)
    simp [hconnection, hproject]
  have hpositive : (lastPer Streamed.id rows).filter (fun r => 0 < (Streamed.key r).id) =
      lastPer Streamed.id rows :=
    List.filter_eq_self.2 fun r hr => decide_eq_true (hids r hr)
  have hreread : (lastPer Streamed.id rows).map Streamed.reread = lastPer Streamed.id rows :=
    (List.map_congr_left fun r hr => (hscope r (mem_of_mem_lastPer hr)).2.2).trans
      (List.map_id' _)
  have hstreamed : (tool.streamed ρ scope).Perm ((((lastPer Streamed.id rows).filter fun r =>
      (Streamed.key r).connection == scope.connection && Streamed.project r ==
        scope.project).filter fun r => 0 < (Streamed.key r).id).map Streamed.reread) :=
    ((hrows.filter _).filter _).map _
  rwa [hall, hpositive, hreread] at hstreamed

theorem pairwise_ne_of_streamed {δ : Type} {f : ρ → Option δ} {id : δ → String} (kind : EntityKind)
    (hid : ∀ r d, f r = some d →
      id d = Domain.idOf kind (Streamed.key r).connection (Streamed.id r)) :
    ((tool.streamed ρ scope).filterMap f).Pairwise fun a b => id a ≠ id b := by
  refine List.pairwise_filterMap.2 (List.Pairwise.imp_of_mem ?_ (streamed_ascending tool scope))
  intro r r' hr hr' hlt d hd d' hd' he
  rw [hid r d hd, hid r' d' hd', (scope_of_mem_streamed hr).1,
    (scope_of_mem_streamed hr').1] at he
  exact absurd (Domain.idOf_injective he) (Int.ne_of_lt hlt)

end Streamed

end Store

namespace RunContext

variable {cat : Catalogue} {ctx : RunContext} {gives : Request → Json → Prop}
  {order : List Visit → List Visit → Prop} {url : Request → String} {t₀ t : Tables}
  {kind : EntityKind}

/-- Every step of a run of all of them is reported, and can be told from the tables behind it. -/
theorem report?_of_all {done : List Done} {report : RunReport}
    (h : ctx.Runs gives order url t₀ done t)
    (hall : done.map Done.subtask = Subtask.inOrder Subtask.all)
    (hsteps : report.steps = done.map Done.report) (s : Subtask) :
    ∃ o n, report.report? s = some ⟨s, o⟩ ∧ ctx.Holds gives order url t₀ s t o n := by
  have hspares : (done.map Done.subtask).Pairwise Subtask.Spares :=
    hall ▸ Subtask.inOrder_spares Subtask.all
  have hs : s ∈ done.map Done.subtask := by
    rw [hall, Subtask.inOrder, List.mem_filter]
    exact ⟨s.mem_all, by simp [s.mem_all]⟩
  obtain ⟨d', hd', hs'⟩ := List.mem_map.1 hs
  have hfound : (done.find? fun d => d.subtask == s).isSome = true :=
    List.find?_isSome.2 ⟨d', hd', by simpa using hs'⟩
  obtain ⟨d, hd⟩ := Option.isSome_iff_exists.1 hfound
  obtain rfl : d.subtask = s := by simpa using List.find?_some hd
  refine ⟨d.outcome, d.requests, ?_, ?_⟩
  · rw [RunReport.report?, hsteps, List.find?_map]
    exact congrArg (Option.map Done.report) hd
  · exact h.holds hspares (fun _ _ _ _ => Place.Same.refl t₀) d (List.mem_of_find?_eq_some hd)

theorem holds_of_all {done : List Done} (h : ctx.Runs gives order url t₀ done t)
    (hall : done.map Done.subtask = Subtask.inOrder Subtask.all) (s : Subtask) :
    ∃ o n, ctx.Holds gives order url t₀ s t o n := by
  have hsteps : (⟨done.map Done.report, none⟩ : RunReport).steps = done.map Done.report := rfl
  obtain ⟨o, n, -, hholds⟩ := report?_of_all h hall hsteps s
  exact ⟨o, n, hholds⟩

def describedRows (ctx : RunContext) (kind : EntityKind) (p : Json × Option Json) : List Tool.Row :=
  ((Tool.rowsOfRecord kind ctx.scope p.1.text (p.2.map Json.text)).toOption).getD []

def stagedTexts (ctx : RunContext) (t : Tables) (kind : EntityKind) : List RecordTexts :=
  match kind.stagingName with
  | none => []
  | some table => (t.staging.contents table ctx.scope.tag).filterMap Entry.texts?

theorem stagedTexts_of_mapM {table : String} {texts : List RecordTexts}
    (htable : kind.stagingName = some table)
    (h : (t.staging.contents table ctx.scope.tag).mapM Entry.texts? = some texts) :
    ctx.stagedTexts t kind = texts := by
  simp only [stagedTexts, htable]
  exact filterMap_of_mapM h

theorem find?_of_staged (ht₀ : t₀.tool = .empty)
    (hholds : ∀ s : Subtask, ∃ o n, ctx.Holds gives order url t₀ s t o n)
    (hkind : kind.hasPhase .extract = true) {n : Tool.RowName} (hn : n.kind ∈ kind.described) :
    t.tool.find? n = lastUnder Tool.Row.name
      ((ctx.stagedTexts t kind).flatMap (ctx.rowsRead kind)) n := by
  obtain ⟨o, requests, hextract⟩ := hholds ⟨.extract, kind, hkind⟩
  cases hextract with
  | collect hphase => cases hphase
  | convert hphase => cases hphase
  | extract hphase htable htexts hread hrows =>
    have hnone : t₀.tool.find? n = none := by
      rw [ht₀]
      exact ToolTables.find?_empty n
    rw [hrows n hn, hnone, Option.or_none, ctx.flatMap_of_readRecord hread,
      stagedTexts_of_mapM htable htexts]

theorem stagedTexts_of_all (hserved : ∀ r j, gives r j → cat.Answers r j)
    (hnumber : ∀ path, ∀ j ∈ cat.under path, j.isNumber = false)
    (hholds : ∀ s : Subtask, ∃ o n, ctx.Holds gives Eq url t₀ s t o n)
    (hkind : kind.hasPhase .collect = true) :
    ctx.stagedTexts t kind =
      (cat.served ctx t.tool kind).map fun p => (p.1.text, p.2.map Json.text) := by
  obtain ⟨o, requests, hcollect⟩ := hholds ⟨.collect, kind, hkind⟩
  cases hcollect with
  | extract hphase => cases hphase
  | convert hphase => cases hphase
  | @collect table listing visits hphase htable hvisits hcontents =>
    have hpairs := Catalogue.pairs_of_collects (hvisits.mono hserved)
      (by simpa [EntityKind.hasPhase] using hkind)
    apply stagedTexts_of_mapM htable
    rw [hcontents, ← hpairs]
    apply Visit.texts_entries
    intro p hp
    rw [hpairs] at hp
    obtain ⟨⟨path, hpath⟩, hinput⟩ := Catalogue.mem_under_of_mem_served hp
    refine ⟨hnumber path _ hpath, fun j hj => ?_⟩
    obtain ⟨id, rfl⟩ := hinput j hj
    rfl

theorem find?_of_all (hserved : ∀ r j, gives r j → cat.Answers r j)
    (hnumber : ∀ path, ∀ j ∈ cat.under path, j.isNumber = false) (ht₀ : t₀.tool = .empty)
    (hholds : ∀ s : Subtask, ∃ o n, ctx.Holds gives Eq url t₀ s t o n)
    (hkind : kind ≠ .planEntry) {n : Tool.RowName} (hn : n.kind ∈ kind.described) :
    t.tool.find? n = lastUnder Tool.Row.name
      ((cat.served ctx t.tool kind).flatMap (ctx.describedRows kind)) n := by
  rw [find?_of_staged ht₀ hholds (by simpa [EntityKind.hasPhase] using hkind) hn,
    stagedTexts_of_all hserved hnumber hholds (by simpa [EntityKind.hasPhase] using hkind),
    List.flatMap_map]
  rfl

theorem domain_find?_of_all (ht₀ : t₀.domain = .empty)
    (hholds : ∀ s : Subtask, ∃ o n, ctx.Holds gives order url t₀ s t o n)
    (hvalid : kind.hasPhase .convert = true) {n : Domain.Kind × String}
    (hn : n.1 ∈ kind.convertedKinds) :
    t.domain.find? n = lastUnder (fun r => (r.kind, r.id))
      ((ctx.outcomes t.tool kind).filterMap Domain.Outcome.row?) n := by
  obtain ⟨o, requests, hconvert⟩ := hholds ⟨.convert, kind, hvalid⟩
  cases hconvert with
  | collect hphase => cases hphase
  | extract hphase => cases hphase
  | convert hphase hrows =>
    have hnone : t₀.domain.find? n = none := by
      rw [ht₀]
      exact DomainTables.find?_empty n
    rw [hrows n hn, hnone, Option.or_none]

/-- A domain table holds what becomes of the tool rows of its kind. Here `f` is the conversion of
these rows, and `wrap` makes the rows of the table rows of any kind. -/
theorem domain_perm (ht₀ : t₀.domain = .empty)
    (hholds : ∀ s : Subtask, ∃ o n, ctx.Holds gives order url t₀ s t o n) {ρ δ : Type} [Streamed ρ]
    [LawfulStreamed ρ] {id : δ → String} [Upserted id] {table : RowTable id}
    {wrap : δ → Domain.Row} {kind : Domain.Kind} {f : ρ → Option δ}
    (hvalid : (Streamed.kind ρ).hasPhase .convert = true)
    (hkind : kind ∈ (Streamed.kind ρ).convertedKinds)
    (hconverted : t.tool.converted ctx.scope (Streamed.kind ρ) =
      (t.tool.streamed ρ ctx.scope).map Streamed.toRow)
    (hconvert : ∀ r : ρ, (Domain.convert ctx.config (Streamed.toRow r)).row? = (f r).map wrap)
    (hwrap : ∀ a b, wrap a = wrap b → a = b)
    (hname : ∀ d, ((wrap d).kind, (wrap d).id) = (kind, id d))
    (hfind : ∀ k, t.domain.find? (kind, k) = (table.get? k).map wrap)
    (hid : ∀ r d, f r = some d →
      id d = Domain.idOf (Streamed.kind ρ) (Streamed.key r).connection (Streamed.id r)) :
    table.rows.Perm ((t.tool.streamed ρ ctx.scope).filterMap f) := by
  have hrows : (ctx.outcomes t.tool (Streamed.kind ρ)).filterMap Domain.Outcome.row? =
      ((t.tool.streamed ρ ctx.scope).filterMap f).map wrap := by
    rw [outcomes, hconverted, List.map_map, List.filterMap_map, List.map_filterMap]
    apply congrArg (List.filterMap · _)
    funext r
    exact hconvert r
  have hget : ∀ k, table.get? k =
      lastUnder id ((t.tool.streamed ρ ctx.scope).filterMap f) k := by
    intro k
    apply Option.map_injective hwrap
    have hk := domain_find?_of_all ht₀ hholds hvalid (n := (kind, k)) hkind
    rw [← hfind k, hk, hrows]
    apply lastUnder_map
    intro d hd
    rw [hname d]
    simp
  have hperm := RowTable.perm_lastPer hget
  rwa [lastPer_eq_self (pairwise_ne_of_streamed _ hid)] at hperm

end RunContext

end QaLake
