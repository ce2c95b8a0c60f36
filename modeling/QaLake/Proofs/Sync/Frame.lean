import QaLake.Proofs.Domain.Identifiers
import QaLake.Proofs.Sync.Completeness
import QaLake.Proofs.Sync.Writes

namespace QaLake

open Store Relation

variable {σ : Type}

/-- What may be written: staged records, by table and tag, tool rows and domain rows. -/
structure WriteSet where
  staged : String → String → Prop
  tool : Tool.Row → Prop
  domain : Domain.Row → Prop

namespace Store.Tables

/-- Whether tables come from others by writing within a set. -/
structure Within (W : WriteSet) (t u : Tables) : Prop where
  staged : ∀ table tag, ¬W.staged table tag →
    u.staging.rowsOf table tag = t.staging.rowsOf table tag
  tool : ∀ n, u.tool.find? n = t.tool.find? n ∨
    ∃ r, W.tool r ∧ r.name = n ∧ u.tool.find? n = some r
  domain : ∀ n, u.domain.find? n = t.domain.find? n ∨
    ∃ d, W.domain d ∧ (d.kind, d.id) = n ∧ u.domain.find? n = some d
  scopes : u.scopes = t.scopes

/-- Whether tables have a row wherever others have one. -/
structure Keep (t u : Tables) : Prop where
  tool : ∀ n, (t.tool.find? n).isSome = true → (u.tool.find? n).isSome = true
  domain : ∀ n, (t.domain.find? n).isSome = true → (u.domain.find? n).isSome = true

/-- Whether tables hold the same of a connection. -/
structure SameOn (connection : Int) (t u : Tables) : Prop where
  staged : ∀ table project, u.staging.rowsOf table (RunScope.tag ⟨connection, project⟩) =
    t.staging.rowsOf table (RunScope.tag ⟨connection, project⟩)
  tool : ∀ n : Tool.RowName, n.connection = connection → u.tool.find? n = t.tool.find? n
  domain : ∀ kind entity id, u.domain.find? (kind, domainId entity connection id) =
    t.domain.find? (kind, domainId entity connection id)

variable {W : WriteSet} {t u v : Tables}

theorem Within.refl (t : Tables) : t.Within W t :=
  ⟨fun _ _ _ => rfl, fun _ => .inl rfl, fun _ => .inl rfl, rfl⟩

theorem Within.trans (h : t.Within W u) (h' : u.Within W v) : t.Within W v := by
  refine ⟨fun table tag hout => ?_, fun n => ?_, fun n => ?_, h'.scopes.trans h.scopes⟩
  · rw [h'.staged table tag hout, h.staged table tag hout]
  · obtain hsame | hwritten := h'.tool n
    · rw [hsame]
      exact h.tool n
    · exact .inr hwritten
  · obtain hsame | hwritten := h'.domain n
    · rw [hsame]
      exact h.domain n
    · exact .inr hwritten

theorem within_of_reflTransGen {R : Tables → Tables → Prop} (hwithin : ∀ a b, R a b → a.Within W b)
    (h : ReflTransGen R t u) : t.Within W u := by
  induction h with
  | refl => exact Within.refl t
  | tail _ hlast ih => exact ih.trans (hwithin _ _ hlast)

theorem Within.keep (h : t.Within W u) : t.Keep u := by
  constructor
  · intro n hn
    obtain hsame | ⟨r, -, -, hr⟩ := h.tool n
    · rwa [hsame]
    · rw [hr, Option.isSome_some]
  · intro n hn
    obtain hsame | ⟨d, -, -, hd⟩ := h.domain n
    · rwa [hsame]
    · rw [hd, Option.isSome_some]

end Store.Tables

namespace Subtask

/-- What a step may write: the records staged for the kind and the scope, tool rows that belong to
the scope, or domain rows of the kind with identifiers of the connection. -/
def writeSet (s : Subtask) (scope : RunScope) : WriteSet where
  staged table tag := s.phase = .collect ∧ s.entity.stagingName = some table ∧ tag = scope.tag
  tool r := s.phase = .extract ∧ r.kind ∈ s.entity.described ∧ r.IsOf scope
  domain d := s.phase = .convert ∧ d.kind ∈ s.entity.convertedKinds ∧
    ∃ id, d.id = Domain.idOf s.entity scope.connection id

def writeSets (steps : List Subtask) (scope : RunScope) : WriteSet where
  staged table tag := ∃ s ∈ steps, (s.writeSet scope).staged table tag
  tool r := ∃ s ∈ steps, (s.writeSet scope).tool r
  domain d := ∃ s ∈ steps, (s.writeSet scope).domain d

variable {s : Subtask} {steps : List Subtask} {scope : RunScope} {t u : Tables}

theorem Write.within (h : s.Write scope t u) : t.Within (s.writeSet scope) u := by
  cases h with
  | @clear table hphase htable =>
    refine ⟨fun table' tag' hout => ?_, fun _ => .inl rfl, fun _ => .inl rfl, rfl⟩
    apply Staging.rowsOf_delete_of_ne
    rintro ⟨rfl, rfl⟩
    exact hout ⟨hphase, htable, rfl⟩
  | @page table hphase htable url input hinput records =>
    refine ⟨fun table' tag' hout => ?_, fun _ => .inl rfl, fun _ => .inl rfl, rfl⟩
    apply Staging.rowsOf_insertPage_of_ne
    rintro ⟨rfl, rfl⟩
    exact hout ⟨hphase, htable, rfl⟩
  | @tool r hphase hkind hscope =>
    refine ⟨fun _ _ _ => rfl, fun n => ?_, fun _ => .inl rfl, rfl⟩
    rw [ToolTables.find?_insert]
    by_cases hn : n = r.name
    · rw [if_pos hn]
      exact .inr ⟨r, ⟨hphase, hkind, hscope⟩, hn.symm, rfl⟩
    · exact .inl (if_neg hn)
  | @domain d hphase hkind hid =>
    refine ⟨fun _ _ _ => rfl, fun _ => .inl rfl, fun n => ?_, rfl⟩
    rw [DomainTables.find?_insert]
    by_cases hn : n = (d.kind, d.id)
    · rw [if_pos hn]
      exact .inr ⟨d, ⟨hphase, hkind, hid⟩, hn.symm, rfl⟩
    · exact .inl (if_neg hn)

theorem within_writeSets (hs : s ∈ steps) (h : t.Within (s.writeSet scope) u) :
    t.Within (writeSets steps scope) u := by
  refine ⟨fun table tag hout => ?_, fun n => ?_, fun n => ?_, h.scopes⟩
  · exact h.staged table tag fun hw => hout ⟨s, hs, hw⟩
  · obtain hsame | ⟨r, hr, hn⟩ := h.tool n
    · exact .inl hsame
    · exact .inr ⟨r, ⟨s, hs, hr⟩, hn⟩
  · obtain hsame | ⟨d, hd, hn⟩ := h.domain n
    · exact .inl hsame
    · exact .inr ⟨d, ⟨s, hs, hd⟩, hn⟩

theorem sameOn_of_within {connection : Int} (hother : connection ≠ scope.connection)
    (h : t.Within (writeSets steps scope) u) : t.SameOn connection u := by
  refine ⟨fun table project => ?_, fun n hn => ?_, fun kind entity id => ?_⟩
  · apply h.staged
    rintro ⟨s, -, -, -, htag⟩
    exact hother (congrArg RunScope.connection (RunScope.tag_injective htag))
  · obtain hsame | ⟨r, ⟨s, -, -, -, hscope⟩, hname, -⟩ := h.tool n
    · exact hsame
    · rw [← hname, Tool.Row.connection_name, hscope.connection] at hn
      exact absurd hn.symm hother
  · obtain hsame | ⟨d, ⟨s, -, -, -, i, hid⟩, hname, -⟩ :=
      h.domain (kind, domainId entity connection id)
    · exact hsame
    · have hids := (congrArg Prod.snd hname).symm.trans hid
      exact absurd (domainId_injective hids).2.1 hother

end Subtask

namespace RunContext

variable (ctx : RunContext) (client : Client σ)

/-- Every step stays within its write set, whether it succeeds or fails, and so does every run. No
row is gone behind them, and nothing of another connection is changed. -/
theorem stays_within {w : World σ} {t : Tables} (hw : w.database = .migrated t) :
    (∀ s : Subtask, ∃ u, ((ctx.runStep client s).runIn w).2.database = .migrated u ∧
      t.Within (s.writeSet ctx.scope) u ∧ t.Keep u) ∧
    ∀ selection : List Subtask, ∃ u,
      ((ctx.runSelection client selection).run w).2.database = .migrated u ∧
      t.Within (Subtask.writeSets (Subtask.inOrder selection) ctx.scope) u ∧ t.Keep u ∧
      ∀ connection, connection ≠ ctx.scope.connection → t.SameOn connection u := by
  constructor
  · intro s
    obtain ⟨u, hu, hmoves⟩ := ctx.moves_runStep client s w t hw
    have hwithin : t.Within (s.writeSet ctx.scope) u :=
      Tables.within_of_reflTransGen (fun _ _ hwrite => hwrite.within) hmoves
    exact ⟨u, hu, hwithin, hwithin.keep⟩
  · intro selection
    obtain ⟨u, hu, hmoves⟩ := ctx.moves_runSteps client (Subtask.inOrder selection) hw
    have hwithin : t.Within (Subtask.writeSets (Subtask.inOrder selection) ctx.scope) u := by
      apply Tables.within_of_reflTransGen _ hmoves
      rintro _ _ ⟨s, hs, hwrite⟩
      exact Subtask.within_writeSets hs hwrite.within
    refine ⟨u, hu, hwithin, hwithin.keep, fun connection hother => ?_⟩
    exact Subtask.sameOn_of_within hother hwithin

def tablesOfTwo : Tables :=
  { Tables.empty with
    staging := Staging.empty.insertPage "testrail_statuses" (RunScope.tag ⟨2, 7⟩) "" none [.obj []]
    tool := ToolTables.empty.insert (.status { connectionId := 2, id := 1, name := "passed" }) }

set_option maxRecDepth 100000 in
/-- A run on connection 1 that succeeds leaves the status of connection 2 and its staged record. -/
theorem stays_within_two :
    ((((inPagesOf 2 1).runSelection (smallProject.service id true) Subtask.all).run
        ⟨.migrated tablesOfTwo, (), [], 100, false⟩).1.failure.isNone = true) ∧
    ∃ u, (((inPagesOf 2 1).runSelection (smallProject.service id true) Subtask.all).run
        ⟨.migrated tablesOfTwo, (), [], 100, false⟩).2.database = .migrated u ∧
      u.tool.find? ⟨.status, 2, .inl 1⟩ =
        some (.status { connectionId := 2, id := 1, name := "passed" }) ∧
      (u.staging.rowsOf "testrail_statuses" (RunScope.tag ⟨2, 7⟩)).length = 1 := by
  refine ⟨by decide +kernel, ?_⟩
  obtain ⟨u, hu, -, -, hsame⟩ := (stays_within (inPagesOf 2 1) (smallProject.service id true)
    (w := ⟨.migrated tablesOfTwo, (), [], 100, false⟩) rfl).2 Subtask.all
  have htwo := hsame 2 (by decide)
  refine ⟨u, hu, ?_, ?_⟩
  · rw [htwo.tool _ rfl]
    rfl
  · rw [htwo.staged]
    decide +kernel

end RunContext

end QaLake
