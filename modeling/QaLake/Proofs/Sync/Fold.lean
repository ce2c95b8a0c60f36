import QaLake.Proofs.Store.Sources
import QaLake.Proofs.Sync.Action

namespace QaLake.Action

open Store

variable {σ β ρ κ : Type}

def foldRows (step : β → ρ → Action σ β) : List ρ → β → Action σ β
  | [], b => pure b
  | r :: rest, b => do
    checkCancelled
    let b ← step b r
    foldRows step rest b

theorem foldRows_append (step : β → ρ → Action σ β) (xs ys : List ρ) (b : β) :
    foldRows step (xs ++ ys) b = foldRows step xs b >>= foldRows step ys := by
  induction xs generalizing b with
  | nil => exact (pure_bind b _).symm
  | cons x xs ih =>
    rw [List.cons_append, foldRows, foldRows]
    simp only [ih, bind_assoc]

section Cursor

variable {source : Source ρ} {rows : List κ} {position : κ → Int} {read : κ → Option ρ}
  {P : World σ → Prop} {step : β → ρ → Action σ β}
  (hreads : ∀ w, P w → source.Reads w.database rows position read)
  (hstep : ∀ b r w, P w → P ((step b r).runIn w).2)

include hreads

theorem runIn_foldCursor_nil (n : Nat) {c : Store.Cursor ρ} (b : β) {w : World σ}
    (hw : P w) (hc : c.Awaits source rows position read []) :
    (foldCursor step n c b).runIn w = (.ok b, w) := by
  cases n with
  | zero => rfl
  | succ n =>
    obtain ⟨c', hnext⟩ := Cursor.next_of_pending_nil (hreads _ hw) hc
    rw [foldCursor, runIn_bind_of_ok (runIn_database w), hnext]
    rfl

include hstep

theorem runIn_foldCursor (n : Nat) {c : Store.Cursor ρ} {pending : List κ} {rs : List ρ} (b : β)
    {w : World σ} (hw : P w) (hc : c.Awaits source rows position read pending)
    (hn : pending.length < n) (hrs : pending.mapM read = some rs) :
    (foldCursor step n c b).runIn w = (foldRows step rs b).runIn w := by
  induction n generalizing c pending rs b w with
  | zero => exact absurd hn (Nat.not_lt_zero _)
  | succ n ih =>
    cases pending with
    | nil =>
      cases hrs
      exact runIn_foldCursor_nil hreads _ b hw hc
    | cons a pending =>
      obtain ⟨r, rest, hr, hrest, rfl⟩ := mapM_eq_some_cons hrs
      rcases Cursor.next_of_pending_cons (hreads _ hw) hc with
        ⟨r', c', hr', hnext, hc'⟩ | ⟨hnone, -⟩
      · obtain rfl : r = r' := Option.some.inj (hr.symm.trans hr')
        rw [foldCursor, runIn_bind_of_ok (runIn_database w), hnext, foldRows]
        simp only [runIn_bind, runIn_checkCancelled, runIn_ofExcept]
        cases w.cancelled with
        | true => rfl
        | false =>
          have hkeep := hstep b r w hw
          rcases h : (step b r).runIn w with ⟨result, w'⟩
          rw [h] at hkeep
          cases result with
          | error e => simp [h]
          | ok b' => simpa [h] using ih b' hkeep hc' (Nat.lt_of_succ_lt_succ hn) hrest
      · exact absurd (hnone.symm.trans hrs) (by simp)

/-- If not all rows can be read, going through them fails in the reading or in a step. -/
theorem runIn_foldCursor_of_unreadable (hgoes : ∀ w, P w → w.cancelled = false) (n : Nat)
    {c : Store.Cursor ρ} {pending : List κ} (b : β) {w : World σ} (hw : P w)
    (hc : c.Awaits source rows position read pending) (hn : pending.length < n)
    (hrs : pending.mapM read = none) :
    ∃ e w', (foldCursor step n c b).runIn w = (.error e, w') ∧
      (e = .database ∨ ∃ a ∈ pending, ∃ r b v, read a = some r ∧ P v ∧
        ((step b r).runIn v).1 = .error e) := by
  induction n generalizing c pending b w with
  | zero => exact absurd hn (Nat.not_lt_zero _)
  | succ n ih =>
    cases pending with
    | nil => cases hrs
    | cons a pending =>
      have hcheck : (checkCancelled : Action σ Unit).runIn w = (.ok (), w) :=
        runIn_checkCancelled_ok.2 ⟨hgoes w hw, rfl⟩
      rw [foldCursor, runIn_bind_of_ok (runIn_database w)]
      rcases Cursor.next_of_pending_cons (hreads _ hw) hc with
        ⟨r, c', hr, hnext, hc'⟩ | ⟨-, c', hnext⟩
      · have hrest : pending.mapM read = none := by
          rw [List.mapM_cons, hr] at hrs
          cases h : pending.mapM read with
          | none => rfl
          | some rest => simp [h] at hrs
        rw [hnext]
        simp only [runIn_bind_of_ok hcheck, runIn_bind_of_ok (runIn_ofExcept _ _)]
        have hkeep := hstep b r w hw
        rcases h : (step b r).runIn w with ⟨result, w'⟩
        rw [h] at hkeep
        cases result with
        | error e =>
          refine ⟨e, w', runIn_bind_of_error h, .inr ⟨a, List.mem_cons_self, r, b, w, hr, hw, ?_⟩⟩
          rw [h]
        | ok b' =>
          rw [runIn_bind_of_ok h]
          obtain ⟨e, v, hrun, hcause⟩ := ih b' hkeep hc' (Nat.lt_of_succ_lt_succ hn) hrest
          refine ⟨e, v, hrun, hcause.imp_right ?_⟩
          rintro ⟨a', ha', hr'⟩
          exact ⟨a', List.mem_cons_of_mem _ ha', hr'⟩
      · rw [hnext]
        simp only [runIn_bind_of_ok hcheck]
        exact ⟨.database, w, runIn_bind_of_error (runIn_ofExcept _ _), .inl rfl⟩

end Cursor

section Source

variable {t : Tables} {step : β → ρ → Action σ β} {w : World σ}

/-- Whether a world has the staged records of some tables and is not cancelled. -/
def HasStaged (t : Tables) (w : World σ) : Prop :=
  (∃ u : Tables, w.database = .migrated u ∧ u.staging = t.staging) ∧ w.cancelled = false

/-- Steps that leave what is staged alone see the staged records as they were at the beginning. -/
theorem runIn_foldSource_staged {step : β → StagedRecord → Action σ β} (table : String)
    (scope : RunScope) (batchSize : Nat) (b : β) (hw : HasStaged t w)
    (hstep : ∀ b r v, HasStaged t v → HasStaged t ((step b r).runIn v).2) :
    match t.staging.records? table scope.tag with
    | some rs => (foldSource (stagedSource table scope) batchSize step b).runIn w =
        (foldRows step rs b).runIn w
    | none => ∃ e w', (foldSource (stagedSource table scope) batchSize step b).runIn w =
        (.error e, w') ∧ (e = .database ∨ ∃ a ∈ t.staging.rowsOf table scope.tag, ∃ r b v,
          a.record? = some r ∧ HasStaged t v ∧ ((step b r).runIn v).1 = .error e) := by
  have hreads : ∀ v : World σ, HasStaged t v → (stagedSource table scope).Reads v.database
      (t.staging.rowsOf table scope.tag) (fun r => (r.id : Int)) StagedRow.record? := by
    rintro v ⟨⟨u, hv, hu⟩, -⟩
    rw [hv, ← hu]
    exact stagedSource_reads table scope u
  have hc := Cursor.awaits_start (stagedSource table scope) batchSize
    (t.staging.rowsOf table scope.tag) (fun r => (r.id : Int)) StagedRow.record?
  rw [staged_positive] at hc
  have hn := Nat.lt_succ_of_le (hreads _ hw).length_le
  have hsource : (foldSource (stagedSource table scope) batchSize step b).runIn w =
      (foldCursor step ((stagedSource table scope).bound w.database + 1)
        (.start (stagedSource table scope) batchSize) b).runIn w :=
    runIn_bind_of_ok (runIn_database w)
  rw [hsource]
  cases hrs : t.staging.records? table scope.tag with
  | some rs => exact runIn_foldCursor hreads hstep _ b hw hc hn hrs
  | none => exact runIn_foldCursor_of_unreadable hreads hstep (fun _ hv => hv.2) _ b hw hc hn hrs

theorem runIn_foldSource_tool [Streamed ρ] [LawfulStreamed ρ] (scope : RunScope) (batchSize : Nat)
    (b : β) (hw : w.database = .migrated t)
    (hstep : ∀ b r v, (∃ u : Tables, v.database = .migrated u ∧ u.tool = t.tool) →
      ∃ u : Tables, ((step b r).runIn v).2.database = .migrated u ∧ u.tool = t.tool) :
    (foldSource (toolSource ρ scope) batchSize step b).runIn w =
      (foldRows step (t.tool.streamed ρ scope) b).runIn w := by
  let P : World σ → Prop := fun v => ∃ u : Tables, v.database = .migrated u ∧ u.tool = t.tool
  have hreads : ∀ v, P v → (toolSource ρ scope).Reads v.database (t.tool.rowsOf ρ scope)
      (fun r => (Streamed.key r).id) (fun r => some (Streamed.reread r)) := by
    rintro v ⟨u, hv, hu⟩
    rw [hv, ← hu]
    exact toolSource_reads ρ scope u
  have hP : P w := ⟨t, hw, rfl⟩
  have hc := Cursor.awaits_start (toolSource ρ scope) batchSize (t.tool.rowsOf ρ scope)
    (fun r => (Streamed.key r).id) (fun r => some (Streamed.reread r))
  have hn := Nat.lt_succ_of_le (Nat.le_trans
    (List.length_filter_le (fun r => decide (0 < (Streamed.key r).id)) _) (hreads _ hP).length_le)
  have hsource : (foldSource (toolSource ρ scope) batchSize step b).runIn w =
      (foldCursor step ((toolSource ρ scope).bound w.database + 1)
        (.start (toolSource ρ scope) batchSize) b).runIn w :=
    runIn_bind_of_ok (runIn_database w)
  rw [hsource]
  exact runIn_foldCursor hreads hstep _ b hP hc hn (List.mapM_pure (m := Option))

end Source

end QaLake.Action
