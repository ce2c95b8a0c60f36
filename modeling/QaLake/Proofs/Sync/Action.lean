import QaLake.Sync.Action

namespace QaLake.Action

variable {σ α β : Type}

@[simp] theorem runIn_pure (a : α) (w : World σ) : (pure a : Action σ α).runIn w = (.ok a, w) :=
  rfl

@[simp] theorem runIn_throw (e : Error) (w : World σ) :
    (throw e : Action σ α).runIn w = (.error e, w) :=
  rfl

@[simp] theorem runIn_ofExcept (r : Except Error α) (w : World σ) :
    (ofExcept r : Action σ α).runIn w = (r, w) :=
  rfl

@[simp] theorem runIn_database (w : World σ) :
    (database : Action σ Database).runIn w = (.ok w.database, w) :=
  rfl

@[simp] theorem runIn_world (w : World σ) :
    (getThe (World σ) : Action σ (World σ)).runIn w = (.ok w, w) :=
  rfl

theorem runIn_of_toOption {a : Action σ α} {w : World σ} {x : α}
    (h : (a.runIn w).1.toOption = some x) : ∃ w', a.runIn w = (.ok x, w') := by
  rcases hrun : a.runIn w with ⟨r, w'⟩
  rw [hrun] at h
  cases r with
  | error e => cases h
  | ok y =>
    cases h
    exact ⟨w', rfl⟩

theorem runIn_of_isNone {a : Action σ α} {w : World σ}
    (h : (a.runIn w).1.toOption.isNone = true) : ∃ e w', a.runIn w = (.error e, w') := by
  rcases hrun : a.runIn w with ⟨r, w'⟩
  rw [hrun] at h
  cases r with
  | error e => exact ⟨e, w', rfl⟩
  | ok x => cases h

theorem runIn_bind (a : Action σ α) (f : α → Action σ β) (w : World σ) :
    (a >>= f).runIn w =
      match a.runIn w with
      | (.ok x, w') => (f x).runIn w'
      | (.error e, w') => (.error e, w') := by
  change ExceptT.bindCont f (a.runIn w).1 (a.runIn w).2 = _
  obtain ⟨r, w'⟩ := a.runIn w
  cases r <;> rfl

theorem runIn_bind_of_ok {a : Action σ α} {f : α → Action σ β} {w w' : World σ} {x : α}
    (h : a.runIn w = (.ok x, w')) : (a >>= f).runIn w = (f x).runIn w' := by
  rw [runIn_bind, h]

theorem runIn_bind_of_error {a : Action σ α} {f : α → Action σ β} {w w' : World σ} {e : Error}
    (h : a.runIn w = (.error e, w')) : (a >>= f).runIn w = (.error e, w') := by
  rw [runIn_bind, h]

theorem runIn_bind_ok_iff {a : Action σ α} {f : α → Action σ β} {w w' : World σ} {y : β} :
    (a >>= f).runIn w = (.ok y, w') ↔
      ∃ x v, a.runIn w = (.ok x, v) ∧ (f x).runIn v = (.ok y, w') := by
  rw [runIn_bind]
  rcases h : a.runIn w with ⟨r, v⟩
  cases r with
  | error e => simp
  | ok x =>
    constructor
    · intro hf
      exact ⟨x, v, rfl, hf⟩
    · rintro ⟨_, _, hxv, hf⟩
      obtain ⟨hx, rfl⟩ := Prod.mk.inj hxv
      cases hx
      exact hf

theorem runIn_map (f : α → β) (a : Action σ α) (w : World σ) :
    (f <$> a).runIn w = ((a.runIn w).1.map f, (a.runIn w).2) := by
  rw [map_eq_pure_bind, runIn_bind]
  obtain ⟨r, w'⟩ := a.runIn w
  cases r <;> rfl

theorem runIn_checkCancelled (w : World σ) :
    (checkCancelled : Action σ Unit).runIn w =
      if w.cancelled then (.error .cancelled, w) else (.ok (), w) := by
  cases w with
  | mk db remote calls budget cancelled => cases cancelled <;> rfl

theorem runIn_checkCancelled_ok {w w' : World σ} {u : Unit} :
    (checkCancelled : Action σ Unit).runIn w = (.ok u, w') ↔ w.cancelled = false ∧ w' = w := by
  rw [runIn_checkCancelled]
  cases h : w.cancelled <;> simp [eq_comm]

theorem runIn_query (f : Database → Except Error α) (w : World σ) :
    (query f : Action σ α).runIn w = (f w.database, w) :=
  rfl

theorem runIn_update (f : Database → Except Error Database) (w : World σ) :
    (update f : Action σ Unit).runIn w =
      match f w.database with
      | .ok db => (.ok (), { w with database := db })
      | .error e => (.error e, w) := by
  rw [update, runIn_bind, runIn_query]
  cases f w.database <;> rfl

end QaLake.Action
