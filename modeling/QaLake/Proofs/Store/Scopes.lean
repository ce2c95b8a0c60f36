import QaLake.Proofs.Scope.Text
import QaLake.Proofs.Store.Cell
import QaLake.Proofs.Store.Upserts

namespace QaLake

open Store

/-- A configuration stored for a scope, its maps written in some order. -/
structure ScopeWrite where
  scope : RunScope
  config : ScopeConfig
  order : ScopeConfig.MapOrder

def ScopeWrite.json (w : ScopeWrite) : Json :=
  w.config.toJsonIn w.order

theorem Store.ScopeTable.get?_put (t : ScopeTable) (w : ScopeWrite) (scope : RunScope) :
    ((t.put w.scope w.config w.order).get? scope).map StoredScope.config =
      if scope = w.scope then some (Cell.ofText w.json.text)
      else (t.get? scope).map StoredScope.config := by
  have hkey : keyOf scope = keyOf w.scope ↔ scope = w.scope := by
    obtain ⟨connection, project⟩ := scope
    obtain ⟨⟨connection', project'⟩, -, -⟩ := w
    simp [keyOf]
  rw [put, get?, get?, Table.get?_insert]
  by_cases h : scope = w.scope
  · rw [if_pos (hkey.2 h), if_pos h, Option.map_some, ScopeWrite.json]
  · rw [if_neg fun he => h (hkey.1 he), if_neg h]

namespace Database

theorem scopeConfig?_congr {t u : Tables} {scope : RunScope}
    (h : (t.scopes.get? scope).map StoredScope.config =
      (u.scopes.get? scope).map StoredScope.config) :
    (migrated t).scopeConfig? scope = (migrated u).scopeConfig? scope := by
  have htext : (migrated t).scopeText? scope = (migrated u).scopeText? scope := by
    simp only [scopeText?, read]
    cases ht : t.scopes.get? scope with
    | none =>
      rw [ht] at h
      rw [Option.map_eq_none_iff.1 h.symm]
    | some s =>
      rw [ht] at h
      obtain ⟨s', hs', hconfig⟩ := Option.map_eq_some_iff.1 h.symm
      simp only [hs', hconfig]
  rw [scopeConfig?, scopeConfig?, htext]

theorem scopeConfig?_of_spelled {t : Tables} {scope : RunScope} {config : ScopeConfig} {j : Json}
    (hids : config.HasSignedIds) (hj : config.IsSpelledAs j)
    (h : (t.scopes.get? scope).map StoredScope.config = some (Cell.ofText j.text)) :
    (migrated t).scopeConfig? scope = .ok (some config) := by
  obtain ⟨s, hs, hconfig⟩ := Option.map_eq_some_iff.1 h
  have hnumber : j.isNumber = false := by
    cases hj
    rfl
  have hcell : s.config.text? = some j.text := by
    rw [hconfig, Cell.text?_ofText, hnumber]
    exact if_neg Bool.false_ne_true
  have htext : (migrated t).scopeText? scope = .ok (some j.text) := by
    simp only [scopeText?, read, hs, hcell, Option.map_some]
  simp only [scopeConfig?, htext, bind, Except.bind, hj.decodeText hids]
  rfl

def storeScopes (t : Tables) (writes : List ScopeWrite) : Tables :=
  { t with scopes := writes.foldl (fun s w => s.put w.scope w.config w.order) t.scopes }

theorem foldlM_putScope (writes : List ScopeWrite) (t : Tables) :
    writes.foldlM (fun db w => db.putScope w.scope w.config w.order) (migrated t) =
      .ok (migrated (storeScopes t writes)) := by
  have hfold : writes.foldl
      (fun u w => { u with scopes := u.scopes.put w.scope w.config w.order }) t =
        storeScopes t writes :=
    List.foldl_hom (fun scopes => { t with scopes := scopes }) fun _ _ => rfl
  rw [← hfold]
  exact foldlM_write (fun (w : ScopeWrite) t =>
    { t with scopes := t.scopes.put w.scope w.config w.order }) writes t

theorem get?_storeScopes (writes : List ScopeWrite) (t : Tables) (scope : RunScope) :
    ((storeScopes t writes).scopes.get? scope).map StoredScope.config =
      match lastUnder ScopeWrite.scope writes scope with
      | some w => some (Cell.ofText w.json.text)
      | none => (t.scopes.get? scope).map StoredScope.config := by
  induction writes generalizing t with
  | nil => rfl
  | cons w rest ih =>
    have hput := t.scopes.get?_put w scope
    have hrest := ih { t with scopes := t.scopes.put w.scope w.config w.order }
    refine hrest.trans ?_
    rw [lastUnder_cons]
    cases lastUnder ScopeWrite.scope rest scope with
    | some last => rfl
    | none =>
      simp only [hput, Option.none_or]
      by_cases hscope : w.scope = scope
      · rw [if_pos hscope.symm, if_pos hscope]
      · rw [if_neg fun he => hscope he.symm, if_neg hscope]

/-- What is read of a scope is the last configuration stored for it, or what was there before. -/
theorem scopeConfig?_storeScopes {writes : List ScopeWrite}
    (hids : ∀ w ∈ writes, w.config.HasSignedIds) (t : Tables) (scope : RunScope) :
    (migrated (storeScopes t writes)).scopeConfig? scope =
      match lastUnder ScopeWrite.scope writes scope with
      | some w => .ok (some w.config)
      | none => (migrated t).scopeConfig? scope := by
  have hget := get?_storeScopes writes t scope
  cases hlast : lastUnder ScopeWrite.scope writes scope with
  | none =>
    rw [hlast] at hget
    exact scopeConfig?_congr hget
  | some w =>
    rw [hlast] at hget
    exact scopeConfig?_of_spelled (hids w (mem_of_lastUnder hlast).1)
      (w.config.isSpelledAs_toJsonIn w.order) hget

end Database

end QaLake
