import QaLake.Endpoint.PathTemplate
import QaLake.Proofs.Json.Spelling
import QaLake.Proofs.Store.Cell

namespace QaLake

open Store

namespace Json

theorem get?_membersSpelled (members : List (String × Json)) (name : String) :
    Keyed.get? name (membersSpelled members) = (Keyed.get? name members).map spelled := by
  induction members with
  | nil => rfl
  | cons m rest ih =>
    obtain ⟨name', value⟩ := m
    rw [membersSpelled, Keyed.get?, Keyed.get?, ih]
    split <;> rfl

theorem get?_spelled (j : Json) (name : String) :
    j.spelled.get? name = (j.get? name).map spelled := by
  cases j with
  | obj members => exact get?_membersSpelled members name
  | _ => rfl

end Json

namespace PathTemplate

variable {t : PathTemplate} {scope : RunScope} {i j : Json} {path : String}

/-- The text of a field of an input, if it can stand in a path. -/
def inputText? (input : Json) (field : String) : Option String :=
  (input.get? field).bind fieldText?

theorem inputText?_spelled (input : Json) (field : String) :
    inputText? input.spelled field = inputText? input field := by
  have hvalue : ∀ value : Json, fieldText? value.spelled = fieldText? value := by
    intro value
    cases value <;> rfl
  rw [inputText?, inputText?, Json.get?_spelled]
  cases input.get? field with
  | none => rfl
  | some value => exact hvalue value

theorem resolve_of_inputText (h : ∀ field s, inputText? i field = some s →
    inputText? j field = some s) {name : String} (hi : t.resolve scope (some i) name = .ok path) :
    t.resolve scope (some j) name = .ok path := by
  rw [resolve] at hi ⊢
  split_ifs at hi ⊢ with hconnection hproject
  · exact hi
  · exact hi
  · cases hfield : inputField? name with
    | none =>
      rw [hfield] at hi
      cases hi
    | some field =>
      simp only [hfield, Option.bind_some] at hi ⊢
      cases hvalue : i.get? field with
      | none =>
        rw [hvalue] at hi
        cases hi
      | some value =>
        simp only [hvalue] at hi
        cases htext : fieldText? value with
        | none =>
          rw [htext] at hi
          cases hi
        | some s =>
          rw [htext] at hi
          have hj := h field s (by rw [inputText?, hvalue]; exact htext)
          obtain ⟨value', hget, htext'⟩ := Option.bind_eq_some_iff.1 hj
          simp only [hget, htext']
          exact hi

theorem render_of_inputText (h : ∀ field s, inputText? i field = some s →
    inputText? j field = some s) (hi : t.render scope (some i) = .ok path) :
    t.render scope (some j) = .ok path := by
  have hparts : ∀ (ps : List Piece) parts, ps.mapM (t.renderPiece scope (some i)) = .ok parts →
      ps.mapM (t.renderPiece scope (some j)) = .ok parts := by
    intro ps
    induction ps with
    | nil => exact fun _ hnil => hnil
    | cons p ps ih =>
      intro parts hcons
      rw [List.mapM_cons] at hcons ⊢
      cases hp : t.renderPiece scope (some i) p with
      | error e =>
        rw [hp] at hcons
        cases hcons
      | ok s =>
        cases hps : ps.mapM (t.renderPiece scope (some i)) with
        | error e =>
          rw [hp, hps] at hcons
          cases hcons
        | ok rest =>
          have hpiece : t.renderPiece scope (some j) p = .ok s := by
            cases p with
            | char c => exact hp
            | placeholder name => exact resolve_of_inputText h hp
            | unterminated => cases hp
          rw [hp, hps] at hcons
          rw [hpiece, ih rest hps]
          exact hcons
  rw [render] at hi ⊢
  cases hmap : (pieces t.text.toList).mapM (t.renderPiece scope (some i)) with
  | error e =>
    rw [hmap] at hi
    cases hi
  | ok parts =>
    rw [hmap] at hi
    rw [hparts _ parts hmap]
    exact hi

/-- Inputs that are kept in one cell lead to the same path, if they lead to one. A bare number does
so only if the path takes nothing from it. -/
theorem render_of_cell (hcell : Cell.ofText i.text = Cell.ofText j.text)
    (hi : t.render scope (some i) = .ok path) : t.render scope (some j) = .ok path := by
  refine render_of_inputText (fun field s hs => ?_) hi
  have htext := congrArg Cell.text? hcell
  rw [Cell.text?_ofText, Cell.text?_ofText] at htext
  cases hnumber : i.isNumber with
  | true =>
    cases i with
    | num n => cases hs
    | _ => cases hnumber
  | false =>
    rw [hnumber, if_neg Bool.false_ne_true] at htext
    have hother : ¬j.isNumber = true := by
      intro hj
      rw [if_pos hj] at htext
      cases htext
    rw [if_neg hother] at htext
    have hspelled := Json.spelled_of_text (Option.some.inj htext)
    rw [← inputText?_spelled, ← hspelled, inputText?_spelled]
    exact hs

end PathTemplate

end QaLake
