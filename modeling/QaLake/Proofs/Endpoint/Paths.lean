import QaLake.Endpoint.PathTemplate
import QaLake.Proofs.Json.Digits

namespace QaLake

namespace Text

theorem percentEncode_of_unreserved {s : String} (h : ∀ c ∈ s.toList, isUnreserved c = true) :
    percentEncode s = s := by
  have hchars : ∀ cs : List Char, (∀ c ∈ cs, isUnreserved c = true) →
      cs.flatMap (percentChar isUnreserved) = cs := by
    intro cs hcs
    induction cs with
    | nil => rfl
    | cons c cs ih =>
      have hc : percentChar isUnreserved c = [c] := by
        rw [percentChar, if_pos (hcs c List.mem_cons_self)]
      rw [List.flatMap_cons, hc, ih fun d hd => hcs d (List.mem_cons_of_mem _ hd)]
      rfl
  rw [percentEncode, hchars _ h, String.ofList_toList]

theorem digitsValue_digits (n : Nat) : digitsValue (Nat.toDigits 10 n) = n := by
  have h := @Nat.ofDigitChars_ten_toDigits n
  rw [Nat.ofDigitChars] at h
  simpa only [digitsValue, Nat.mul_comm 10] using h

end Text

namespace Json

theorem text_int (n : Int) : (Number.int n).text = toString n := by
  cases n with
  | ofNat n =>
    have hn : ¬(Int.ofNat n < 0) := Int.not_lt.2 (Int.natCast_nonneg n)
    change String.ofList (intChars (Int.ofNat n)) = n.repr
    rw [intChars, if_neg hn, Nat.repr_eq_ofList_toDigits]
    rfl
  | negSucc n =>
    change String.ofList (intChars (Int.negSucc n)) = "-" ++ (n + 1).repr
    rw [intChars, if_pos (Int.negSucc_lt_zero n), Nat.repr_eq_ofList_toDigits]
    apply String.toList_inj.1
    simp

theorem intChars_unreserved (n : Int) : ∀ c ∈ intChars n, Text.isUnreserved c = true := by
  have hdigit : ∀ m : Nat, ∀ c ∈ Nat.toDigits 10 m, Text.isUnreserved c = true := by
    intro m c hc
    have h := isDigit_of_mem_digits hc
    simp [Text.isUnreserved, Char.isAlphanum, h]
  intro c hc
  rw [intChars] at hc
  by_cases hn : n < 0
  · rw [if_pos hn] at hc
    obtain rfl | hc := List.mem_cons.1 hc
    · decide
    · exact hdigit _ c hc
  · rw [if_neg hn] at hc
    exact hdigit _ c hc

theorem percentEncode_int (n : Int) : Text.percentEncode (toString n) = toString n := by
  rw [← text_int]
  apply Text.percentEncode_of_unreserved
  rw [Number.text, String.toList_ofList]
  exact intChars_unreserved n

end Json

namespace PathTemplate

variable (t : PathTemplate) (scope : RunScope) (input : Option Json)

def renderPieces (ps : List Piece) : Except Error String :=
  (ps.mapM (t.renderPiece scope input)).map String.join

theorem render_eq_renderPieces :
    t.render scope input = t.renderPieces scope input (pieces t.text.toList) := by
  rw [render, renderPieces]
  cases (pieces t.text.toList).mapM (t.renderPiece scope input) <;> rfl

theorem renderPieces_cons {p : Piece} {s : String} (h : t.renderPiece scope input p = .ok s)
    (ps : List Piece) :
    t.renderPieces scope input (p :: ps) = (t.renderPieces scope input ps).map (s ++ ·) := by
  rw [renderPieces, renderPieces, List.mapM_cons, h]
  cases ps.mapM (t.renderPiece scope input) with
  | error e => rfl
  | ok parts => exact congrArg Except.ok String.join_cons

theorem renderPieces_chars (cs : List Char) (ps : List Piece) :
    t.renderPieces scope input (cs.map Piece.char ++ ps) =
      (t.renderPieces scope input ps).map (String.ofList cs ++ ·) := by
  induction cs with
  | nil => cases h : t.renderPieces scope input ps <;> simp [h, Except.map]
  | cons c cs ih =>
    rw [List.map_cons, List.cons_append,
      t.renderPieces_cons scope input (p := .char c) (s := String.singleton c) rfl, ih]
    cases t.renderPieces scope input ps with
    | error e => rfl
    | ok s =>
      refine congrArg Except.ok (String.toList_inj.1 ?_)
      simp

theorem renderPieces_nil : t.renderPieces scope input [] = .ok "" :=
  rfl

variable {t scope input}

theorem render_literal (literal : String)
    (h : pieces t.text.toList = literal.toList.map Piece.char) :
    t.render scope input = .ok literal := by
  have hps : pieces t.text.toList = literal.toList.map Piece.char ++ [] := by
    rw [h, List.append_nil]
  rw [render_eq_renderPieces, hps, renderPieces_chars, renderPieces_nil]
  simp [Except.map]

theorem renderPieces_project (ps : List Piece) :
    t.renderPieces scope input (.placeholder "projectId" :: ps) =
      (t.renderPieces scope input ps).map (toString scope.project ++ ·) :=
  t.renderPieces_cons scope input rfl ps

theorem resolve_id {id : Json} (hinput : input = some (.obj [("id", id)])) :
    t.resolve scope input "input.id" =
      match fieldText? id with
      | some s => .ok (Text.percentEncode s)
      | none => .error (.config (.inputNotScalar "id" id.text)) := by
  have hname : inputField? "input.id" = some "id" := by decide +kernel
  have hget : (some (Json.obj [("id", id)])).bind (·.get? "id") = some id := by
    simp [Json.get?, Keyed.get?]
  rw [resolve, if_neg (by decide), if_neg (by decide), hname, hinput]
  cases hid : fieldText? id <;> simp only [hget, hid]

theorem renderPieces_id {id : Json} {s : String} (hid : fieldText? id = some s)
    (hinput : input = some (.obj [("id", id)])) (ps : List Piece) :
    t.renderPieces scope input (.placeholder "input.id" :: ps) =
      (t.renderPieces scope input ps).map (Text.percentEncode s ++ ·) := by
  refine t.renderPieces_cons scope input ?_ ps
  rw [renderPiece, resolve_id hinput, hid]

theorem renderPieces_no_id {id : Json} (hid : fieldText? id = none)
    (hinput : input = some (.obj [("id", id)])) (ps : List Piece) :
    ∃ e, t.renderPieces scope input (.placeholder "input.id" :: ps) = .error e := by
  refine ⟨.config (.inputNotScalar "id" id.text), ?_⟩
  rw [renderPieces, List.mapM_cons, renderPiece, resolve_id hinput, hid]
  rfl

theorem render_project (literal : String)
    (h : pieces t.text.toList = literal.toList.map Piece.char ++ [.placeholder "projectId"]) :
    t.render scope input = .ok (literal ++ toString scope.project) := by
  rw [render_eq_renderPieces, h, renderPieces_chars, renderPieces_project, renderPieces_nil]
  simp [Except.map]

theorem render_id (literal : String) {id : Json} {s : String} (hid : fieldText? id = some s)
    (hinput : input = some (.obj [("id", id)]))
    (h : pieces t.text.toList = literal.toList.map Piece.char ++ [.placeholder "input.id"]) :
    t.render scope input = .ok (literal ++ Text.percentEncode s) := by
  rw [render_eq_renderPieces, h, renderPieces_chars, renderPieces_id hid hinput, renderPieces_nil]
  simp [Except.map]

theorem render_project_id (literal literal' : String) {id : Json} {s : String}
    (hid : fieldText? id = some s) (hinput : input = some (.obj [("id", id)]))
    (h : pieces t.text.toList = literal.toList.map Piece.char ++ .placeholder "projectId" ::
      (literal'.toList.map Piece.char ++ [.placeholder "input.id"])) :
    t.render scope input =
      .ok (literal ++ toString scope.project ++ literal' ++ Text.percentEncode s) := by
  rw [render_eq_renderPieces, h, renderPieces_chars, renderPieces_project, renderPieces_chars,
    renderPieces_id hid hinput, renderPieces_nil]
  simp [Except.map, String.append_assoc]

end PathTemplate

end QaLake
