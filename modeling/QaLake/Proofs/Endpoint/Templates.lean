import Mathlib.Data.List.Forall2
import QaLake.Proofs.Endpoint.Paths
import QaLake.Proofs.Text.Percent

namespace QaLake.PathTemplate

/-- A placeholder with the text before it. -/
structure Hole where
  before : String
  name : String

def written : List Hole → String → String
  | [], tail => tail
  | h :: hs, tail => h.before ++ "\x7b" ++ h.name ++ "\x7d" ++ written hs tail

def filled : List Hole → List String → String → String
  | h :: hs, v :: vs, tail => h.before ++ v ++ filled hs vs tail
  | _, _, tail => tail

/-- Whether the holes begin at the first opening brace behind the one before, and end at the first
closing brace. -/
def AreHoles (holes : List Hole) : Prop :=
  ∀ h ∈ holes, '{' ∉ h.before.toList ∧ '}' ∉ h.name.toList

section Pieces

theorem pieces_append {cs : List Char} (h : '{' ∉ cs) (rest : List Char) :
    pieces (cs ++ rest) = cs.map .char ++ pieces rest := by
  induction cs with
  | nil => rfl
  | cons c cs ih =>
    obtain ⟨hc, hcs⟩ := not_or.1 (mt List.mem_cons.2 h)
    rw [List.cons_append, pieces, if_neg (Ne.symm hc), ih hcs]
    rfl

theorem placeholderPieces_append {name : List Char} (h : '}' ∉ name) (acc rest : List Char) :
    placeholderPieces acc (name ++ '}' :: rest) =
      .placeholder (String.ofList (acc.reverse ++ name)) :: pieces rest := by
  induction name generalizing acc with
  | nil => rw [List.nil_append, placeholderPieces, if_pos rfl, List.append_nil]
  | cons c cs ih =>
    obtain ⟨hc, hcs⟩ := not_or.1 (mt List.mem_cons.2 h)
    rw [List.cons_append, placeholderPieces, if_neg (Ne.symm hc), ih hcs, List.reverse_cons,
      List.append_assoc]
    rfl

theorem placeholderPieces_of_open {cs : List Char} (h : '}' ∉ cs) (acc : List Char) :
    placeholderPieces acc cs = [.unterminated] := by
  induction cs generalizing acc with
  | nil => rfl
  | cons c cs ih =>
    obtain ⟨hc, hcs⟩ := not_or.1 (mt List.mem_cons.2 h)
    rw [placeholderPieces, if_neg (Ne.symm hc), ih hcs]

def Hole.pieces (h : Hole) : List Piece :=
  h.before.toList.map .char ++ [.placeholder h.name]

theorem pieces_written {holes : List Hole} (h : AreHoles holes) (tail : String) :
    pieces (written holes tail).toList = holes.flatMap Hole.pieces ++ pieces tail.toList := by
  induction holes with
  | nil => rfl
  | cons hole rest ih =>
    obtain ⟨hbefore, hname⟩ := h hole List.mem_cons_self
    have hrest := ih fun h' hh' => h h' (List.mem_cons_of_mem _ hh')
    have htext : (written (hole :: rest) tail).toList =
        hole.before.toList ++ '{' :: (hole.name.toList ++ '}' :: (written rest tail).toList) := by
      simp [written]
    rw [htext, pieces_append hbefore, pieces, if_pos rfl, placeholderPieces_append hname, hrest]
    simp [Hole.pieces]

/-- Every template is made of holes and a text behind them. If that has an opening brace, then the
brace is not closed. -/
theorem exists_holes (s : String) : ∃ holes tail, AreHoles holes ∧ s = written holes tail ∧
    ('{' ∉ tail.toList ∨ .unterminated ∈ pieces tail.toList) := by
  induction hn : s.toList.length using Nat.strongRecOn generalizing s with
  | ind n ih =>
    by_cases hopen : '{' ∈ s.toList
    · obtain ⟨before, behind, hs, hbefore⟩ := List.eq_append_cons_of_mem hopen
      by_cases hclosed : '}' ∈ behind
      · obtain ⟨name, rest, hbehind, hname⟩ := List.eq_append_cons_of_mem hclosed
        have hlength : rest.length < n := by
          rw [← hn, hs, hbehind]
          simp
          omega
        obtain ⟨holes, tail, hholes, hrest, htail⟩ :=
          ih rest.length hlength (String.ofList rest) (by simp)
        refine ⟨⟨String.ofList before, String.ofList name⟩ :: holes, tail, ?_, ?_, htail⟩
        · intro h hh
          obtain rfl | hh := List.mem_cons.1 hh
          · simpa using ⟨hbefore, hname⟩
          · exact hholes h hh
        · apply String.toList_inj.1
          rw [hs, hbehind, written, ← hrest]
          simp
      · refine ⟨[], s, fun h hh => absurd hh List.not_mem_nil, rfl, .inr ?_⟩
        rw [hs, pieces_append hbefore, pieces, if_pos rfl, placeholderPieces_of_open hclosed]
        exact List.mem_append_right _ List.mem_cons_self
    · exact ⟨[], s, fun h hh => absurd hh List.not_mem_nil, rfl, .inl hopen⟩

end Pieces

section Values

variable {scope : RunScope} {input input' : Option Json} {field name v : String}

/-- The text of a field of an input: the field is a text or a number. -/
inductive HasText (input : Option Json) (field : String) : String → Prop
  | text {members : List (String × Json)} {s : String} (hinput : input = some (.obj members))
    (hfield : Keyed.get? field members = some (.str s)) : HasText input field s
  | number {members : List (String × Json)} {n : Json.Number}
    (hinput : input = some (.obj members))
    (hfield : Keyed.get? field members = some (.num n)) : HasText input field n.text

/-- What a name between braces stands for. -/
inductive Resolves (scope : RunScope) (input : Option Json) : String → String → Prop
  | connection : Resolves scope input "connectionId" (toString scope.connection)
  | project : Resolves scope input "projectId" (toString scope.project)
  | field {field s : String} (h : HasText input field s) :
    Resolves scope input ("input." ++ field) (Text.percentEncode s)

theorem hasText_iff {s : String} :
    HasText input field s ↔ (input.bind (·.get? field)).bind fieldText? = some s := by
  constructor
  · rintro (⟨rfl, hfield⟩ | ⟨rfl, hfield⟩)
    · simp [Json.get?, hfield, fieldText?]
    · simp [Json.get?, hfield, fieldText?]
  · intro h
    obtain ⟨value, hvalue, htext⟩ := Option.bind_eq_some_iff.1 h
    obtain ⟨j, rfl, hget⟩ := Option.bind_eq_some_iff.1 hvalue
    cases j with
    | obj members =>
      cases value with
      | str s' =>
        cases htext
        exact .text rfl hget
      | num n =>
        cases htext
        exact .number rfl hget
      | _ => cases htext
    | _ => cases hget

theorem HasText.unique {s s' : String} (h : HasText input field s) (h' : HasText input field s') :
    s = s' :=
  Option.some.inj ((hasText_iff.1 h).symm.trans (hasText_iff.1 h'))

theorem inputField?_append (field : String) : inputField? ("input." ++ field) = some field := by
  simp [inputField?]

theorem eq_append_of_inputField? (h : inputField? name = some field) :
    name = "input." ++ field := by
  rw [inputField?] at h
  split at h
  · rename_i hprefix
    cases h
    obtain ⟨rest, hrest⟩ := List.isPrefixOf_iff_prefix.1 hprefix
    apply String.toList_inj.1
    rw [← hrest]
    simp
  · cases h

theorem append_ne {word : String} (h : "input.".toList.isPrefixOf word.toList = false) :
    "input." ++ field ≠ word := by
  rintro rfl
  simp at h

theorem resolve_eq_ok_iff (t : PathTemplate) :
    t.resolve scope input name = .ok v ↔ Resolves scope input name v := by
  constructor
  · intro h
    rw [resolve] at h
    split_ifs at h with hconnection hproject
    · cases h
      exact hconnection ▸ .connection
    · cases h
      exact hproject ▸ .project
    · cases hname : inputField? name with
      | none =>
        rw [hname] at h
        cases h
      | some field =>
        simp only [hname] at h
        cases hvalue : input.bind (·.get? field) with
        | none =>
          rw [hvalue] at h
          cases h
        | some value =>
          simp only [hvalue] at h
          cases htext : fieldText? value with
          | none =>
            rw [htext] at h
            cases h
          | some s =>
            rw [htext] at h
            cases h
            rw [eq_append_of_inputField? hname]
            exact .field (hasText_iff.2 (by rw [hvalue, Option.bind_some, htext]))
  · intro h
    cases h with
    | connection => rfl
    | project => rfl
    | @field field s h =>
      obtain ⟨value, hvalue, htext⟩ := Option.bind_eq_some_iff.1 (hasText_iff.1 h)
      rw [resolve, if_neg (append_ne (by decide)), if_neg (append_ne (by decide)),
        inputField?_append]
      simp only [hvalue, htext]

theorem Resolves.exists_text (h : Resolves scope input ("input." ++ field) v) :
    ∃ s, HasText input field s ∧ v = Text.percentEncode s := by
  generalize hname : "input." ++ field = name at h
  cases h with
  | connection => exact absurd hname (append_ne (by decide))
  | project => exact absurd hname (append_ne (by decide))
  | @field field' s h =>
    obtain rfl := (String.append_right_inj _).1 hname
    exact ⟨s, h, rfl⟩

theorem Resolves.eq_of_no_field {v' : String} (hname : ∀ f, name ≠ "input." ++ f)
    (h : Resolves scope input name v) (h' : Resolves scope input' name v') : v = v' := by
  cases h with
  | connection =>
    generalize hword : "connectionId" = word at h'
    cases h' with
    | connection => rfl
    | project => exact absurd hword (by decide)
    | field => exact absurd hword (hname _)
  | project =>
    generalize hword : "projectId" = word at h'
    cases h' with
    | connection => exact absurd hword (by decide)
    | project => rfl
    | field => exact absurd hword (hname _)
  | field => exact absurd rfl (hname _)

end Values

section Paths

variable {t : PathTemplate} {scope : RunScope} {input input' : Option Json} {path : String}

theorem renderPieces_error {p : Piece} {e : Error} (h : t.renderPiece scope input p = .error e)
    (ps : List Piece) : t.renderPieces scope input (p :: ps) = .error e := by
  rw [renderPieces, List.mapM_cons, h]
  rfl

theorem exists_of_renderPieces {ps : List Piece} {p : Piece} (hp : p ∈ ps)
    (h : t.renderPieces scope input ps = .ok path) : ∃ s, t.renderPiece scope input p = .ok s := by
  induction ps generalizing path with
  | nil => cases hp
  | cons q ps ih =>
    cases hq : t.renderPiece scope input q with
    | error e =>
      rw [renderPieces_error hq] at h
      cases h
    | ok s =>
      obtain rfl | hp := List.mem_cons.1 hp
      · exact ⟨s, hq⟩
      · rw [renderPieces_cons _ _ _ hq] at h
        cases hps : t.renderPieces scope input ps with
        | error e =>
          rw [hps] at h
          cases h
        | ok rest => exact ih hp hps

theorem map_eq_ok_iff {α β : Type} {x : Except Error α} {f : α → β} {b : β} :
    x.map f = .ok b ↔ ∃ a, x = .ok a ∧ f a = b := by
  cases x <;> simp [Except.map]

/-- The pieces of a hole lead to the text before it, its value, and what comes of the others. -/
theorem renderPieces_hole (hole : Hole) (ps : List Piece) :
    t.renderPieces scope input (hole.pieces ++ ps) = .ok path ↔
      ∃ v rest, Resolves scope input hole.name v ∧ t.renderPieces scope input ps = .ok rest ∧
        path = hole.before ++ v ++ rest := by
  rw [Hole.pieces, List.append_assoc, renderPieces_chars, map_eq_ok_iff, String.ofList_toList,
    List.singleton_append]
  cases hname : t.resolve scope input hole.name with
  | error e =>
    rw [renderPieces_error (p := .placeholder hole.name) hname]
    refine ⟨fun ⟨_, h, _⟩ => (nomatch h), fun ⟨v, _, hv, _, _⟩ => ?_⟩
    rw [(resolve_eq_ok_iff t).2 hv] at hname
    cases hname
  | ok v =>
    rw [renderPieces_cons t scope input (p := .placeholder hole.name) hname]
    simp only [map_eq_ok_iff]
    constructor
    · rintro ⟨_, ⟨rest, hrest, rfl⟩, rfl⟩
      exact ⟨v, rest, (resolve_eq_ok_iff t).1 hname, hrest, String.append_assoc.symm⟩
    · rintro ⟨v', rest, hv, hrest, rfl⟩
      cases hname.symm.trans ((resolve_eq_ok_iff t).2 hv)
      exact ⟨_, ⟨rest, hrest, rfl⟩, String.append_assoc.symm⟩

theorem renderPieces_holes (holes : List Hole) {tail : String} (htail : '{' ∉ tail.toList) :
    t.renderPieces scope input (holes.flatMap Hole.pieces ++ pieces tail.toList) = .ok path ↔
      ∃ values, List.Forall₂ (fun h v => Resolves scope input h.name v) holes values ∧
        path = filled holes values tail := by
  induction holes generalizing path with
  | nil =>
    have hpieces : pieces tail.toList = tail.toList.map .char ++ [] := by
      have h := pieces_append htail []
      rwa [List.append_nil] at h
    rw [List.flatMap_nil, List.nil_append, hpieces, renderPieces_chars, renderPieces_nil]
    simp [Except.map, filled, eq_comm]
  | cons hole rest ih =>
    rw [List.flatMap_cons, List.append_assoc, renderPieces_hole]
    constructor
    · rintro ⟨v, path', hv, hrest, rfl⟩
      obtain ⟨values, hvalues, rfl⟩ := ih.1 hrest
      exact ⟨v :: values, .cons hv hvalues, rfl⟩
    · rintro ⟨values, hvalues, rfl⟩
      cases hvalues with
      | cons hv hvalues => exact ⟨_, _, hv, ih.2 ⟨_, hvalues, rfl⟩, rfl⟩

theorem render_written {holes : List Hole} {tail : String} (hholes : AreHoles holes)
    (htail : '{' ∉ tail.toList) (ht : t.text = written holes tail) :
    t.render scope input = .ok path ↔
      ∃ values, List.Forall₂ (fun h v => Resolves scope input h.name v) holes values ∧
        path = filled holes values tail := by
  rw [render_eq_renderPieces, ht, pieces_written hholes, renderPieces_holes holes htail]

theorem render_eq_ok_iff :
    t.render scope input = .ok path ↔ ∃ holes tail values, AreHoles holes ∧ '{' ∉ tail.toList ∧
      t.text = written holes tail ∧
      List.Forall₂ (fun h v => Resolves scope input h.name v) holes values ∧
      path = filled holes values tail := by
  constructor
  · intro h
    obtain ⟨holes, tail, hholes, ht, htail⟩ := exists_holes t.text
    obtain htail | hopen := htail
    · obtain ⟨values, hvalues, hpath⟩ := (render_written hholes htail ht).1 h
      exact ⟨holes, tail, values, hholes, htail, ht, hvalues, hpath⟩
    · rw [render_eq_renderPieces, ht, pieces_written hholes] at h
      obtain ⟨s, hs⟩ := exists_of_renderPieces (List.mem_append_right _ hopen) h
      cases hs
  · rintro ⟨holes, tail, values, hholes, htail, ht, hvalues, hpath⟩
    exact (render_written hholes htail ht).2 ⟨values, hvalues, hpath⟩

section Injectivity

/-- Whether the placeholders for fields of a template are all for one field, and there is one. -/
def TakesOnly (t : PathTemplate) (field : String) : Prop :=
  ∃ holes tail, AreHoles holes ∧ '{' ∉ tail.toList ∧ t.text = written holes tail ∧
    (∃ h ∈ holes, h.name = "input." ++ field) ∧
    ∀ h ∈ holes, ∀ f, h.name = "input." ++ f → f = field

theorem eq_of_flatMap_append {α : Type} {a b : List α} {parts : List (List α)}
    (hne : parts ≠ []) (h : parts.flatMap (a ++ ·) = parts.flatMap (b ++ ·)) : a = b := by
  have hlength : ∀ (c : List α) (parts : List (List α)), (parts.flatMap (c ++ ·)).length =
      parts.length * c.length + parts.flatten.length := by
    intro c parts
    induction parts with
    | nil => simp
    | cons p parts ih =>
      rw [List.flatMap_cons, List.flatten_cons, List.length_append, List.length_append,
        List.length_append, ih, List.length_cons, Nat.succ_mul]
      omega
  obtain ⟨p, rest, rfl⟩ := List.exists_cons_of_ne_nil hne
  have hsame := congrArg List.length h
  rw [hlength, hlength, Nat.add_right_cancel_iff] at hsame
  have hsame : a.length = b.length := Nat.eq_of_mul_eq_mul_left (Nat.succ_pos _) hsame
  rw [List.flatMap_cons, List.flatMap_cons, List.append_assoc, List.append_assoc] at h
  exact (List.append_inj h hsame).1

theorem exists_hasText {field : String} {holes : List Hole} {values : List String}
    (h : List.Forall₂ (fun h v => Resolves scope input h.name v) holes values) {hole : Hole}
    (hmem : hole ∈ holes) (hname : hole.name = "input." ++ field) :
    ∃ s, HasText input field s := by
  induction h with
  | nil => cases hmem
  | cons hv _ ih =>
    obtain rfl | hmem := List.mem_cons.1 hmem
    · rw [hname] at hv
      obtain ⟨s, hs, -⟩ := hv.exists_text
      exact ⟨s, hs⟩
    · exact ih hmem

/-- Paths of one template for two inputs differ only in the places of the field that it takes. -/
theorem exists_parts {field s s' : String} {holes : List Hole} {values values' : List String}
    (hs : HasText input field s) (hs' : HasText input' field s')
    (honly : ∀ h ∈ holes, ∀ f, h.name = "input." ++ f → f = field)
    (h : List.Forall₂ (fun h v => Resolves scope input h.name v) holes values)
    (h' : List.Forall₂ (fun h v => Resolves scope input' h.name v) holes values')
    (tail : String) :
    ∃ front parts,
      (filled holes values tail).toList =
        front ++ parts.flatMap ((Text.percentEncode s).toList ++ ·) ∧
      (filled holes values' tail).toList =
        front ++ parts.flatMap ((Text.percentEncode s').toList ++ ·) ∧
      ((∃ h ∈ holes, h.name = "input." ++ field) → parts ≠ []) := by
  induction h generalizing values' with
  | nil =>
    cases h'
    exact ⟨tail.toList, [], by simp [filled], by simp [filled], by simp⟩
  | @cons hole v rest values hv hrest ih =>
    cases h' with
    | @cons _ v' _ values' hv' hrest' =>
      obtain ⟨front, parts, hpath, hpath', hne⟩ :=
        ih (fun h hh => honly h (List.mem_cons_of_mem _ hh)) hrest'
      simp only [filled, String.toList_append, hpath, hpath']
      by_cases hname : ∃ f, hole.name = "input." ++ f
      · -- A hole for the field: what follows it begins a new part.
        obtain ⟨f, hf⟩ := hname
        obtain rfl := honly hole List.mem_cons_self f hf
        rw [hf] at hv hv'
        obtain ⟨a, ha, rfl⟩ := hv.exists_text
        obtain ⟨b, hb, rfl⟩ := hv'.exists_text
        rw [hs.unique ha, hs'.unique hb]
        exact ⟨hole.before.toList, front :: parts, by simp, by simp, fun _ => by simp⟩
      · rw [← Resolves.eq_of_no_field (not_exists.1 hname) hv hv']
        refine ⟨hole.before.toList ++ v.toList ++ front, parts, by simp, by simp, ?_⟩
        rintro ⟨h, hh, hfield⟩
        obtain rfl | hh := List.mem_cons.1 hh
        · exact absurd ⟨field, hfield⟩ hname
        · exact hne ⟨h, hh, hfield⟩

/-- Two inputs lead to one path only if they have the same text in the field that it takes. -/
theorem eq_text_of_render {field : String} (ht : t.TakesOnly field)
    (h : t.render scope input = .ok path) (h' : t.render scope input' = .ok path) :
    ∃ s, HasText input field s ∧ HasText input' field s := by
  obtain ⟨holes, tail, hholes, htail, htext, htakes, honly⟩ := ht
  obtain ⟨values, hvalues, rfl⟩ := (render_written hholes htail htext).1 h
  obtain ⟨values', hvalues', hpath⟩ := (render_written hholes htail htext).1 h'
  obtain ⟨hole, hmem, hname⟩ := htakes
  obtain ⟨s, hs⟩ := exists_hasText hvalues hmem hname
  obtain ⟨s', hs'⟩ := exists_hasText hvalues' hmem hname
  obtain ⟨front, parts, hfirst, hsecond, hne⟩ := exists_parts hs hs' honly hvalues hvalues' tail
  have hparts : front ++ parts.flatMap ((Text.percentEncode s).toList ++ ·) =
      front ++ parts.flatMap ((Text.percentEncode s').toList ++ ·) := by
    rw [← hfirst, ← hsecond, hpath]
  have hencoded := eq_of_flatMap_append (hne ⟨hole, hmem, hname⟩) (List.append_cancel_left hparts)
  obtain rfl := Text.percentEncode_injective (String.toList_inj.1 hencoded)
  exact ⟨s, hs, hs'⟩

end Injectivity

end Paths

/-- A template is filled in exactly if its opening braces are closed and every name between braces
stands for something, and the path is the template with these values in the holes, whatever they
contain. The value of a field is encoded: it is made of unreserved characters and escapes, and it
is read back as the text of the field. So if a template takes nothing from an input but one field,
then inputs that lead to one path have the same text in it. -/
theorem render_exact (t : PathTemplate) (scope : RunScope) (input : Option Json) :
    (∀ path, t.render scope input = .ok path ↔
      ∃ holes tail values, AreHoles holes ∧ '{' ∉ tail.toList ∧ t.text = written holes tail ∧
        List.Forall₂ (fun h v => Resolves scope input h.name v) holes values ∧
        path = filled holes values tail) ∧
    (∀ field v, Resolves scope input ("input." ++ field) v → ∃ s, HasText input field s ∧
      v.toList = (Text.utf8 s).flatMap Text.encodedByte ∧ Text.IsEncoded v.toList ∧
      String.fromUTF8? (Text.percentDecode v.toList).toByteArray = some s) ∧
    ∀ field input' path, t.TakesOnly field → t.render scope input = .ok path →
      t.render scope input' = .ok path → ∃ s, HasText input field s ∧ HasText input' field s := by
  refine ⟨fun path => render_eq_ok_iff, fun field v hv => ?_,
    fun field input' path ht h h' => eq_text_of_render ht h h'⟩
  obtain ⟨s, hs, rfl⟩ := hv.exists_text
  refine ⟨s, hs, Text.percentEncode_eq_bytes s, Text.isEncoded_percentEncode s, ?_⟩
  rw [Text.percentDecode_percentEncode, Text.fromUTF8?_utf8]

def casesPath : PathTemplate :=
  ⟨"get_cases/\x7bprojectId\x7d&suite_id=\x7binput.id\x7d"⟩

def casesHoles : List Hole :=
  [⟨"get_cases/", "projectId"⟩, ⟨"&suite_id=", "input.id"⟩]

def bracedSuite : Json :=
  .obj [("id", .str "é/\x7bprojectId\x7d")]

theorem render_exact_braced :
    casesPath.render ⟨1, 7⟩ (some bracedSuite) =
      .ok "get_cases/7&suite_id=%C3%A9%2F%7BprojectId%7D" ∧
    ∀ input', casesPath.render ⟨1, 7⟩ input' =
        .ok "get_cases/7&suite_id=%C3%A9%2F%7BprojectId%7D" →
      HasText input' "id" "é/\x7bprojectId\x7d" := by
  have hholes : AreHoles casesHoles := by
    simp [AreHoles, casesHoles]
  have htext : HasText (some bracedSuite) "id" "é/\x7bprojectId\x7d" := .text rfl rfl
  have hencoded : Text.percentEncode "é/\x7bprojectId\x7d" = "%C3%A9%2F%7BprojectId%7D" := by
    decide +kernel
  have hfield : Resolves ⟨1, 7⟩ (some bracedSuite) "input.id" "%C3%A9%2F%7BprojectId%7D" :=
    hencoded ▸ Resolves.field htext
  have hone : ∀ h ∈ casesHoles, ∀ f, h.name = "input." ++ f → f = "id" := by
    intro h hh f hf
    obtain rfl | rfl : h = ⟨"get_cases/", "projectId"⟩ ∨ h = ⟨"&suite_id=", "input.id"⟩ := by
      simpa [casesHoles] using hh
    · exact absurd hf.symm (append_ne (by decide))
    · have hid : "input." ++ "id" = "input." ++ f := hf
      exact ((String.append_right_inj "input.").1 hid).symm
  have htakes : casesPath.TakesOnly "id" :=
    ⟨casesHoles, "", hholes, List.not_mem_nil, rfl,
      ⟨_, List.mem_cons_of_mem _ List.mem_cons_self, rfl⟩, hone⟩
  obtain ⟨hrender, -, hsame⟩ := render_exact casesPath ⟨1, 7⟩ (some bracedSuite)
  have hpath := (hrender "get_cases/7&suite_id=%C3%A9%2F%7BprojectId%7D").2
    ⟨casesHoles, "", ["7", "%C3%A9%2F%7BprojectId%7D"], hholes, List.not_mem_nil, rfl,
      .cons .project (.cons hfield .nil), rfl⟩
  refine ⟨hpath, fun input' h' => ?_⟩
  obtain ⟨s, hs, hs'⟩ := hsame "id" input' _ htakes hpath h'
  rwa [hs.unique htext] at hs'

end QaLake.PathTemplate
