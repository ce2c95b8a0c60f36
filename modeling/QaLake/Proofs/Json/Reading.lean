import Mathlib.Data.List.TakeWhile
import QaLake.Proofs.Json.Grammar

namespace QaLake.Json.Document

section Blanks

variable {cs front back rest : List Char} {form : List Char → Prop}

theorem skipBlanks_cons {c : Char} (h : isBlank c = false) (cs : List Char) :
    skipBlanks (c :: cs) = c :: cs := by
  simp [skipBlanks, h]

theorem skipBlanks_append (h : AreBlanks front) (cs : List Char) :
    skipBlanks (front ++ cs) = skipBlanks cs :=
  List.dropWhile_append_of_pos h

theorem exists_blanks (cs : List Char) : ∃ front, AreBlanks front ∧ cs = front ++ skipBlanks cs :=
  ⟨cs.takeWhile isBlank, List.all_eq_true.1 List.all_takeWhile,
    List.takeWhile_append_dropWhile.symm⟩

theorem endsNumber_of_isBlank {c : Char} (h : isBlank c = true) (cs : List Char) :
    EndsNumber (c :: cs) := by
  have hblank : c = ' ' ∨ c = '\t' ∨ c = '\n' ∨ c = '\r' := by
    simpa [isBlank, or_assoc] using h
  obtain rfl | rfl | rfl | rfl := hblank <;> exact endsNumber_cons (by decide) cs

theorem AreBlanks.endsNumber_append (h : AreBlanks back) (hrest : EndsNumber rest) :
    EndsNumber (back ++ rest) := by
  cases back with
  | nil => exact hrest
  | cons c back => exact endsNumber_of_isBlank (h c List.mem_cons_self) _

theorem AreBlanks.append (h : AreBlanks front) (h' : AreBlanks back) : AreBlanks (front ++ back) :=
  List.forall_mem_append.2 ⟨h, h'⟩

theorem AreBlanks.nil : AreBlanks [] :=
  fun _ hc => nomatch hc

theorem Padded.of_form (h : form cs) : Padded form cs :=
  ⟨[], cs, [], (List.append_nil cs).symm, .nil, h, .nil⟩

theorem Padded.blanks_append (h : Padded form cs) (hfront : AreBlanks front) :
    Padded form (front ++ cs) := by
  obtain ⟨front', body, back, rfl, hfront', hbody, hback⟩ := h
  exact ⟨front ++ front', body, back, (List.append_assoc _ _ _).symm, hfront.append hfront', hbody,
    hback⟩

theorem Padded.append_blanks (h : Padded form cs) (hback : AreBlanks back) :
    Padded form (cs ++ back) := by
  obtain ⟨front, body, back', rfl, hfront, hbody, hback'⟩ := h
  refine ⟨front, body, back' ++ back, ?_, hfront, hbody, hback'.append hback⟩
  rw [List.append_assoc, List.append_assoc]

theorem Padded.exists_skipBlanks (h : Padded form cs)
    (hform : ∀ body, form body → ∀ rest, skipBlanks (body ++ rest) = body ++ rest)
    (rest : List Char) : ∃ body back, form body ∧ AreBlanks back ∧ body.length ≤ cs.length ∧
      skipBlanks (cs ++ rest) = body ++ (back ++ rest) := by
  obtain ⟨front, body, back, rfl, hfront, hbody, hback⟩ := h
  refine ⟨body, back, hbody, hback, ?_, ?_⟩
  · simp only [List.length_append]
    omega
  · rw [List.append_assoc, skipBlanks_append hfront, List.append_assoc, hform body hbody]

end Blanks

section Starts

variable {cs : List Char}

theorem number_start_ne {c d : Char} (hc : c.isDigit = true ∨ c = '-')
    (hd : d.isDigit = false ∧ d ≠ '-') : c ≠ d := by
  rintro rfl
  obtain hc | hc := hc
  · exact absurd hc (by simp [hd.1])
  · exact hd.2 hc

theorem IsLiteral.exists_cons {l : Literal} (h : IsLiteral l cs) :
    ∃ c rest, cs = c :: rest ∧ (c.isDigit = true ∨ c = '-') := by
  obtain ⟨whole, fraction, exponent, rfl, hwhole, -⟩ := h
  cases l.negative with
  | true => exact ⟨_, _, rfl, .inr rfl⟩
  | false =>
    cases whole with
    | nil => exact absurd rfl hwhole.1.nonempty
    | cons c whole => exact ⟨_, _, rfl, .inl (hwhole.1.digits c List.mem_cons_self)⟩

theorem IsWritten.exists_cons {d : Document} (h : IsWritten d cs) :
    ∃ c rest, cs = c :: rest ∧ isBlank c = false ∧ c ≠ ']' ∧ c ≠ '}' := by
  cases d with
  | null => exact ⟨_, _, h, by decide, by decide, by decide⟩
  | bool b => cases b <;> exact ⟨_, _, h, by decide, by decide, by decide⟩
  | num n =>
    obtain ⟨l, -, hl⟩ := h
    obtain ⟨c, rest, rfl, hc⟩ := hl.exists_cons
    refine ⟨c, rest, rfl, ?_, number_start_ne hc (by decide), number_start_ne hc (by decide)⟩
    have hspace : c ≠ ' ' := number_start_ne hc (by decide)
    have htab : c ≠ '\t' := number_start_ne hc (by decide)
    have hline : c ≠ '\n' := number_start_ne hc (by decide)
    have hreturn : c ≠ '\r' := number_start_ne hc (by decide)
    simp [isBlank, hspace, htab, hline, hreturn]
  | str s =>
    obtain ⟨ps, quoted, rfl, -⟩ := h
    exact ⟨_, _, rfl, by decide, by decide, by decide⟩
  | arr items =>
    obtain ⟨body, rfl, -⟩ := h
    exact ⟨_, _, rfl, by decide, by decide, by decide⟩
  | obj members =>
    obtain ⟨body, rfl, -⟩ := h
    exact ⟨_, _, rfl, by decide, by decide, by decide⟩
  | broken => exact h.elim

theorem IsWritten.skipBlanks_append {d : Document} (h : IsWritten d cs) (rest : List Char) :
    skipBlanks (cs ++ rest) = cs ++ rest := by
  obtain ⟨c, cs, rfl, hc, -⟩ := h.exists_cons
  exact skipBlanks_cons hc _

theorem IsQuoted.skipBlanks_append {s : Option String} (h : IsQuoted s cs) (rest : List Char) :
    skipBlanks (cs ++ rest) = cs ++ rest := by
  obtain ⟨ps, quoted, rfl, -⟩ := h
  exact skipBlanks_cons (by decide) _

theorem IsMember.exists_named? {name : Option String} {value : List Char → Prop}
    (h : IsMember name value cs) (rest : List Char) :
    ∃ text, Padded value text ∧ text.length < cs.length ∧
      named? (skipBlanks (cs ++ rest)) = some (name, some (skipBlanks (text ++ rest))) := by
  obtain ⟨label, text, rfl, hlabel, htext⟩ := h
  refine ⟨text, htext, ?_, ?_⟩
  · simp only [List.length_append, List.length_cons]
    omega
  · obtain ⟨body, back, hbody, hback, -, hskip⟩ :=
      hlabel.exists_skipBlanks (fun _ h => h.skipBlanks_append) (':' :: (text ++ rest))
    obtain ⟨quoted, rfl, hquoted⟩ := string?_of_isQuoted hbody (back ++ ':' :: (text ++ rest))
    have hcolon : skipBlanks (back ++ ':' :: (text ++ rest)) = ':' :: (text ++ rest) := by
      rw [Document.skipBlanks_append hback, skipBlanks_cons (by decide)]
    rw [List.append_assoc, List.cons_append, hskip, List.cons_append, named?]
    simp only [hquoted, Option.bind_eq_bind, Option.bind_some, hcolon]
    rfl

end Starts

section Steps

variable {fuel : Nat} {cs rest rest' : List Char}

theorem value_literal {c : Char} (hc : c.isDigit = true ∨ c = '-') (fuel : Nat) (cs : List Char) :
    value (fuel + 1) (c :: cs) =
      match literal? (c :: cs) with
      | some (l, rest) => (.num l.number, some rest)
      | none => (.broken, none) := by
  have hnull : c ≠ 'n' := number_start_ne hc (by decide)
  have htrue : c ≠ 't' := number_start_ne hc (by decide)
  have hfalse : c ≠ 'f' := number_start_ne hc (by decide)
  have hquote : c ≠ '"' := number_start_ne hc (by decide)
  have hbracket : c ≠ '[' := number_start_ne hc (by decide)
  have hbrace : c ≠ '{' := number_start_ne hc (by decide)
  rw [value]
  all_goals first | rfl | simp_all

theorem value_arr_nil (h : skipBlanks cs = ']' :: rest) :
    value (fuel + 1) ('[' :: cs) = (.arr [], some rest) := by
  rw [value, h]
  rfl

theorem value_arr (h : ∀ rest, skipBlanks cs ≠ ']' :: rest) :
    value (fuel + 1) ('[' :: cs) =
      (.arr (items fuel (skipBlanks cs)).1, (items fuel (skipBlanks cs)).2) := by
  rw [value]
  split
  · rename_i hskip
    exact absurd hskip (h _)
  · rfl

theorem value_obj_nil (h : skipBlanks cs = '}' :: rest) :
    value (fuel + 1) ('{' :: cs) = (.obj [], some rest) := by
  rw [value, h]
  rfl

theorem value_obj (h : ∀ rest, skipBlanks cs ≠ '}' :: rest) :
    value (fuel + 1) ('{' :: cs) =
      (.obj (members fuel (skipBlanks cs)).1, (members fuel (skipBlanks cs)).2) := by
  rw [value]
  split
  · rename_i hskip
    exact absurd hskip (h _)
  · rfl

section Items

variable {item : Document} (hvalue : value fuel cs = (item, some rest))

include hvalue

theorem items_last (h : skipBlanks rest = ']' :: rest') :
    items (fuel + 1) cs = ([item], some rest') := by
  rw [items, hvalue]
  simp only [h]

theorem items_comma (h : skipBlanks rest = ',' :: rest') :
    items (fuel + 1) cs =
      (item :: (items fuel (skipBlanks rest')).1, (items fuel (skipBlanks rest')).2) := by
  rw [items, hvalue]
  simp only [h]

end Items

section Members

variable {text : List Char} {name : Option String} {item : Document}
  (hname : named? cs = some (name, some text)) (hvalue : value fuel text = (item, some rest))

include hname hvalue

theorem members_last (h : skipBlanks rest = '}' :: rest') :
    members (fuel + 1) cs = ([(name, item)], some rest') := by
  rw [members, hname]
  simp only [hvalue, h]

theorem members_comma (h : skipBlanks rest = ',' :: rest') :
    members (fuel + 1) cs =
      ((name, item) :: (members fuel (skipBlanks rest')).1,
        (members fuel (skipBlanks rest')).2) := by
  rw [members, hname]
  simp only [hvalue, h]

end Members

end Steps

theorem value_of_padded {d : Document} {cs : List Char} (h : Padded (IsWritten d) cs) {fuel : Nat}
    (hfuel : cs.length < fuel)
    (hvalue : ∀ body rest, body.length < fuel → IsWritten d body → EndsNumber rest →
      value fuel (body ++ rest) = (d, some rest))
    (mark : Char) (hmark : mark ∈ [',', ']', '}']) (rest : List Char) :
    ∃ behind, value fuel (skipBlanks (cs ++ mark :: rest)) = (d, some behind) ∧
      skipBlanks behind = mark :: rest := by
  have hplain : isBlank mark = false ∧
      (mark.isDigit = false ∧ mark ≠ '.' ∧ mark ≠ 'e' ∧ mark ≠ 'E') := by
    simp only [List.mem_cons, List.not_mem_nil, or_false] at hmark
    obtain rfl | rfl | rfl := hmark <;> decide
  obtain ⟨body, back, hbody, hback, hlength, hskip⟩ :=
    h.exists_skipBlanks (fun _ h => h.skipBlanks_append) (mark :: rest)
  refine ⟨back ++ mark :: rest, ?_, ?_⟩
  · rw [hskip]
    exact hvalue _ _ (Nat.lt_of_le_of_lt hlength hfuel) hbody
      (hback.endsNumber_append (endsNumber_cons hplain.2 rest))
  · rw [skipBlanks_append hback, skipBlanks_cons hplain.1]

theorem Padded.skipBlanks_ne {d : Document} {cs : List Char} (h : Padded (IsWritten d) cs)
    (rest rest' : List Char) : skipBlanks (cs ++ rest) ≠ ']' :: rest' := by
  obtain ⟨body, back, hbody, -, -, hskip⟩ :=
    h.exists_skipBlanks (fun _ h => h.skipBlanks_append) rest
  obtain ⟨c, body, rfl, -, hc⟩ := hbody.exists_cons
  rw [hskip]
  exact fun he => hc.1 (List.cons.inj he).1

theorem AreItems.skipBlanks_ne {item : Document} {items : List Document} {cs : List Char}
    (h : AreItems (item :: items) cs) (rest rest' : List Char) :
    skipBlanks (cs ++ rest) ≠ ']' :: rest' := by
  cases items with
  | nil => exact Padded.skipBlanks_ne h rest rest'
  | cons next items =>
    obtain ⟨first, others, rfl, hfirst, -⟩ := h
    rw [List.append_assoc]
    exact hfirst.skipBlanks_ne _ rest'

theorem IsMember.skipBlanks_ne {name : Option String} {value : List Char → Prop} {cs : List Char}
    (h : IsMember name value cs) (rest rest' : List Char) :
    skipBlanks (cs ++ rest) ≠ '}' :: rest' := by
  obtain ⟨label, text, rfl, hlabel, -⟩ := h
  obtain ⟨body, back, hbody, -, -, hskip⟩ :=
    hlabel.exists_skipBlanks (fun _ h => h.skipBlanks_append) (':' :: (text ++ rest))
  obtain ⟨ps, quoted, rfl, -⟩ := hbody
  rw [List.append_assoc, List.cons_append, hskip]
  exact fun he => absurd (List.cons.inj he).1 (by decide)

theorem AreMembers.skipBlanks_ne {name : Option String} {item : Document}
    {members : List (Option String × Document)} {cs : List Char}
    (h : AreMembers ((name, item) :: members) cs) (rest rest' : List Char) :
    skipBlanks (cs ++ rest) ≠ '}' :: rest' := by
  cases members with
  | nil => exact IsMember.skipBlanks_ne h rest rest'
  | cons next members =>
    obtain ⟨first, others, rfl, hfirst, -⟩ := h
    rw [List.append_assoc]
    exact hfirst.skipBlanks_ne _ rest'

mutual

-- The induction is on the fuel. What stands between two brackets is shorter than the whole by both
-- of them: one unit less is enough for the list, and again one less for each of its parts.

/-- A written document is read up to its last character, if there is enough fuel for its length. -/
theorem value_of_isWritten (d : Document) {cs : List Char} (h : IsWritten d cs) (fuel : Nat)
    (hfuel : cs.length < fuel) {rest : List Char} (hrest : EndsNumber rest) :
    value fuel (cs ++ rest) = (d, some rest) := by
  obtain ⟨fuel, rfl⟩ := Nat.exists_eq_add_of_lt (Nat.zero_lt_of_lt hfuel)
  rw [Nat.zero_add] at hfuel ⊢
  match d with
  | .null | .bool true | .bool false =>
    obtain rfl := h
    rfl
  | .num n =>
    obtain ⟨l, rfl, hl⟩ := h
    have hread := literal?_of_isLiteral hl hrest
    obtain ⟨c, cs, rfl, hc⟩ := hl.exists_cons
    rw [List.cons_append] at hread ⊢
    rw [value_literal hc, hread]
  | .str s =>
    obtain ⟨quoted, rfl, hquoted⟩ := string?_of_isQuoted h rest
    rw [List.cons_append, value, hquoted]
  | .arr items =>
    obtain ⟨body, rfl, hbody⟩ := h
    rw [List.cons_append, List.append_assoc, List.singleton_append]
    match items with
    | [] => exact value_arr_nil (by rw [skipBlanks_append hbody, skipBlanks_cons (by decide)])
    | item :: items =>
      have hlength : body.length + 1 < fuel := by
        simp only [List.length_cons, List.length_append, List.length_nil] at hfuel
        omega
      rw [value_arr (hbody.skipBlanks_ne _), items_of_areItems item items hbody fuel hlength rest]
  | .obj members =>
    obtain ⟨body, rfl, hbody⟩ := h
    rw [List.cons_append, List.append_assoc, List.singleton_append]
    match members with
    | [] => exact value_obj_nil (by rw [skipBlanks_append hbody, skipBlanks_cons (by decide)])
    | (name, item) :: members =>
      have hlength : body.length + 1 < fuel := by
        simp only [List.length_cons, List.length_append, List.length_nil] at hfuel
        omega
      rw [value_obj (hbody.skipBlanks_ne _),
        members_of_areMembers name item members hbody fuel hlength rest]
  | .broken => exact h.elim
termination_by fuel
decreasing_by all_goals omega

theorem items_of_areItems (item : Document) (items : List Document) {cs : List Char}
    (h : AreItems (item :: items) cs) (fuel : Nat) (hfuel : cs.length + 1 < fuel)
    (rest : List Char) :
    Document.items fuel (skipBlanks (cs ++ ']' :: rest)) = (item :: items, some rest) := by
  obtain ⟨fuel, rfl⟩ := Nat.exists_eq_add_of_lt (Nat.zero_lt_of_lt hfuel)
  rw [Nat.zero_add] at hfuel ⊢
  have hitem := fun body rest hlength hwritten hrest =>
    @value_of_isWritten item body hwritten fuel hlength rest hrest
  match items with
  | [] =>
    obtain ⟨behind, hvalue, hbehind⟩ :=
      value_of_padded h (by omega) hitem ']' (by decide) rest
    exact items_last hvalue hbehind
  | next :: items =>
    obtain ⟨first, others, rfl, hfirst, hothers⟩ := h
    rw [List.length_append, List.length_cons] at hfuel
    obtain ⟨behind, hvalue, hbehind⟩ :=
      value_of_padded hfirst (by omega) hitem ',' (by decide) (others ++ ']' :: rest)
    rw [List.append_assoc, List.cons_append, items_comma hvalue hbehind,
      items_of_areItems next items hothers fuel (by omega) rest]
termination_by fuel
decreasing_by all_goals omega

theorem members_of_areMembers (name : Option String) (item : Document)
    (members : List (Option String × Document)) {cs : List Char}
    (h : AreMembers ((name, item) :: members) cs) (fuel : Nat) (hfuel : cs.length + 1 < fuel)
    (rest : List Char) :
    Document.members fuel (skipBlanks (cs ++ '}' :: rest)) =
      ((name, item) :: members, some rest) := by
  obtain ⟨fuel, rfl⟩ := Nat.exists_eq_add_of_lt (Nat.zero_lt_of_lt hfuel)
  rw [Nat.zero_add] at hfuel ⊢
  have hitem := fun body rest hlength hwritten hrest =>
    @value_of_isWritten item body hwritten fuel hlength rest hrest
  match members with
  | [] =>
    obtain ⟨text, htext, hlength, hname⟩ := IsMember.exists_named? h ('}' :: rest)
    obtain ⟨behind, hvalue, hbehind⟩ :=
      value_of_padded htext (by omega) hitem '}' (by decide) rest
    exact members_last hname hvalue hbehind
  | (next, value) :: members =>
    obtain ⟨first, others, rfl, hfirst, hothers⟩ := h
    rw [List.length_append, List.length_cons] at hfuel
    obtain ⟨text, htext, hlength, hname⟩ := hfirst.exists_named? (',' :: (others ++ '}' :: rest))
    obtain ⟨behind, hvalue, hbehind⟩ :=
      value_of_padded htext (by omega) hitem ',' (by decide) (others ++ '}' :: rest)
    rw [List.append_assoc, List.cons_append, members_comma hname hvalue hbehind,
      members_of_areMembers next value members hothers fuel (by omega) rest]
termination_by fuel
decreasing_by all_goals omega

end

theorem AreItems.blanks_append {item : Document} {items : List Document} {front cs : List Char}
    (h : AreItems (item :: items) cs) (hfront : AreBlanks front) :
    AreItems (item :: items) (front ++ cs) := by
  cases items with
  | nil => exact Padded.blanks_append h hfront
  | cons next items =>
    obtain ⟨first, others, rfl, hfirst, hothers⟩ := h
    exact ⟨front ++ first, others, (List.append_assoc _ _ _).symm, hfirst.blanks_append hfront,
      hothers⟩

theorem IsMember.blanks_append {name : Option String} {value : List Char → Prop}
    {front cs : List Char} (h : IsMember name value cs) (hfront : AreBlanks front) :
    IsMember name value (front ++ cs) := by
  obtain ⟨label, text, rfl, hlabel, htext⟩ := h
  exact ⟨front ++ label, text, (List.append_assoc _ _ _).symm, hlabel.blanks_append hfront, htext⟩

theorem AreMembers.blanks_append {name : Option String} {item : Document}
    {members : List (Option String × Document)} {front cs : List Char}
    (h : AreMembers ((name, item) :: members) cs) (hfront : AreBlanks front) :
    AreMembers ((name, item) :: members) (front ++ cs) := by
  cases members with
  | nil => exact IsMember.blanks_append h hfront
  | cons next members =>
    obtain ⟨first, others, rfl, hfirst, hothers⟩ := h
    exact ⟨front ++ first, others, (List.append_assoc _ _ _).symm, hfirst.blanks_append hfront,
      hothers⟩

theorem exists_of_skipBlanks {cs rest : List Char} (h : skipBlanks cs = rest) :
    ∃ front, AreBlanks front ∧ cs = front ++ rest :=
  h ▸ exists_blanks cs

theorem exists_of_named? {cs text : List Char} {name : Option String}
    (h : named? cs = some (name, some text)) :
    ∃ label front, cs = label ++ ':' :: (front ++ text) ∧ Padded (IsQuoted name) label ∧
      AreBlanks front := by
  rw [named?.eq_def] at h
  split at h
  · rename_i quoted
    obtain ⟨⟨s, rest⟩, hs, h⟩ := Option.bind_eq_some_iff.1 h
    simp only at h
    split at h
    · rename_i behind hskip
      cases h
      obtain ⟨label, hcs, hlabel⟩ := isQuoted_of_string? hs
      obtain ⟨back, hback, rfl⟩ := exists_of_skipBlanks hskip
      obtain ⟨front, hfront, hbehind⟩ := exists_blanks behind
      refine ⟨label ++ back, front, ?_, (Padded.of_form hlabel).append_blanks hback, hfront⟩
      rw [hcs, ← hbehind, List.append_assoc]
    · cases h
  · cases h

mutual

theorem isWritten_of_value {fuel : Nat} {cs rest : List Char} {d : Document}
    (h : value fuel cs = (d, some rest)) : ∃ body, cs = body ++ rest ∧ IsWritten d body := by
  match fuel with
  | 0 => cases h
  | fuel + 1 =>
    unfold value at h
    split at h
    · cases h
      exact ⟨_, rfl, rfl⟩
    · cases h
      exact ⟨_, rfl, rfl⟩
    · cases h
      exact ⟨_, rfl, rfl⟩
    · split at h
      · rename_i hs
        cases h
        exact isQuoted_of_string? hs
      · cases h
    · rename_i behind
      obtain ⟨front, hfront, hbehind⟩ := exists_blanks behind
      split at h
      · rename_i hskip
        cases h
        rw [hbehind, hskip]
        exact ⟨'[' :: (front ++ [']']), by simp, front, rfl, hfront⟩
      · cases hitems : items fuel (skipBlanks behind) with
        | mk items' rest' =>
          rw [hitems] at h
          cases h
          obtain ⟨item, others, body, rfl, hbody, hwritten⟩ := areItems_of_items hitems
          rw [hbehind, hbody]
          exact ⟨'[' :: ((front ++ body) ++ [']']), by simp, front ++ body, rfl,
            hwritten.blanks_append hfront⟩
    · rename_i behind
      obtain ⟨front, hfront, hbehind⟩ := exists_blanks behind
      split at h
      · rename_i hskip
        cases h
        rw [hbehind, hskip]
        exact ⟨'{' :: (front ++ ['}']), by simp, front, rfl, hfront⟩
      · cases hmembers : members fuel (skipBlanks behind) with
        | mk members' rest' =>
          rw [hmembers] at h
          cases h
          obtain ⟨name, item, others, body, rfl, hbody, hwritten⟩ := areMembers_of_members hmembers
          rw [hbehind, hbody]
          exact ⟨'{' :: ((front ++ body) ++ ['}']), by simp, front ++ body, rfl,
            hwritten.blanks_append hfront⟩
    · split at h
      · rename_i hl
        cases h
        obtain ⟨literal, hcs, hl⟩ := isLiteral_of_literal? hl
        exact ⟨literal, hcs, _, rfl, hl⟩
      · cases h

theorem areItems_of_items {fuel : Nat} {cs rest : List Char} {items : List Document}
    (h : Document.items fuel cs = (items, some rest)) :
    ∃ item others body, items = item :: others ∧ cs = body ++ ']' :: rest ∧
      AreItems (item :: others) body := by
  match fuel with
  | 0 => cases h
  | fuel + 1 =>
    rw [Document.items] at h
    split at h
    · cases h
    · rename_i item behind hvalue
      obtain ⟨body, rfl, hbody⟩ := isWritten_of_value hvalue
      split at h
      · rename_i hskip
        cases h
        obtain ⟨back, hback, rfl⟩ := exists_of_skipBlanks hskip
        refine ⟨item, [], body ++ back, rfl, (List.append_assoc _ _ _).symm, ?_⟩
        exact (Padded.of_form hbody).append_blanks hback
      · rename_i after hskip
        obtain ⟨back, hback, rfl⟩ := exists_of_skipBlanks hskip
        obtain ⟨front, hfront, hafter⟩ := exists_blanks after
        cases hitems : Document.items fuel (skipBlanks after) with
        | mk items' rest' =>
          rw [hitems] at h
          cases h
          obtain ⟨next, others, text, rfl, htext, hwritten⟩ := areItems_of_items hitems
          rw [hafter, htext]
          refine ⟨item, next :: others, (body ++ back) ++ ',' :: (front ++ text), rfl, by simp, ?_⟩
          exact ⟨_, _, rfl, (Padded.of_form hbody).append_blanks hback,
            hwritten.blanks_append hfront⟩
      · cases h

theorem areMembers_of_members {fuel : Nat} {cs rest : List Char}
    {members : List (Option String × Document)}
    (h : Document.members fuel cs = (members, some rest)) :
    ∃ name item others body, members = (name, item) :: others ∧ cs = body ++ '}' :: rest ∧
      AreMembers ((name, item) :: others) body := by
  match fuel with
  | 0 => cases h
  | fuel + 1 =>
    rw [Document.members] at h
    split at h
    · cases h
    · cases h
    · rename_i name text hname
      obtain ⟨label, front, rfl, hlabel, hfront⟩ := exists_of_named? hname
      split at h
      · cases h
      · rename_i item behind hvalue
        obtain ⟨body, rfl, hbody⟩ := isWritten_of_value hvalue
        have hpadded := (Padded.of_form hbody).blanks_append hfront
        split at h
        · rename_i hskip
          cases h
          obtain ⟨back, hback, rfl⟩ := exists_of_skipBlanks hskip
          refine ⟨name, item, [], label ++ ':' :: (front ++ body ++ back), rfl, by simp, ?_⟩
          exact ⟨label, _, rfl, hlabel, hpadded.append_blanks hback⟩
        · rename_i after hskip
          obtain ⟨back, hback, rfl⟩ := exists_of_skipBlanks hskip
          obtain ⟨front', hfront', hafter⟩ := exists_blanks after
          cases hmembers : Document.members fuel (skipBlanks after) with
          | mk members' rest' =>
            rw [hmembers] at h
            cases h
            obtain ⟨name', item', others, text, rfl, htext, hwritten⟩ :=
              areMembers_of_members hmembers
            rw [hafter, htext]
            refine ⟨name, item, (name', item') :: others,
              (label ++ ':' :: (front ++ body ++ back)) ++ ',' :: (front' ++ text), rfl,
              by simp, ?_⟩
            exact ⟨_, _, rfl, ⟨label, _, rfl, hlabel, hpadded.append_blanks hback⟩,
              hwritten.blanks_append hfront'⟩
        · cases h

end

theorem read?_eq_some_iff {s : String} {d : Document} :
    read? s = some d ↔ Padded (IsWritten d) s.toList := by
  rw [read?, read]
  constructor
  · intro h
    obtain ⟨front, hfront, hs⟩ := exists_blanks s.toList
    cases hvalue : value (s.toList.length + 1) (skipBlanks s.toList) with
    | mk d' rest =>
      cases rest with
      | none => simp [hvalue] at h
      | some rest =>
        have hback : skipBlanks rest = [] := by
          cases hskip : skipBlanks rest with
          | nil => rfl
          | cons c cs => simp [hvalue, hskip] at h
        obtain rfl : d' = d := by simpa [hvalue, hback] using h
        obtain ⟨body, hbody, hwritten⟩ := isWritten_of_value hvalue
        refine ⟨front, body, rest, hbody ▸ hs, hfront, hwritten, ?_⟩
        exact List.dropWhile_eq_nil_iff.1 hback
  · rintro ⟨front, body, back, hs, hfront, hbody, hback⟩
    have hskip : skipBlanks s.toList = body ++ back := by
      rw [hs, skipBlanks_append hfront, hbody.skipBlanks_append]
    have hlength : body.length < s.toList.length + 1 := by
      rw [hs]
      simp only [List.length_append]
      omega
    have hend : EndsNumber (back ++ []) := hback.endsNumber_append trivial
    rw [List.append_nil] at hend
    have hvalue := value_of_isWritten d hbody _ hlength hend
    have hempty : skipBlanks back = [] := List.dropWhile_eq_nil_iff.2 hback
    rw [hskip]
    simp [hvalue, hempty]

end QaLake.Json.Document
