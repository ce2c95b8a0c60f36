import QaLake.Proofs.Json.Numerals
import QaLake.Proofs.Json.Quoted

namespace QaLake.Json

open Text

mutual

def spelled : Json → Json
  | .null => .null
  | .bool b => .bool b
  | .num n => .str n.text
  | .str s => .str s
  | .arr items => .arr (itemsSpelled items)
  | .obj members => .obj (membersSpelled members)

def itemsSpelled : List Json → List Json
  | [] => []
  | item :: rest => spelled item :: itemsSpelled rest

def membersSpelled : List (String × Json) → List (String × Json)
  | [] => []
  | (name, value) :: rest => (name, spelled value) :: membersSpelled rest

end

def Stops (cs : List Char) : Prop :=
  ∀ c ∈ cs.head?, ¬IsNumeralChar c

theorem stops_cons {c : Char} (h : ¬IsNumeralChar c) (cs : List Char) : Stops (c :: cs) := by
  intro d hd
  cases hd
  exact h

theorem numeral_append_inj {cs ds rest rest' : List Char} (hcs : ∀ c ∈ cs, IsNumeralChar c)
    (hds : ∀ c ∈ ds, IsNumeralChar c) (hrest : Stops rest) (hrest' : Stops rest')
    (h : cs ++ rest = ds ++ rest') : cs = ds ∧ rest = rest' := by
  induction cs generalizing ds with
  | nil =>
    cases ds with
    | nil => exact ⟨rfl, h⟩
    | cons d ds =>
      have hd : d ∈ rest.head? := by
        rw [List.nil_append] at h
        rw [h]
        rfl
      exact absurd (hds d List.mem_cons_self) (hrest d hd)
  | cons c cs ih =>
    cases ds with
    | nil =>
      have hc : c ∈ rest'.head? := by
        rw [List.nil_append] at h
        rw [← h]
        rfl
      exact absurd (hcs c List.mem_cons_self) (hrest' c hc)
    | cons d ds =>
      obtain ⟨rfl, htail⟩ := List.cons.inj h
      obtain ⟨rfl, hends⟩ := ih (fun c hc => hcs c (List.mem_cons_of_mem _ hc))
        (fun c hc => hds c (List.mem_cons_of_mem _ hc)) htail
      exact ⟨rfl, hends⟩

theorem strChars_append_inj {s s' : String} {rest rest' : List Char}
    (h : strChars s ++ rest = strChars s' ++ rest') : s = s' ∧ rest = rest' := by
  have hread : ∀ (s : String) (rest : List Char),
      strChars s ++ rest = '"' :: (s.toList.flatMap escape ++ '"' :: rest) := by
    intro s rest
    simp [strChars]
  rw [hread, hread] at h
  have hs := string?_strChars s rest
  rw [(List.cons.inj h).2, string?_strChars] at hs
  obtain ⟨hname, hrest⟩ := Prod.mk.inj (Option.some.inj hs)
  exact ⟨(Option.some.inj hname).symm, hrest.symm⟩

/-- The character that tells how a value is written. All numbers count as one. -/
def form : Json → Char
  | .null => 'n'
  | .bool true => 't'
  | .bool false => 'f'
  | .num _ => '0'
  | .str _ => '"'
  | .arr _ => '['
  | .obj _ => '\x7b'

def formOf (c : Char) : Char :=
  if c ∈ ['n', 't', 'f', '"', '[', '\x7b'] then c
  else if c ∈ [']', '\x7d', ','] then ' '
  else '0'

theorem formOf_numeral {c : Char} (h : IsNumeralChar c) : formOf c = '0' := by
  have hne : ∀ d ∈ ['n', 't', 'f', '"', '[', '\x7b', ']', '\x7d', ','], c ≠ d := by
    rintro d hd rfl
    have hall : ∀ d ∈ ['n', 't', 'f', '"', '[', '\x7b', ']', '\x7d', ','], ¬IsNumeralChar d := by
      simp [IsNumeralChar]
    exact hall c hd h
  have hopen : c ∉ ['n', 't', 'f', '"', '[', '\x7b'] := fun hc =>
    hne c (List.mem_append_left [']', '\x7d', ','] hc) rfl
  have hclose : c ∉ [']', '\x7d', ','] := fun hc =>
    hne c (List.mem_append_right ['n', 't', 'f', '"', '[', '\x7b'] hc) rfl
  rw [formOf, if_neg hopen, if_neg hclose]

theorem head_chars (j : Json) (rest : List Char) :
    ∃ c cs, j.chars ++ rest = c :: cs ∧ formOf c = j.form := by
  cases j with
  | null => exact ⟨_, _, rfl, rfl⟩
  | bool b => cases b <;> exact ⟨_, _, rfl, rfl⟩
  | num n =>
    obtain ⟨hnumeral, hall⟩ := n.isSome_numeral?_chars
    cases hcs : n.chars with
    | nil =>
      rw [hcs] at hnumeral
      cases hnumeral
    | cons c cs =>
      refine ⟨c, cs ++ rest, by rw [chars, hcs, List.cons_append], ?_⟩
      exact formOf_numeral (hall c (hcs ▸ List.mem_cons_self))
  | str s => exact ⟨_, _, rfl, rfl⟩
  | arr items => exact ⟨_, _, rfl, rfl⟩
  | obj members => exact ⟨_, _, rfl, rfl⟩

theorem form_eq_of_append {i j : Json} {rest rest' : List Char}
    (h : i.chars ++ rest = j.chars ++ rest') : i.form = j.form := by
  obtain ⟨c, cs, hi, hform⟩ := head_chars i rest
  obtain ⟨d, ds, hj, hform'⟩ := head_chars j rest'
  obtain ⟨rfl, -⟩ := List.cons.inj (hi.symm.trans (h.trans hj))
  exact hform.symm.trans hform'

theorem chars_append_ne {c : Char} (hc : formOf c = ' ') (j : Json) (rest cs : List Char) :
    j.chars ++ rest ≠ c :: cs := by
  obtain ⟨d, ds, hj, hform⟩ := head_chars j rest
  intro h
  obtain ⟨rfl, -⟩ := List.cons.inj (hj.symm.trans h)
  rw [hc] at hform
  cases j with
  | bool b => cases b <;> cases hform
  | _ => cases hform

def itemsTail : List Json → List Char
  | [] => []
  | item :: rest => ',' :: itemsChars (item :: rest)

def membersTail : List (String × Json) → List Char
  | [] => []
  | member :: rest => ',' :: membersChars (member :: rest)

theorem itemsChars_cons (item : Json) (rest : List Json) :
    itemsChars (item :: rest) = item.chars ++ itemsTail rest := by
  cases rest with
  | nil => exact (List.append_nil _).symm
  | cons next rest => rfl

theorem membersChars_cons (name : String) (value : Json) (rest : List (String × Json)) :
    membersChars ((name, value) :: rest) =
      strChars name ++ ':' :: (value.chars ++ membersTail rest) := by
  cases rest with
  | nil =>
    rw [membersChars, membersTail, List.append_nil]
  | cons next rest =>
    rw [membersChars, List.append_assoc]
    · rfl
    · exact List.cons_ne_nil _ _

theorem stops_itemsTail (items : List Json) (rest : List Char) :
    Stops (itemsTail items ++ ']' :: rest) := by
  have hplain : ∀ c ∈ [',', ']'], ¬IsNumeralChar c := by
    simp [IsNumeralChar]
  cases items <;> exact stops_cons (hplain _ (by decide)) _

theorem stops_membersTail (members : List (String × Json)) (rest : List Char) :
    Stops (membersTail members ++ '\x7d' :: rest) := by
  have hplain : ∀ c ∈ [',', '\x7d'], ¬IsNumeralChar c := by
    simp [IsNumeralChar]
  cases members <;> exact stops_cons (hplain _ (by decide)) _

theorem itemsChars_of_tail {items items' : List Json} {rest rest' : List Char}
    (h : itemsTail items ++ ']' :: rest = itemsTail items' ++ ']' :: rest') :
    itemsChars items ++ ']' :: rest = itemsChars items' ++ ']' :: rest' := by
  cases items with
  | nil =>
    cases items' with
    | nil => exact h
    | cons item' items' => cases (List.cons.inj h).1
  | cons item items =>
    cases items' with
    | nil => cases (List.cons.inj h).1
    | cons item' items' => exact (List.cons.inj h).2

theorem membersChars_of_tail {members members' : List (String × Json)} {rest rest' : List Char}
    (h : membersTail members ++ '\x7d' :: rest = membersTail members' ++ '\x7d' :: rest') :
    membersChars members ++ '\x7d' :: rest = membersChars members' ++ '\x7d' :: rest' := by
  cases members with
  | nil =>
    cases members' with
    | nil => exact h
    | cons member' members' => cases (List.cons.inj h).1
  | cons member members =>
    cases members' with
    | nil => cases (List.cons.inj h).1
    | cons member' members' => exact (List.cons.inj h).2

mutual

/-- Values whose texts begin a text that goes on with no numeral are spelled alike and end at the
same place. -/
theorem spelled_of_append (i j : Json) {rest rest' : List Char} (hrest : Stops rest)
    (hrest' : Stops rest') (h : i.chars ++ rest = j.chars ++ rest') :
    i.spelled = j.spelled ∧ rest = rest' := by
  have hform := form_eq_of_append h
  match i with
  | .null =>
    cases j with
    | null => exact ⟨rfl, List.append_cancel_left h⟩
    | bool b => cases b <;> cases hform
    | _ => cases hform
  | .bool true =>
    cases j with
    | bool b =>
      cases b with
      | true => exact ⟨rfl, List.append_cancel_left h⟩
      | false => cases hform
    | _ => cases hform
  | .bool false =>
    cases j with
    | bool b =>
      cases b with
      | true => cases hform
      | false => exact ⟨rfl, List.append_cancel_left h⟩
    | _ => cases hform
  | .num n =>
    cases j with
    | num m =>
      have hnumerals := numeral_append_inj n.isSome_numeral?_chars.2 m.isSome_numeral?_chars.2
        hrest hrest'
      obtain ⟨hchars, hends⟩ := hnumerals h
      exact ⟨congrArg (fun cs => Json.str (String.ofList cs)) hchars, hends⟩
    | bool b => cases b <;> cases hform
    | _ => cases hform
  | .str s =>
    cases j with
    | str s' =>
      obtain ⟨rfl, hends⟩ := strChars_append_inj h
      exact ⟨rfl, hends⟩
    | bool b => cases b <;> cases hform
    | _ => cases hform
  | .arr items =>
    cases j with
    | arr items' =>
      have hitems : itemsChars items ++ ']' :: rest = itemsChars items' ++ ']' :: rest' := by
        simpa [chars] using h
      obtain ⟨hspelled, hends⟩ := itemsSpelled_of_append items items' hitems
      exact ⟨congrArg Json.arr hspelled, hends⟩
    | bool b => cases b <;> cases hform
    | _ => cases hform
  | .obj members =>
    cases j with
    | obj members' =>
      have hmembers : membersChars members ++ '\x7d' :: rest =
          membersChars members' ++ '\x7d' :: rest' := by
        simpa [chars] using h
      obtain ⟨hspelled, hends⟩ := membersSpelled_of_append members members' hmembers
      exact ⟨congrArg Json.obj hspelled, hends⟩
    | bool b => cases b <;> cases hform
    | _ => cases hform

theorem itemsSpelled_of_append (items items' : List Json) {rest rest' : List Char}
    (h : itemsChars items ++ ']' :: rest = itemsChars items' ++ ']' :: rest') :
    itemsSpelled items = itemsSpelled items' ∧ rest = rest' := by
  match items with
  | [] =>
    cases items' with
    | nil => exact ⟨rfl, (List.cons.inj h).2⟩
    | cons item' more' =>
      rw [itemsChars_cons, List.append_assoc] at h
      exact absurd h.symm (chars_append_ne (by decide) item' _ _)
  | item :: more =>
    cases items' with
    | nil =>
      rw [itemsChars_cons, List.append_assoc] at h
      exact absurd h (chars_append_ne (by decide) item _ _)
    | cons item' more' =>
      rw [itemsChars_cons, itemsChars_cons, List.append_assoc, List.append_assoc] at h
      obtain ⟨hitem, htail⟩ := spelled_of_append item item' (stops_itemsTail more rest)
        (stops_itemsTail more' rest') h
      obtain ⟨hmore, hends⟩ := itemsSpelled_of_append more more' (itemsChars_of_tail htail)
      exact ⟨congrArg₂ List.cons hitem hmore, hends⟩

theorem membersSpelled_of_append (members members' : List (String × Json))
    {rest rest' : List Char}
    (h : membersChars members ++ '\x7d' :: rest = membersChars members' ++ '\x7d' :: rest') :
    membersSpelled members = membersSpelled members' ∧ rest = rest' := by
  match members with
  | [] =>
    cases members' with
    | nil => exact ⟨rfl, (List.cons.inj h).2⟩
    | cons member' more' =>
      rw [membersChars_cons] at h
      cases (List.cons.inj h).1
  | (name, value) :: more =>
    cases members' with
    | nil =>
      rw [membersChars_cons] at h
      cases (List.cons.inj h).1
    | cons member' more' =>
      rw [membersChars_cons, membersChars_cons, List.append_assoc, List.append_assoc,
        List.cons_append, List.cons_append, List.append_assoc, List.append_assoc] at h
      obtain ⟨hname, hbehind⟩ := strChars_append_inj h
      obtain ⟨hvalue, htail⟩ := spelled_of_append value member'.2 (stops_membersTail more rest)
        (stops_membersTail more' rest') (List.cons.inj hbehind).2
      obtain ⟨hmore, hends⟩ := membersSpelled_of_append more more' (membersChars_of_tail htail)
      refine ⟨?_, hends⟩
      rw [membersSpelled, membersSpelled, hname, hvalue, hmore]

end

theorem spelled_of_text {i j : Json} (h : i.text = j.text) : i.spelled = j.spelled := by
  have hchars : i.chars = j.chars := String.ofList_injective h
  have hstops : Stops [] := fun c hc => nomatch hc
  refine (spelled_of_append i j hstops hstops ?_).1
  rw [hchars]

end QaLake.Json
