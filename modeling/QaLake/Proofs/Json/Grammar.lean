import QaLake.Proofs.Json.Quoted

namespace QaLake.Json

def EndsNumber : List Char → Prop
  | [] => True
  | c :: _ => c.isDigit = false ∧ c ≠ '.' ∧ c ≠ 'e' ∧ c ≠ 'E'

theorem endsNumber_cons {c : Char} (h : c.isDigit = false ∧ c ≠ '.' ∧ c ≠ 'e' ∧ c ≠ 'E')
    (cs : List Char) : EndsNumber (c :: cs) :=
  h

theorem EndsNumber.head {rest : List Char} (h : EndsNumber rest) :
    ∀ c ∈ rest.head?, c.isDigit = false ∧ c ≠ '.' ∧ c ≠ 'e' ∧ c ≠ 'E' := by
  intro c hc
  cases rest with
  | nil => cases hc
  | cons d rest =>
    cases hc
    exact h

namespace Document

def AreBlanks (cs : List Char) : Prop :=
  ∀ c ∈ cs, isBlank c = true

def Padded (form : List Char → Prop) (cs : List Char) : Prop :=
  ∃ front body back, cs = front ++ (body ++ back) ∧ AreBlanks front ∧ form body ∧ AreBlanks back

/-- Whether a text consists of digits, of one at least. -/
structure AreDigits (ds : List Nat) (cs : List Char) : Prop where
  nonempty : cs ≠ []
  digits : ∀ c ∈ cs, c.isDigit = true
  values : cs.map digitValue = ds

/-- Whether a text is the whole part of a number: a zero alone, or digits that do not start with
one. -/
def IsWhole (ds : List Nat) (cs : List Char) : Prop :=
  AreDigits ds cs ∧ (ds.head? = some 0 → ds = [0])

/-- Whether a text is the fraction of a number, which may be missing. -/
def IsFraction : Option (List Nat) → List Char → Prop
  | none, cs => cs = []
  | some ds, cs => ∃ digits, cs = '.' :: digits ∧ AreDigits ds digits

def signs : Bool → List (List Char)
  | true => [['-']]
  | false => [[], ['+']]

/-- Whether a text is the exponent of a number, which may be missing. -/
def IsExponent : Option (Bool × List Nat) → List Char → Prop
  | none, cs => cs = []
  | some (negative, ds), cs => ∃ e sign digits, cs = e :: (sign ++ digits) ∧
      (e = 'e' ∨ e = 'E') ∧ sign ∈ signs negative ∧ AreDigits ds digits

def IsLiteral (l : Literal) (cs : List Char) : Prop :=
  ∃ whole fraction exponent,
    cs = (if l.negative then ['-'] else []) ++ (whole ++ (fraction ++ exponent)) ∧
      IsWhole l.whole whole ∧ IsFraction l.fraction fraction ∧ IsExponent l.exponent exponent

/-- Whether a text consists of pieces and the closing quote. -/
inductive ArePieces : List Piece → List Char → Prop
  | closed : ArePieces [] ['"']
  | code {a b c d : Char} {n : Nat} {ps : List Piece} {cs : List Char} :
    hex4? a b c d = some n → ArePieces ps cs →
      ArePieces (.code n :: ps) ('\\' :: 'u' :: a :: b :: c :: d :: cs)
  | escape {e c : Char} {ps : List Piece} {cs : List Char} :
    escaped? e = some c → ArePieces ps cs → ArePieces (.char c :: ps) ('\\' :: e :: cs)
  | plain {c : Char} {ps : List Piece} {cs : List Char} :
    c ≠ '"' → c ≠ '\\' → ¬c.toNat < 0x20 → ArePieces ps cs → ArePieces (.char c :: ps) (c :: cs)

def IsQuoted (s : Option String) (cs : List Char) : Prop :=
  ∃ ps quoted, cs = '"' :: quoted ∧ ArePieces ps quoted ∧ s = (assemble? ps).map String.ofList

/-- Whether a text is a member of an object, given the form of its value. -/
def IsMember (name : Option String) (value : List Char → Prop) (cs : List Char) : Prop :=
  ∃ label text, cs = label ++ ':' :: text ∧ Padded (IsQuoted name) label ∧ Padded value text

mutual

def IsWritten : Document → List Char → Prop
  | .null, cs => cs = ['n', 'u', 'l', 'l']
  | .bool true, cs => cs = ['t', 'r', 'u', 'e']
  | .bool false, cs => cs = ['f', 'a', 'l', 's', 'e']
  | .num n, cs => ∃ l : Literal, l.number = n ∧ IsLiteral l cs
  | .str s, cs => IsQuoted s cs
  | .arr items, cs => ∃ body, cs = '[' :: (body ++ [']']) ∧ AreItems items body
  | .obj members, cs => ∃ body, cs = '{' :: (body ++ ['}']) ∧ AreMembers members body
  | .broken, _ => False

def AreItems : List Document → List Char → Prop
  | [], cs => AreBlanks cs
  | [item], cs => Padded (IsWritten item) cs
  | item :: rest, cs => ∃ first others, cs = first ++ ',' :: others ∧
      Padded (IsWritten item) first ∧ AreItems rest others

def AreMembers : List (Option String × Document) → List Char → Prop
  | [], cs => AreBlanks cs
  | [(name, value)], cs => IsMember name (IsWritten value) cs
  | (name, value) :: rest, cs => ∃ first others, cs = first ++ ',' :: others ∧
      IsMember name (IsWritten value) first ∧ AreMembers rest others

end

section Numbers

variable {cs rest : List Char}

theorem AreDigits.head {ds : List Nat} (h : AreDigits ds cs) (rest : List Char) :
    ∀ c ∈ (cs ++ rest).head?, c.isDigit = true := by
  intro c hc
  cases cs with
  | nil => exact absurd rfl h.nonempty
  | cons d cs => exact h.digits c (Option.some.inj hc ▸ List.mem_cons_self)

theorem AreDigits.exists_cons {ds : List Nat} (h : AreDigits ds cs) : ∃ d ds', ds = d :: ds' := by
  cases ds with
  | nil => exact absurd (List.map_eq_nil_iff.1 h.values) h.nonempty
  | cons d ds => exact ⟨d, ds, rfl⟩

theorem takeDigits_of_areDigits {ds : List Nat} (h : AreDigits ds cs)
    (hrest : ∀ c ∈ rest.head?, c.isDigit = false) : takeDigits (cs ++ rest) = (ds, rest) := by
  have htake : rest.takeWhile Char.isDigit = [] := by
    cases rest with
    | nil => rfl
    | cons c rest => simp [hrest c rfl]
  have hdrop : rest.dropWhile Char.isDigit = rest := by
    cases rest with
    | nil => rfl
    | cons c rest => simp [hrest c rfl]
  rw [takeDigits, List.takeWhile_append_of_pos h.digits, List.dropWhile_append_of_pos h.digits,
    htake, hdrop, List.append_nil, h.values]

theorem areDigits_of_takeDigits {ds : List Nat} (h : takeDigits cs = (ds, rest)) (hne : ds ≠ []) :
    ∃ digits, cs = digits ++ rest ∧ AreDigits ds digits := by
  obtain ⟨rfl, rfl⟩ := Prod.mk.inj h
  refine ⟨cs.takeWhile Char.isDigit, List.takeWhile_append_dropWhile.symm, ?_, ?_, rfl⟩
  · rintro he
    rw [he] at hne
    exact hne rfl
  · exact List.all_eq_true.1 List.all_takeWhile

theorem wholeDigits?_of_isWhole {ds : List Nat} (h : IsWhole ds cs)
    (hrest : ∀ c ∈ rest.head?, c.isDigit = false) :
    wholeDigits? (cs ++ rest) = some (ds, rest) := by
  obtain ⟨hdigits, hzero⟩ := h
  rw [wholeDigits?, takeDigits_of_areDigits hdigits hrest]
  obtain ⟨d, ds, rfl⟩ := hdigits.exists_cons
  cases ds with
  | nil => rfl
  | cons e ds =>
    have hd : d ≠ 0 := by
      rintro rfl
      cases hzero rfl
    simp only [if_neg hd]

theorem isWhole_of_wholeDigits? {ds : List Nat} (h : wholeDigits? cs = some (ds, rest)) :
    ∃ whole, cs = whole ++ rest ∧ IsWhole ds whole := by
  rw [wholeDigits?] at h
  split at h
  · cases h
  · rename_i d rest' hdigits
    cases h
    obtain ⟨whole, hcs, hwhole⟩ := areDigits_of_takeDigits hdigits (List.cons_ne_nil _ _)
    exact ⟨whole, hcs, hwhole, fun hd => by rw [Option.some.inj hd]⟩
  · rename_i d ds' rest' hne hdigits
    split at h
    · cases h
    · rename_i hd
      cases h
      obtain ⟨whole, hcs, hwhole⟩ := areDigits_of_takeDigits hdigits (List.cons_ne_nil _ _)
      exact ⟨whole, hcs, hwhole, fun he => absurd (Option.some.inj he) hd⟩

theorem fraction?_of_isFraction {ds : Option (List Nat)} (h : IsFraction ds cs)
    (hrest : ∀ c ∈ rest.head?, c.isDigit = false ∧ c ≠ '.') :
    fraction? (cs ++ rest) = some (ds, rest) := by
  cases ds with
  | none =>
    obtain rfl := h
    cases rest with
    | nil => rfl
    | cons c rest =>
      rw [List.nil_append, fraction?]
      exact fun _ he => (hrest c rfl).2 (List.cons.inj he).1
  | some ds =>
    obtain ⟨digits, rfl, hdigits⟩ := h
    rw [List.cons_append, fraction?, takeDigits_of_areDigits hdigits fun c hc => (hrest c hc).1]
    obtain ⟨d, ds, rfl⟩ := hdigits.exists_cons
    rfl

theorem isFraction_of_fraction? {ds : Option (List Nat)} (h : fraction? cs = some (ds, rest)) :
    ∃ fraction, cs = fraction ++ rest ∧ IsFraction ds fraction := by
  rw [fraction?.eq_def] at h
  split at h
  · split at h
    · cases h
    · rename_i digits hne hdigits
      cases h
      obtain ⟨fraction, rfl, hfraction⟩ := areDigits_of_takeDigits hdigits hne
      exact ⟨'.' :: fraction, rfl, fraction, rfl, hfraction⟩
  · cases h
    exact ⟨[], rfl, rfl⟩

def exponentSign : List Char → Bool × List Char
  | '+' :: cs => (false, cs)
  | '-' :: cs => (true, cs)
  | cs => (false, cs)

theorem exponentSign_append {sign : List Char} {negative : Bool} (h : sign ∈ signs negative)
    (hcs : ∀ c ∈ cs.head?, c.isDigit = true) : exponentSign (sign ++ cs) = (negative, cs) := by
  cases negative with
  | true =>
    obtain rfl := List.mem_singleton.1 h
    rfl
  | false =>
    obtain rfl | h := List.mem_cons.1 h
    · cases cs with
      | nil => rfl
      | cons c cs =>
        have hne : ∀ d : Char, d.isDigit = false → c ≠ d := by
          rintro d hd rfl
          exact Bool.false_ne_true (hd.symm.trans (hcs c rfl))
        rw [List.nil_append, exponentSign]
        · exact fun _ he => hne '+' (by decide) (List.cons.inj he).1
        · exact fun _ he => hne '-' (by decide) (List.cons.inj he).1
    · obtain rfl := List.mem_singleton.1 h
      rfl

theorem exists_exponentSign (cs : List Char) :
    ∃ sign ∈ signs (exponentSign cs).1, cs = sign ++ (exponentSign cs).2 := by
  rw [exponentSign.eq_def]
  split
  · exact ⟨['+'], List.mem_cons_of_mem _ List.mem_cons_self, rfl⟩
  · exact ⟨['-'], List.mem_cons_self, rfl⟩
  · exact ⟨[], List.mem_cons_self, rfl⟩

theorem exponent?_cons (c : Char) (cs : List Char) :
    exponent? (c :: cs) =
      if c == 'e' || c == 'E' then
        match takeDigits (exponentSign cs).2 with
        | ([], _) => none
        | (ds, rest) => some (some ((exponentSign cs).1, ds), rest)
      else some (none, c :: cs) :=
  rfl

theorem exponent?_of_isExponent {e : Option (Bool × List Nat)} (h : IsExponent e cs)
    (hrest : EndsNumber rest) : exponent? (cs ++ rest) = some (e, rest) := by
  cases e with
  | none =>
    obtain rfl := h
    cases rest with
    | nil => rfl
    | cons c rest => simp [exponent?, hrest.2.2]
  | some e =>
    obtain ⟨negative, ds⟩ := e
    obtain ⟨mark, sign, digits, rfl, hmark, hsign, hdigits⟩ := h
    have hmark : (mark == 'e' || mark == 'E') = true := by simpa using hmark
    rw [List.cons_append, List.append_assoc, exponent?_cons, if_pos hmark,
      exponentSign_append hsign (hdigits.head rest),
      takeDigits_of_areDigits hdigits fun c hc => (hrest.head c hc).1]
    obtain ⟨d, ds, rfl⟩ := hdigits.exists_cons
    rfl

theorem isExponent_of_exponent? {e : Option (Bool × List Nat)}
    (h : exponent? cs = some (e, rest)) :
    ∃ exponent, cs = exponent ++ rest ∧ IsExponent e exponent := by
  cases cs with
  | nil =>
    cases h
    exact ⟨[], rfl, rfl⟩
  | cons mark cs =>
    rw [exponent?_cons] at h
    split at h
    · rename_i hmark
      have hmark : mark = 'e' ∨ mark = 'E' := by simpa using hmark
      obtain ⟨sign, hsign, hcs⟩ := exists_exponentSign cs
      split at h
      · cases h
      · rename_i ds after hne hdigits
        cases h
        obtain ⟨digits, hafter, hdigits⟩ := areDigits_of_takeDigits hdigits hne
        refine ⟨mark :: (sign ++ digits), ?_, mark, sign, digits, rfl, hmark, hsign, hdigits⟩
        rw [List.cons_append, List.append_assoc, ← hafter, ← hcs]
    · cases h
      exact ⟨[], rfl, rfl⟩

def numberSign : List Char → Bool × List Char
  | '-' :: cs => (true, cs)
  | cs => (false, cs)

theorem literal?_eq (cs : List Char) :
    literal? cs = (wholeDigits? (numberSign cs).2).bind fun whole =>
      (fraction? whole.2).bind fun fraction =>
        (exponent? fraction.2).bind fun exponent =>
          some (⟨(numberSign cs).1, whole.1, fraction.1, exponent.1⟩, exponent.2) :=
  rfl

theorem numberSign_append {cs : List Char} (negative : Bool)
    (hcs : ∀ c ∈ cs.head?, c.isDigit = true) :
    numberSign ((if negative then ['-'] else []) ++ cs) = (negative, cs) := by
  cases negative with
  | true => rfl
  | false =>
    cases cs with
    | nil => rfl
    | cons c cs =>
      have hne : c ≠ '-' := by
        rintro rfl
        exact absurd (hcs '-' rfl) (by decide)
      simp only [Bool.false_eq_true, if_false, List.nil_append]
      rw [numberSign]
      exact fun _ he => hne (List.cons.inj he).1

theorem append_numberSign (cs : List Char) :
    (if (numberSign cs).1 then ['-'] else []) ++ (numberSign cs).2 = cs := by
  rw [numberSign.eq_def]
  split <;> rfl

theorem IsExponent.head {e : Option (Bool × List Nat)} (h : IsExponent e cs)
    (hrest : EndsNumber rest) : ∀ c ∈ (cs ++ rest).head?, c.isDigit = false ∧ c ≠ '.' := by
  cases e with
  | none =>
    obtain rfl := h
    exact fun c hc => ⟨(hrest.head c hc).1, (hrest.head c hc).2.1⟩
  | some e =>
    obtain ⟨mark, sign, digits, rfl, hmark, -⟩ := h
    intro c hc
    cases hc
    obtain rfl | rfl := hmark <;> decide

theorem IsFraction.head {ds : Option (List Nat)} (h : IsFraction ds cs)
    (hrest : ∀ c ∈ rest.head?, c.isDigit = false) :
    ∀ c ∈ (cs ++ rest).head?, c.isDigit = false := by
  cases ds with
  | none =>
    obtain rfl := h
    exact hrest
  | some ds =>
    obtain ⟨digits, rfl, -⟩ := h
    intro c hc
    cases hc
    decide

theorem literal?_of_isLiteral {l : Literal} (h : IsLiteral l cs) (hrest : EndsNumber rest) :
    literal? (cs ++ rest) = some (l, rest) := by
  obtain ⟨whole, fraction, exponent, rfl, hwhole, hfraction, hexponent⟩ := h
  have hend := hexponent.head hrest
  have hsign := numberSign_append l.negative (hwhole.1.head (fraction ++ (exponent ++ rest)))
  rw [List.append_assoc, List.append_assoc, List.append_assoc, literal?_eq, hsign,
    wholeDigits?_of_isWhole hwhole (hfraction.head fun c hc => (hend c hc).1), Option.bind_some,
    fraction?_of_isFraction hfraction hend, Option.bind_some,
    exponent?_of_isExponent hexponent hrest]
  rfl

theorem isLiteral_of_literal? {l : Literal} (h : literal? cs = some (l, rest)) :
    ∃ literal, cs = literal ++ rest ∧ IsLiteral l literal := by
  rw [literal?_eq] at h
  obtain ⟨⟨whole, cs₁⟩, hwhole, h⟩ := Option.bind_eq_some_iff.1 h
  obtain ⟨⟨fraction, cs₂⟩, hfraction, h⟩ := Option.bind_eq_some_iff.1 h
  obtain ⟨⟨exponent, cs₃⟩, hexponent, h⟩ := Option.bind_eq_some_iff.1 h
  cases h
  obtain ⟨w, hcs, hw⟩ := isWhole_of_wholeDigits? hwhole
  obtain ⟨f, rfl, hf⟩ := isFraction_of_fraction? hfraction
  obtain ⟨e, rfl, he⟩ := isExponent_of_exponent? hexponent
  refine ⟨_, ?_, w, f, e, rfl, hw, hf, he⟩
  rw [List.append_assoc, List.append_assoc, List.append_assoc, ← hcs, append_numberSign]

end Numbers

section Texts

variable {cs rest : List Char}

theorem pieces?_of_arePieces {ps : List Piece} (h : ArePieces ps cs) (rest : List Char) :
    pieces? (cs ++ rest) = some (ps, rest) := by
  induction h with
  | closed => rfl
  | code hcode _ ih =>
    simp only [List.cons_append, pieces?, hcode, ih]
    rfl
  | @escape e c ps cs hescape _ ih =>
    have hne : e ≠ 'u' := by
      rintro rfl
      cases hescape
    rw [List.cons_append, List.cons_append, pieces?, hescape, ih]
    · rfl
    · exact fun _ _ _ _ _ he => absurd he hne
  | plain hquote hslash hcontrol _ ih =>
    rw [List.cons_append, pieces?_plain hquote hslash hcontrol, ih]
    rfl

theorem arePieces_of_pieces? {ps : List Piece} (h : pieces? cs = some (ps, rest)) :
    ∃ quoted, cs = quoted ++ rest ∧ ArePieces ps quoted := by
  fun_induction pieces? cs generalizing ps rest with
  | case1 => cases h
  | case2 rest =>
    cases h
    exact ⟨['"'], rfl, .closed⟩
  | case3 a b c d cs ih =>
    obtain ⟨n, hcode, h⟩ := Option.bind_eq_some_iff.1 h
    obtain ⟨⟨ps, rest⟩, hps, h⟩ := Option.bind_eq_some_iff.1 h
    cases h
    obtain ⟨quoted, rfl, hquoted⟩ := ih hps
    exact ⟨_, rfl, .code hcode hquoted⟩
  | case4 e cs hne ih =>
    obtain ⟨c, hescape, h⟩ := Option.bind_eq_some_iff.1 h
    obtain ⟨⟨ps, rest⟩, hps, h⟩ := Option.bind_eq_some_iff.1 h
    cases h
    obtain ⟨quoted, rfl, hquoted⟩ := ih hps
    exact ⟨_, rfl, .escape hescape hquoted⟩
  | case5 c cs => cases h
  | case6 c cs hquote _ hslash _ hcontrol =>
    rename_i ih
    obtain ⟨⟨ps, rest⟩, hps, h⟩ := Option.bind_eq_some_iff.1 h
    cases h
    obtain ⟨quoted, rfl, hquoted⟩ := ih hps
    refine ⟨_, rfl, .plain hquote ?_ hcontrol hquoted⟩
    -- A backslash at the very end would leave no closing quote.
    rintro rfl
    cases hcs : quoted ++ rest with
    | nil =>
      rw [hcs] at hps
      cases hps
    | cons e cs => exact hslash e cs rfl hcs

theorem string?_of_isQuoted {s : Option String} (h : IsQuoted s cs) (rest : List Char) :
    ∃ quoted, cs = '"' :: quoted ∧ string? (quoted ++ rest) = some (s, rest) := by
  obtain ⟨ps, quoted, rfl, hps, rfl⟩ := h
  refine ⟨quoted, rfl, ?_⟩
  rw [string?, pieces?_of_arePieces hps]
  rfl

theorem isQuoted_of_string? {s : Option String} (h : string? cs = some (s, rest)) :
    ∃ quoted, '"' :: cs = quoted ++ rest ∧ IsQuoted s quoted := by
  obtain ⟨⟨ps, rest⟩, hps, h⟩ := Option.bind_eq_some_iff.1 h
  cases h
  obtain ⟨quoted, rfl, hquoted⟩ := arePieces_of_pieces? hps
  exact ⟨'"' :: quoted, rfl, ps, quoted, rfl, hquoted, rfl⟩

end Texts

end Document

end QaLake.Json
