import Mathlib.Data.List.Destutter
import Mathlib.Data.List.Sort
import QaLake.CommandLine.Program

namespace QaLake

namespace Subtask

theorem mem_inOrder {selection : List Subtask} {s : Subtask} :
    s ∈ inOrder selection ↔ s ∈ selection := by
  simp [inOrder, mem_all]

theorem inOrder_ascending (selection : List Subtask) :
    (inOrder selection).Pairwise fun a b => a.index < b.index :=
  pairwise_index.filter _

theorem eq_of_ascending {l l' : List Subtask} (h : l.Pairwise fun a b => a.index < b.index)
    (h' : l'.Pairwise fun a b => a.index < b.index) (hmem : ∀ s, s ∈ l ↔ s ∈ l') : l = l' := by
  have hirrefl : Std.Irrefl fun a b : Subtask => a.index < b.index := ⟨fun s => Nat.lt_irrefl _⟩
  have hantisymm : Std.Antisymm fun a b : Subtask => a.index < b.index :=
    ⟨fun a b hab hba => absurd hba (Nat.lt_asymm hab)⟩
  exact h.eq_of_mem_iff h' hmem

theorem inOrder_congr {selection selection' : List Subtask}
    (h : ∀ s, s ∈ selection ↔ s ∈ selection') : inOrder selection = inOrder selection' := by
  refine eq_of_ascending (inOrder_ascending _) (inOrder_ascending _) fun s => ?_
  rw [mem_inOrder, mem_inOrder]
  exact h s

theorem index_injective {a b : Subtask} (h : a.index = b.index) : a = b :=
  (List.idxOf_inj (mem_all a)).1 h

/-- A list in which no step stands before an earlier one, and none next to itself, ascends. -/
theorem ascending_of_isChain {l : List Subtask} (hle : l.Pairwise fun a b => a.index ≤ b.index)
    (hne : l.IsChain (· ≠ ·)) : l.Pairwise fun a b => a.index < b.index := by
  induction l with
  | nil => exact List.Pairwise.nil
  | cons a l ih =>
    obtain ⟨hfirst, hrest⟩ := List.pairwise_cons.1 hle
    have ih := ih hrest hne.tail
    refine List.pairwise_cons.2 ⟨fun c hc => ?_, ih⟩
    cases l with
    | nil => cases hc
    | cons b l =>
      have hab : a.index < b.index :=
        Nat.lt_of_le_of_ne (hfirst b List.mem_cons_self) fun h =>
          (List.isChain_cons_cons.1 hne).1 (index_injective h)
      obtain rfl | hc := List.mem_cons.1 hc
      · exact hab
      · exact Nat.lt_trans hab ((List.pairwise_cons.1 ih).1 c hc)

theorem mem_destutter_ne {l : List Subtask} {s : Subtask} :
    s ∈ l.destutter (· ≠ ·) ↔ s ∈ l := by
  refine ⟨fun hs => (List.destutter_sublist _ l).subset hs, fun hs => ?_⟩
  have hfrom : ∀ (l : List Subtask) (a : Subtask), s = a ∨ s ∈ l → s ∈ l.destutter' (· ≠ ·) a := by
    intro l
    induction l with
    | nil => simp
    | cons b l ih =>
      intro a h
      by_cases hab : a = b
      · rw [List.destutter'_cons_neg _ (not_not.2 hab)]
        refine ih a ?_
        simpa [hab] using h
      · rw [List.destutter'_cons_pos _ hab, List.mem_cons]
        obtain h | h := h
        · exact .inl h
        · exact .inr (ih b (List.mem_cons.1 h))
  cases l with
  | nil => cases hs
  | cons a l => exact hfrom l a (List.mem_cons.1 hs)

/-- Sorting by the places of the steps and leaving out each step that follows itself is the same as
picking the steps out of all steps. -/
theorem inOrder_eq_destutter (selection : List Subtask) :
    inOrder selection =
      (selection.mergeSort fun a b => a.index ≤ b.index).destutter (· ≠ ·) := by
  have hsorted : (selection.mergeSort fun a b => a.index ≤ b.index).Pairwise
      fun a b => a.index ≤ b.index := by
    have h : (selection.mergeSort fun a b => a.index ≤ b.index).Pairwise
        fun a b => decide (a.index ≤ b.index) = true :=
      List.pairwise_mergeSort (fun a b c hab hbc => by simp at *; omega)
        (fun a b => by simp; omega) selection
    simpa using h
  refine eq_of_ascending (inOrder_ascending _) (ascending_of_isChain ?_ ?_) fun s => ?_
  · exact hsorted.sublist (List.destutter_sublist _ _)
  · exact List.isChain_destutter _ _
  · rw [mem_inOrder, mem_destutter_ne, List.mem_mergeSort]

section Names

theorem ofName?_name (s : Subtask) : ofName? s.name = some s := by
  have hall : ∀ s ∈ all, ofName? s.name = some s := by decide +kernel
  exact hall s (mem_all s)

theorem ofName?_eq_none {n : String} (h : ∀ s : Subtask, s.name ≠ n) : ofName? n = none :=
  List.find?_eq_none.2 fun s _ => by simpa using h s

theorem exists_map_name {names : List String} (h : ∀ k ∈ names, ∃ s : Subtask, s.name = k) :
    ∃ selection : List Subtask, selection.map name = names := by
  induction names with
  | nil => exact ⟨[], rfl⟩
  | cons k rest ih =>
    obtain ⟨s, rfl⟩ := h k List.mem_cons_self
    obtain ⟨selection, rfl⟩ := ih fun k hk => h k (List.mem_cons_of_mem _ hk)
    exact ⟨s :: selection, rfl⟩

theorem name_injective {a b : Subtask} (h : a.name = b.name) : a = b := by
  have hname := ofName?_name a
  rw [h, ofName?_name b] at hname
  exact (Option.some.inj hname).symm

theorem select_names {selection : List Subtask} (hne : selection ≠ []) :
    select (selection.map name) = .ok (inOrder selection) := by
  have hnames : (selection.map name).mapM (fun n => (ofName? n).elim (.error n) .ok) =
      (.ok selection : Except String (List Subtask)) := by
    clear hne
    induction selection with
    | nil => rfl
    | cons s rest ih =>
      rw [List.map_cons, List.mapM_cons, ofName?_name, ih]
      rfl
  rw [select, hnames, if_neg (by simpa using hne)]
  rfl

/-- A name that no step has is refused, if all names before it are names of steps. -/
theorem select_unknown (before : List Subtask) {n : String} (h : ∀ s : Subtask, s.name ≠ n)
    (after : List String) : select (before.map name ++ n :: after) = .error n := by
  have hnames : (before.map name ++ n :: after).mapM
      (fun n => (ofName? n).elim (.error n) .ok) = (.error n : Except String (List Subtask)) := by
    induction before with
    | nil =>
      rw [List.map_nil, List.nil_append, List.mapM_cons, ofName?_eq_none h]
      rfl
    | cons s rest ih =>
      rw [List.map_cons, List.cons_append, List.mapM_cons, ofName?_name, ih]
      rfl
  rw [select, hnames, if_neg (by simp)]
  rfl

theorem exists_select {names : List String} (h : ∀ k ∈ names, ∃ s : Subtask, s.name = k) :
    ∃ held, select names = .ok held ∧ held.Pairwise (fun a b => a.index < b.index) ∧
      ∀ s, s ∈ held ↔ s.name ∈ names ∨ names = [] := by
  obtain ⟨selection, rfl⟩ := exists_map_name h
  by_cases hne : selection = []
  · subst hne
    exact ⟨all, rfl, pairwise_index, fun s => ⟨fun _ => .inr rfl, fun _ => mem_all s⟩⟩
  · refine ⟨_, select_names hne, inOrder_ascending selection, fun s => ?_⟩
    rw [mem_inOrder]
    constructor
    · exact fun hs => .inl (List.mem_map_of_mem hs)
    · rintro (hs | hnil)
      · obtain ⟨a, ha, hname⟩ := List.mem_map.1 hs
        exact name_injective hname ▸ ha
      · exact absurd (List.map_eq_nil_iff.1 hnil) hne

theorem select_congr {names names' : List String} (h : ∀ k ∈ names, ∃ s : Subtask, s.name = k)
    (hsame : ∀ k, k ∈ names' ↔ k ∈ names) : select names' = select names := by
  have hempty : names' = [] ↔ names = [] := by
    rw [List.eq_nil_iff_forall_not_mem, List.eq_nil_iff_forall_not_mem]
    exact forall_congr' fun k => not_congr (hsame k)
  obtain ⟨held, hheld, hascending, hmem⟩ := exists_select h
  obtain ⟨held', hheld', hascending', hmem'⟩ :=
    exists_select fun k hk => h k ((hsame k).1 hk)
  have hequal : held' = held := by
    refine eq_of_ascending hascending' hascending fun s => ?_
    rw [hmem', hmem, hsame, hempty]
  rw [hheld, hheld', hequal]

end Names

end Subtask

namespace CommandLine

def Item.stepName? : Item → Option String
  | .value .subtask name => some name
  | _ => none

namespace Given

theorem subtasks_of_addSwitch {g g' : Given} {s : Switch} (h : g.addSwitch s = some g') :
    g'.subtasks = g.subtasks := by
  cases s with
  | verbose =>
    cases h
    rfl
  | skipMalformed | list =>
    rw [addSwitch] at h
    split at h
    · cases h
    · cases h
      rfl

theorem subtasks_of_addValue {g g' : Given} {text : String} {option : ValueOption}
    (h : g.addValue text option = some g') :
    g'.subtasks = g.subtasks ++ (Item.value option text).stepName?.toList := by
  cases option with
  | subtask =>
    cases h
    rfl
  | connection | project =>
    obtain ⟨-, -, h⟩ := Option.bind_eq_some_iff.1 h
    obtain ⟨id, -, h⟩ := Option.bind_eq_some_iff.1 h
    cases h
    exact (List.append_nil _).symm
  | scopeFile | createdAfter =>
    obtain ⟨-, -, h⟩ := Option.bind_eq_some_iff.1 h
    cases h
    exact (List.append_nil _).symm

theorem subtasks_of_read {g : Given} {items : List Item} {r : SyncRequest}
    (h : g.read items = some (.sync r)) :
    r.subtasks = g.subtasks ++ items.filterMap Item.stepName? := by
  induction items generalizing g with
  | nil =>
    rw [read, command?] at h
    split at h
    · cases h
    · split at h
      · cases h
        exact (List.append_nil _).symm
      · cases h
  | cons item rest ih =>
    cases item with
    | help | version | misuse => cases h
    | switch s =>
      rw [read] at h
      split at h
      · rename_i g' hg'
        rw [ih h, subtasks_of_addSwitch hg', List.filterMap_cons_none rfl]
      · cases h
    | value option text =>
      rw [read] at h
      split at h
      · rename_i g' hg'
        rw [ih h, subtasks_of_addValue hg', List.append_assoc]
        cases option <;> rfl
      · cases h

end Given

section Runs

variable {σ : Type} {r : SyncRequest} {m : Machine}

/-- A request whose names are refused is not begun: it fails as soon as its options are checked. -/
theorem plan_of_unknown {n : String} (h : Subtask.select r.subtasks = .error n) :
    ∃ f, r.plan m = .error f ∧ ∀ o, r.options m = .ok o → f = .unknownSubtask n := by
  rw [SyncRequest.plan]
  cases ho : r.options m with
  | error f => exact ⟨f, rfl, fun o h => nomatch h⟩
  | ok o =>
    rw [h]
    exact ⟨.unknownSubtask n, rfl, fun _ _ => rfl⟩

theorem run_withSubtasks {names : List String}
    (h : Subtask.select names = Subtask.select r.subtasks) (connect : Connection → Client σ)
    (remote : σ) (time : StepReport → String) (db : Option Database) :
    { r with subtasks := names }.run m connect remote time db = r.run m connect remote time db := by
  have hplan : { r with subtasks := names }.plan m = r.plan m := by
    rw [SyncRequest.plan, SyncRequest.plan, h]
    rfl
  rw [SyncRequest.run, SyncRequest.run, hplan]

/-- A selection of steps is a set: it is held in ascending order, each step once, as by sorting and
leaving out repetitions, and what is held depends on the members only. The names on a command line
are a selection of that kind. The first one that is no name of a step is refused, and then nothing
is begun; if all are names of steps, then the steps that they name are selected, however the names
are ordered and repeated, or all steps for no names. -/
theorem selection_normalised (selection : List Subtask) {words : List String}
    (hr : Command.ofWords? words = some (.sync r)) (m : Machine) (connect : Connection → Client σ)
    (remote : σ) (time : StepReport → String) (db : Option Database) :
    (Subtask.inOrder selection =
        (selection.mergeSort fun a b => a.index ≤ b.index).destutter (· ≠ ·) ∧
      (∀ s, s ∈ Subtask.inOrder selection ↔ s ∈ selection) ∧
      (Subtask.inOrder selection).Pairwise (fun a b => a.index < b.index) ∧
      (∀ selection', (∀ s, s ∈ selection' ↔ s ∈ selection) →
        Subtask.inOrder selection' = Subtask.inOrder selection) ∧
      Subtask.inOrder (Subtask.inOrder selection) = Subtask.inOrder selection) ∧
    r.subtasks = (items none words).filterMap Item.stepName? ∧
    (∀ before n after, r.subtasks = before ++ n :: after →
      (∀ k ∈ before, ∃ s : Subtask, s.name = k) → (∀ s : Subtask, s.name ≠ n) →
      Subtask.select r.subtasks = .error n ∧
      ∃ f, r.plan m = .error f ∧ run words m connect remote time db = (.failed "" f, db) ∧
        ∀ o, r.options m = .ok o → f = .unknownSubtask n) ∧
    ((∀ k ∈ r.subtasks, ∃ s : Subtask, s.name = k) →
      ∃ held, Subtask.select r.subtasks = .ok held ∧ held.Pairwise (fun a b => a.index < b.index) ∧
        (∀ s, s ∈ held ↔ s.name ∈ r.subtasks ∨ r.subtasks = []) ∧
        ∀ names, (∀ k, k ∈ names ↔ k ∈ r.subtasks) →
          Subtask.select names = .ok held ∧
          { r with subtasks := names }.run m connect remote time db =
            r.run m connect remote time db) ∧
    Subtask.select [] = .ok Subtask.all := by
  refine ⟨⟨Subtask.inOrder_eq_destutter selection, fun s => Subtask.mem_inOrder,
    Subtask.inOrder_ascending selection, fun selection' h => Subtask.inOrder_congr h,
    Subtask.inOrder_congr fun s => Subtask.mem_inOrder⟩, Given.subtasks_of_read hr, ?_, ?_, rfl⟩
  · intro before n after hsplit hknown hunknown
    obtain ⟨known, rfl⟩ := Subtask.exists_map_name hknown
    have hselect : Subtask.select r.subtasks = .error n := by
      rw [hsplit]
      exact Subtask.select_unknown known hunknown after
    obtain ⟨f, hplan, hf⟩ := plan_of_unknown hselect
    refine ⟨hselect, f, hplan, ?_, hf⟩
    rw [run, hr]
    simp only [SyncRequest.run, hplan]
  · intro hknown
    obtain ⟨held, hheld, hascending, hmem⟩ := Subtask.exists_select hknown
    refine ⟨held, hheld, hascending, hmem, fun names hnames => ?_⟩
    have hselect : Subtask.select names = .ok held := by
      rw [← hheld]
      exact Subtask.select_congr hknown hnames
    exact ⟨hselect, run_withSubtasks (hselect.trans hheld.symm) connect remote time db⟩

def bareMachine : Machine where
  directories := ⟨some "/home/qa", none, none, none⟩
  password := none
  contents _ := .error .missing

def wordsFor (names : List String) : List String :=
  ["--connection", "1", "--project=7"] ++ names.flatMap fun n => ["--subtask", n]

def requestFor (names : List String) : SyncRequest :=
  ⟨1, 7, none, none, names, false, false⟩

/-- Steps of runs, out of order and one of them twice, and a name that no step has. -/
theorem selection_normalised_runs :
    (∃ held, Subtask.select ["convertRuns", "collectRuns", "extractRuns", "collectRuns"] =
        .ok held ∧ held.Pairwise (fun a b => a.index < b.index) ∧
      Subtask.select ["collectRuns", "extractRuns", "convertRuns"] = .ok held) ∧
    ∃ f, run (wordsFor ["collectRuns", "collectRun", "x"]) bareMachine offline () (fun _ => "0")
        none = (.failed "" f, none) ∧ f = .unknownSubtask "collectRun" := by
  have hunknown : ∀ s : Subtask, s.name ≠ "collectRun" := by
    have hall : ∀ s ∈ Subtask.all, s.name ≠ "collectRun" := by decide +kernel
    exact fun s => hall s (Subtask.mem_all s)
  have hknown : ∀ k ∈ ["convertRuns", "collectRuns", "extractRuns", "collectRuns"],
      ∃ s : Subtask, s.name = k := by
    have hall : ∀ k ∈ ["convertRuns", "collectRuns", "extractRuns", "collectRuns"],
        ∃ s ∈ Subtask.all, s.name = k := by decide +kernel
    exact fun k hk => (hall k hk).imp fun s hs => hs.2
  constructor
  · have hwords : Command.ofWords?
        (wordsFor ["convertRuns", "collectRuns", "extractRuns", "collectRuns"]) =
        some (.sync (requestFor ["convertRuns", "collectRuns", "extractRuns", "collectRuns"])) := by
      decide +kernel
    obtain ⟨-, -, -, hselected, -⟩ :=
      selection_normalised [] hwords bareMachine offline () (fun _ => "0") none
    obtain ⟨held, hheld, hascending, -, hsame⟩ := hselected hknown
    refine ⟨held, hheld, hascending, (hsame _ fun k => ?_).1⟩
    simp only [requestFor, List.mem_cons, List.not_mem_nil, or_false]
    tauto
  · have hwords : Command.ofWords? (wordsFor ["collectRuns", "collectRun", "x"]) =
        some (.sync (requestFor ["collectRuns", "collectRun", "x"])) := by
      decide +kernel
    obtain ⟨-, -, hrefused, -, -⟩ :=
      selection_normalised [] hwords bareMachine offline () (fun _ => "0") none
    obtain ⟨-, f, -, hrun, hf⟩ := hrefused ["collectRuns"] "collectRun" ["x"] rfl
      (fun k hk => hknown k (by simp_all)) hunknown
    exact ⟨f, hrun, hf _ rfl⟩

end Runs

end CommandLine

end QaLake
