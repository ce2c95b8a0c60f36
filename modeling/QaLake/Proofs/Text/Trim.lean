import Mathlib.Data.List.DropRight
import QaLake.Text.Character

namespace QaLake.Text

def IsTrimmed (cs : List Char) : Prop :=
  (∀ c ∈ cs.head?, isBlank c = false) ∧ ∀ c ∈ cs.getLast?, isBlank c = false

theorem dropWhile_eq_self {cs : List Char} (h : ∀ c ∈ cs.head?, isBlank c = false) :
    cs.dropWhile isBlank = cs := by
  cases cs with
  | nil => rfl
  | cons c cs => exact List.dropWhile_cons_of_neg (by simp [h c rfl])

theorem trimChars_eq_self {cs : List Char} (h : IsTrimmed cs) : trimChars cs = cs := by
  have hback : cs.reverse.dropWhile isBlank = cs.reverse :=
    dropWhile_eq_self fun c hc => h.2 c (by rwa [List.head?_reverse] at hc)
  rw [trimChars, trimStart, trimStart, dropWhile_eq_self h.1, hback, List.reverse_reverse]

theorem isTrimmed_trimChars (cs : List Char) : IsTrimmed (trimChars cs) := by
  have hfirst : ∀ ds : List Char, ∀ c ∈ (ds.dropWhile isBlank).head?, isBlank c = false := by
    intro ds c hc
    have hnot := List.head?_dropWhile_not isBlank ds
    rw [Option.mem_def.1 hc] at hnot
    exact hnot
  constructor
  · intro c hc
    have hprefix : trimChars cs <+: cs.dropWhile isBlank := List.rdropWhile_prefix isBlank _
    obtain ⟨rest, hrest⟩ := hprefix
    refine hfirst cs c ?_
    rw [← hrest, List.head?_append, Option.mem_def.1 hc]
    rfl
  · intro c hc
    rw [trimChars, List.getLast?_reverse] at hc
    exact hfirst _ c hc

theorem isTrimmed_of_all {cs : List Char} (h : ∀ c ∈ cs, isBlank c = false) : IsTrimmed cs :=
  ⟨fun c hc => h c (List.mem_of_mem_head? hc), fun c hc => h c (List.mem_of_mem_getLast? hc)⟩

theorem isTrimmed_between {front back : List Char} (hfront : ∀ c ∈ front, isBlank c = false)
    (hback : ∀ c ∈ back, isBlank c = false) (hne : front ≠ [] ∧ back ≠ []) (middle : List Char) :
    IsTrimmed (front ++ middle ++ back) := by
  constructor
  · intro c hc
    rw [List.append_assoc, List.head?_append_of_ne_nil front hne.1] at hc
    exact hfront c (List.mem_of_mem_head? hc)
  · intro c hc
    rw [List.getLast?_append_of_ne_nil _ hne.2] at hc
    exact hback c (List.mem_of_mem_getLast? hc)

theorem trim_ofList {cs : List Char} (h : IsTrimmed cs) :
    trim (String.ofList cs) = String.ofList cs := by
  rw [trim, String.toList_ofList, trimChars_eq_self h]

theorem trim_trim (s : String) : trim (trim s) = trim s :=
  trim_ofList (isTrimmed_trimChars s.toList)

end QaLake.Text
