import QaLake.Json.Document
import QaLake.Json.Printer

namespace QaLake.Json

open Document

/-- The piece that is read for a character: the controls without a letter of their own are written
as codes. -/
def pieceOf (c : Char) : Piece :=
  if c.toNat < 0x20 ∧ c ∉ ['\x08', '\t', '\n', '\x0c', '\r'] then .code c.toNat else .char c

theorem hexValue?_digitChar : ∀ n, n < 16 → Text.hexValue? (Nat.digitChar n) = some n := by
  decide

theorem hex4?_control {n : Nat} (h : n < 0x20) :
    hex4? '0' '0' (Nat.digitChar (n / 16)) (Nat.digitChar (n % 16)) = some n := by
  have hhigh := hexValue?_digitChar (n / 16) (by omega)
  have hlow := hexValue?_digitChar (n % 16) (by omega)
  have hzero : Text.hexValue? '0' = some 0 := by decide
  simp only [hex4?, hhigh, hlow, hzero, Option.bind_eq_bind, Option.bind_some, Option.pure_def,
    Option.some.injEq]
  omega

theorem pieces?_plain {c : Char} (hq : c ≠ '"') (hb : c ≠ '\\') (hc : ¬c.toNat < 0x20)
    (cs : List Char) :
    pieces? (c :: cs) = (pieces? cs).map fun p => (.char c :: p.1, p.2) := by
  rw [pieces?.eq_def]
  split
  · contradiction
  · simp_all
  · simp_all
  · simp_all
  · rename_i heq
    obtain ⟨rfl, rfl⟩ := List.cons.inj heq
    cases pieces? _ <;> simp [hc]

theorem pieces?_escape (c : Char) (cs : List Char) :
    pieces? (Json.escape c ++ cs) = (pieces? cs).map fun p => (pieceOf c :: p.1, p.2) := by
  have hletter : ∀ e, e ≠ 'u' → escaped? e = some c → pieceOf c = .char c →
      pieces? ('\\' :: e :: cs) = (pieces? cs).map fun p => (pieceOf c :: p.1, p.2) := by
    intro e he hesc hpiece
    rw [pieces?.eq_def]
    split
    · contradiction
    · simp_all
    · simp_all
    · rename_i heq
      simp only [List.cons.injEq, true_and] at heq
      obtain ⟨rfl, rfl⟩ := heq
      cases pieces? _ <;> simp [hesc, hpiece]
    · rename_i hne heq
      simp only [List.cons.injEq] at heq
      exact (hne _ _ heq.1.symm heq.2.symm).elim
  unfold Json.escape
  split
  · exact hletter '"' (by decide) rfl rfl
  · exact hletter '\\' (by decide) rfl rfl
  · exact hletter 'b' (by decide) rfl rfl
  · exact hletter 't' (by decide) rfl rfl
  · exact hletter 'n' (by decide) rfl rfl
  · exact hletter 'f' (by decide) rfl rfl
  · exact hletter 'r' (by decide) rfl rfl
  · split
    · rename_i hc
      have hpiece : pieceOf c = .code c.toNat := by simp_all [pieceOf]
      simp only [List.cons_append, List.nil_append, pieces?, hex4?_control hc, hpiece]
      cases pieces? cs <;> rfl
    · rename_i hc
      have hpiece : pieceOf c = .char c := by simp [pieceOf, hc]
      rw [hpiece]
      exact pieces?_plain (by assumption) (by assumption) hc cs

theorem pieces?_strChars (s : List Char) (rest : List Char) :
    pieces? (s.flatMap Json.escape ++ '"' :: rest) = some (s.map pieceOf, rest) := by
  induction s with
  | nil => rfl
  | cons c s ih =>
    rw [List.flatMap_cons, List.append_assoc, pieces?_escape, ih]
    rfl

theorem assemble?_code {n : Nat} (h : n < 0x20) (rest : List Piece) :
    assemble? (.code n :: rest) = (assemble? rest).map (Char.ofNat n :: ·) := by
  have hhigh : isHigh n = false := by simp [isHigh]; omega
  have hlow : isLow n = false := by simp [isLow]; omega
  cases rest with
  | nil => simp [assemble?, hhigh, hlow]
  | cons p rest => cases p <;> simp [assemble?, hhigh, hlow]

theorem assemble?_pieces (s : List Char) : assemble? (s.map pieceOf) = some s := by
  induction s with
  | nil => rfl
  | cons c s ih =>
    rw [List.map_cons]
    by_cases hc : c.toNat < 0x20 ∧ c ∉ ['\x08', '\t', '\n', '\x0c', '\r']
    · rw [pieceOf, if_pos hc, assemble?_code hc.1, ih, Char.ofNat_toNat]
      rfl
    · rw [pieceOf, if_neg hc, assemble?, ih]
      rfl

theorem string?_strChars (s : String) (rest : List Char) :
    string? (s.toList.flatMap Json.escape ++ '"' :: rest) = some (some s, rest) := by
  rw [string?, pieces?_strChars]
  simp [assemble?_pieces]

end QaLake.Json
