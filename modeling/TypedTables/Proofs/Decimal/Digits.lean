import Mathlib.Tactic.Common
import TypedTables.Decimal.Numeral
/-!
# TypedTables — rows of digits

Digits are taken from a text up to the first character that is none, and the
digits that a number is written with stand for it. They do not start with a zero
unless there is only one.
-/

namespace TypedTables

namespace Numeral

variable {cs rest : List Char}

/-- **Digits are taken in front of other things as they are taken alone.** -/
theorem takeDigits_append (h : ∀ c ∈ rest.head?, digit? c = none) :
    takeDigits (cs ++ rest) = ((takeDigits cs).1, (takeDigits cs).2 ++ rest) := by
  induction cs with
  | nil =>
    rcases rest with _ | ⟨c, rest⟩
    · rfl
    · simp [takeDigits, h c rfl]
  | cons c cs ih =>
    rw [List.cons_append, takeDigits, takeDigits]
    rcases digit? c with _ | digit
    · rfl
    · simp only [ih]

/-- The digits that characters stand for. -/
def digitsOf (cs : List Char) : List Nat := cs.map fun c => c.toNat - '0'.toNat

theorem takeDigits_of_isDigit (h : ∀ c ∈ cs, c.isDigit = true) : takeDigits cs = (digitsOf cs, []) := by
  induction cs with
  | nil => rfl
  | cons c cs ih =>
    obtain ⟨hc, hcs⟩ := List.forall_mem_cons.1 h
    have hdigit : digit? c = some (c.toNat - '0'.toNat) := if_pos hc
    simp only [takeDigits, hdigit, ih hcs]
    rfl

/-- **The digits of a number are those that it is written with.** -/
theorem ofDigits_digitsOf (n : Nat) : ofDigits (digitsOf (Nat.toDigits 10 n)) = n := by
  have hfold : ofDigits (digitsOf (Nat.toDigits 10 n)) = Nat.ofDigitChars 10 (Nat.toDigits 10 n) 0 := by
    rw [Nat.ofDigitChars_eq_foldl, ofDigits, digitsOf, List.foldl_map]
  rw [hfold, Nat.ofDigitChars_ten_toDigits]

/-- A number is not written with a zero in front of other digits. -/
theorem head_toDigits {n : Nat} (h : 10 ≤ n) : (digitsOf (Nat.toDigits 10 n)).head? ≠ some 0 := by
  induction n using Nat.strongRecOn with
  | ind n ih =>
    rw [Nat.toDigits_of_base_le (by decide) h, digitsOf, List.map_append]
    by_cases hsmall : n / 10 < 10
    · -- the first of the two digits is the number of tens
      have hpos : n / 10 ≠ 0 := by omega
      rw [Nat.toDigits_of_lt_base hsmall]
      simpa [Nat.toNat_digitChar_sub_48_of_lt_ten hsmall] using hpos
    · have hrec := ih (n / 10) (by omega) (by omega)
      obtain ⟨d, ds, hdigits⟩ := List.exists_cons_of_ne_nil
        (show digitsOf (Nat.toDigits 10 (n / 10)) ≠ [] by simp [digitsOf])
      rw [hdigits] at hrec
      rw [← digitsOf, hdigits]
      exact hrec

end Numeral

end TypedTables
