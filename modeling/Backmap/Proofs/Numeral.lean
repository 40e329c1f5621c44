import Backmap.Numeral
import Mathlib.Algebra.Group.Nat.Defs

/-!
# Numerals

The digits of a number spell it, and they begin with a zero only if there is no other digit. How many there are tells
how great it is.
-/

namespace Backmap.Numeral

open Text

theorem digitValue?_digitChar {d : Nat} (h : d < 10) : digitValue? (Nat.digitChar d) = some d := by
  have hall : ∀ d, d < 10 → digitValue? (Nat.digitChar d) = some d := by decide
  exact hall d h

theorem isDigit_of_ascii {c : Char} (h : c.isDigit = true) : isDigit c = true := by
  simp only [Char.isDigit, Bool.and_eq_true, decide_eq_true_eq, ge_iff_le, UInt32.le_iff_toNat_le] at h
  have hlow : ¬ c.toNat < 0x30 := Nat.not_lt.mpr h.1
  have hhigh : c.toNat < 0x30 + 10 := Nat.lt_succ_of_le h.2
  simp only [isDigit, digitValue?, digitZeros, runValue, hlow, hhigh, if_true, if_false, Option.isSome_some]

theorem value_concat (cs : List Char) (c : Char) :
    value (cs ++ [c]) = 10 * value cs + (digitValue? c).getD 0 := by
  simp [value]

theorem digits_eq (n : Nat) :
    digits n = if n < 10 then [Nat.digitChar n] else digits (n / 10) ++ [Nat.digitChar (n % 10)] :=
  Nat.toDigits_eq_if (by decide)

theorem isDigit_of_mem_digits {n : Nat} {c : Char} (h : c ∈ digits n) : c.isDigit = true :=
  Nat.isDigit_of_mem_toDigits (by decide) (by decide) h

theorem digits_ne_nil (n : Nat) : digits n ≠ [] := by
  rw [digits_eq]
  split <;> simp

theorem value_digits (n : Nat) : value (digits n) = n := by
  induction n using Nat.strongRecOn with
  | ind n ih =>
      rw [digits_eq]
      split
      · next h => simp [value, digitValue?_digitChar h]
      · next h =>
        have hrest : value (digits (n / 10)) = n / 10 := ih (n / 10) (by omega)
        rw [value_concat, hrest, digitValue?_digitChar (Nat.mod_lt n (by decide))]
        exact Nat.div_add_mod n 10

theorem head?_digits {n : Nat} (h : n ≠ 0) : (digits n).head? ≠ some '0' := by
  induction n using Nat.strongRecOn with
  | ind n ih =>
      rw [digits_eq]
      split
      · next hn =>
        have hall : ∀ n, n < 10 → n ≠ 0 → Nat.digitChar n ≠ '0' := by decide
        simpa using hall n hn h
      · next hn =>
        have hhead := ih (n / 10) (by omega) (by omega)
        obtain ⟨c, cs, hcs⟩ := List.exists_cons_of_ne_nil (digits_ne_nil (n / 10))
        rw [hcs] at hhead ⊢
        exact hhead

theorem length_digits_le_iff {n k : Nat} (hk : 0 < k) : (digits n).length ≤ k ↔ n < 10 ^ k := by
  induction k generalizing n with
  | zero => cases hk
  | succ k ih =>
      rw [digits_eq]
      split
      · next h =>
        have hpow : 10 ≤ 10 ^ (k + 1) := Nat.le_pow (Nat.succ_pos k)
        simp only [List.length_singleton, Nat.le_add_left, true_iff]
        omega
      · next h =>
        rw [List.length_append, List.length_singleton, Nat.add_le_add_iff_right]
        cases k with
        | zero => simpa [digits_ne_nil] using h
        | succ k => rw [ih (Nat.succ_pos k), Nat.div_lt_iff_lt_mul (by decide), ← Nat.pow_succ]

theorem fits_iff {n : Int} : fits n = true ↔ n.natAbs < 10 ^ limit := by
  rw [fits, decide_eq_true_iff]
  exact length_digits_le_iff (by decide)

/-- A number can be too long although its successor is not. -/
theorem fits_edge : fits (-(10 ^ limit : Nat) + 1) = true ∧ fits (-(10 ^ limit : Nat)) = false := by
  have hpos : 0 < 10 ^ limit := Nat.pow_pos (by decide)
  rw [← Bool.not_eq_true, fits_iff, fits_iff]
  generalize 10 ^ limit = bound at hpos ⊢
  omega

theorem toList_write (n : Int) :
    (write n).toList = (if n < 0 then ['-'] else []) ++ digits n.natAbs := by
  cases n with
  | ofNat n => simp [write]
  | negSucc n => simp [write, Int.negSucc_lt_zero]

end Backmap.Numeral
