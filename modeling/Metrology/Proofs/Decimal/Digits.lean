import Metrology.Decimal.Digits

/-!
# Decimal numerals

A numeral is a non-empty digit string without leading zeros.  The digits of a number are its
numeral, and reading a digit string gives back the number it was written for.
-/

namespace Metrology.Decimal

structure IsNumeral (n : Nat) (s : List Char) : Prop where
  nonempty : s ≠ []
  digits : ∀ c ∈ s, c.isDigit = true
  value : Nat.ofDigitChars 10 s 0 = n
  leading : s.head? = some '0' → s = ['0']

theorem isDigit_of_mem_digits {n : Nat} {c : Char} (h : c ∈ digits n) : c.isDigit = true :=
  Nat.isDigit_of_mem_toDigits (by decide) (by decide) h

theorem head?_digits_ne_zero {n : Nat} (h : 0 < n) : (digits n).head? ≠ some '0' := by
  induction n using Nat.strongRecOn with
  | ind n ih =>
      unfold digits
      rw [Nat.toDigits_eq_if (by decide)]
      split
      · simpa using Nat.ne_of_gt h
      · have hq := ih (n / 10) (by omega) (by omega)
        obtain ⟨c, s, hs⟩ := List.exists_cons_of_ne_nil
          (Nat.toDigits_ne_nil (n := n / 10) (b := 10))
        rw [digits, hs] at hq
        rw [hs]
        exact hq

theorem isNumeral_digits (n : Nat) : IsNumeral n (digits n) where
  nonempty := Nat.toDigits_ne_nil
  digits _ hc := isDigit_of_mem_digits hc
  value := Nat.ofDigitChars_ten_toDigits
  leading h := by
    rcases Nat.eq_zero_or_pos n with rfl | hn
    · rfl
    · exact absurd h (head?_digits_ne_zero hn)

def readNatural? (s : List Char) : Option Nat :=
  if s ≠ [] ∧ s.all Char.isDigit then some (Nat.ofDigitChars 10 s 0) else none

theorem IsNumeral.read {n : Nat} {s : List Char} (h : IsNumeral n s) :
    readNatural? s = some n := by
  have hs : s ≠ [] ∧ s.all Char.isDigit = true := ⟨h.nonempty, List.all_eq_true.2 h.digits⟩
  rw [readNatural?, if_pos hs, h.value]

end Metrology.Decimal
