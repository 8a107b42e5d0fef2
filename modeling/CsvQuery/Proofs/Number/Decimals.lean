/-
Whole numbers in base ten, as they are written.

The digits of a number are read as the number again, and they begin with a zero
only if the number is zero.
-/
import CsvQuery.Number.Integer

namespace CsvQuery.Integer

theorem notMem_toDigits {n : Nat} {c : Char}
    (h : c.isDigit = false) : c ∉ Nat.toDigits 10 n := by
  intro hmem
  rw [Nat.isDigit_of_mem_toDigits (by decide) (by decide) hmem] at h
  cases h

theorem digits?_toDigits (n : Nat) : digits? (Nat.toDigits 10 n) = some n := by
  have hdigits : (Nat.toDigits 10 n).all Char.isDigit = true :=
    List.all_eq_true.mpr fun c hc => Nat.isDigit_of_mem_toDigits (by decide) (by decide) hc
  have hvalue : digitsValue 0 (Nat.toDigits 10 n) = n := Nat.ofDigitChars_ten_toDigits
  simp [digits?, hdigits, hvalue]

/-- No number but zero is written with a zero in front. -/
theorem head?_toDigits_ne {n : Nat} (h : 0 < n) :
    (Nat.toDigits 10 n).head? ≠ some '0' := by
  induction n using Nat.strongRecOn with
  | ind n ih =>
      by_cases hone : n < 10
      · rw [Nat.toDigits_of_lt_base hone, List.head?_cons]
        intro hzero
        have hcode := congrArg Char.toNat (Option.some.inj hzero)
        rw [Nat.toNat_digitChar_of_lt_ten hone] at hcode
        have hfortyEight : '0'.toNat = 48 := rfl
        omega
      · have hrest : 0 < n / 10 := Nat.div_pos (Nat.le_of_not_lt hone) (by decide)
        have hfront := ih (n / 10) (Nat.div_lt_self h (by decide)) hrest
        rw [Nat.toDigits_of_base_le (by decide) (Nat.le_of_not_lt hone)]
        obtain ⟨c, cs, hcs⟩ :=
          List.exists_cons_of_ne_nil (Nat.toDigits_ne_nil (n := n / 10))
        rw [hcs] at hfront ⊢
        exact hfront

end CsvQuery.Integer
