import Mathlib.Data.Nat.Digits.Lemmas

namespace Hitrace.Library

/-! Numerals: the digits of a number in a base, the first one first. -/

/-- No digit leads but for the one of zero. -/
structure IsNumeral (base value : Nat) (digits : List Nat) : Prop where
  nonempty : digits ≠ []
  small : ∀ digit ∈ digits, digit < base
  leading : digits.head? = some 0 → digits = [0]
  value : Nat.ofDigits base digits.reverse = value

namespace IsNumeral

variable {base value : Nat} {digits : List Nat}

theorem zero (hbase : 0 < base) : IsNumeral base 0 [0] where
  nonempty := List.cons_ne_nil _ _
  small digit hdigit := by
    rw [List.mem_singleton.mp hdigit]
    exact hbase
  leading _ := rfl
  value := rfl

theorem of_ne_zero (hbase : 1 < base) (hvalue : value ≠ 0) :
    IsNumeral base value (Nat.digits base value).reverse where
  nonempty := by
    rw [ne_eq, List.reverse_eq_nil_iff]
    exact Nat.digits_ne_nil_iff_ne_zero.mpr hvalue
  small digit hdigit := Nat.digits_lt_base hbase (List.mem_reverse.mp hdigit)
  leading hhead := by
    have hlast := Nat.getLast_digit_ne_zero base hvalue
    rw [List.head?_reverse, List.getLast?_eq_some_getLast
      (Nat.digits_ne_nil_iff_ne_zero.mpr hvalue)] at hhead
    exact absurd (Option.some.inj hhead) hlast
  value := by
    rw [List.reverse_reverse]
    exact Nat.ofDigits_digits base value

/-- A number has one numeral. -/
theorem unique (hbase : 1 < base) (hdigits : IsNumeral base value digits) :
    digits = if value = 0 then [0] else (Nat.digits base value).reverse := by
  by_cases hzero : digits = [0]
  · have hvalue : value = 0 := by
      rw [← hdigits.value, hzero]
      rfl
    rw [if_pos hvalue, hzero]
  · have hsame : Nat.digits base value = digits.reverse := by
      rw [← hdigits.value]
      apply Nat.digits_ofDigits base hbase
      · intro digit hdigit
        exact hdigits.small digit (List.mem_reverse.mp hdigit)
      · intro hnonempty hlast
        rw [List.getLast_reverse] at hlast
        apply hzero
        apply hdigits.leading
        rw [List.head?_eq_some_head hdigits.nonempty, hlast]
    have hvalue : value ≠ 0 := by
      intro hnone
      rw [hnone, Nat.digits_zero] at hsame
      exact hdigits.nonempty (List.reverse_eq_nil_iff.mp hsame.symm)
    rw [if_neg hvalue, hsame, List.reverse_reverse]

end IsNumeral

end Hitrace.Library
