import Mathlib.Data.List.Basic
import Mathlib.Algebra.Ring.Nat
import Mathlib.Tactic.Common

namespace Hitrace.Library

/-! Decimal numbers as texts: `%0<width>d` and plain. -/

namespace Decimal

def text (number : Nat) : List Char :=
  (toString number).toList

def padded (width number : Nat) : List Char :=
  List.replicate (width - (text number).length) '0' ++ text number

def value (digits : List Char) : Nat :=
  Nat.ofDigitChars 10 digits 0

theorem text_eq (number : Nat) : text number = Nat.toDigits 10 number :=
  String.toList_ofList

theorem isDigit_of_mem_text {number : Nat} {char : Char} (hmem : char ∈ text number) :
    char.isDigit = true := by
  rw [text_eq] at hmem
  exact Nat.isDigit_of_mem_toDigits (by decide) (by decide) hmem

theorem text_ne_nil (number : Nat) : text number ≠ [] := by
  rw [text_eq, Nat.toDigits_eq_if (by decide)]
  split
  · exact List.cons_ne_nil _ _
  · exact List.append_ne_nil_of_right_ne_nil _ (List.cons_ne_nil _ _)

@[simp] theorem value_text (number : Nat) : value (text number) = number := by
  rw [value, text_eq]
  exact Nat.ofDigitChars_ten_toDigits

theorem text_injective : Function.Injective text := by
  intro left right htext
  rw [← value_text left, htext, value_text]

theorem length_text_le {width number : Nat} (hwidth : 0 < width)
    (hnumber : number < 10 ^ width) : (text number).length ≤ width :=
  (Nat.length_repr_le_iff hwidth).mpr hnumber

section Padded

variable {width number : Nat}

theorem isDigit_of_mem_padded {char : Char} (hmem : char ∈ padded width number) :
    char.isDigit = true := by
  rcases List.mem_append.mp hmem with hzero | htext
  · rw [List.eq_of_mem_replicate hzero]
    rfl
  · exact isDigit_of_mem_text htext

@[simp] theorem value_padded : value (padded width number) = number := by
  rw [value, padded, Nat.ofDigitChars_append, Nat.ofDigitChars_replicate_zero, Nat.mul_zero]
  exact value_text number

theorem length_padded (hwidth : 0 < width) (hnumber : number < 10 ^ width) :
    (padded width number).length = width := by
  have hle := length_text_le hwidth hnumber
  rw [padded, List.length_append, List.length_replicate]
  omega

theorem padded_ne_nil : padded width number ≠ [] :=
  List.append_ne_nil_of_right_ne_nil _ (text_ne_nil number)

end Padded

end Decimal

end Hitrace.Library
