import Hitrace.Library.Decimal
import Hitrace.Utils.TraceDirectory
import Mathlib.Data.List.TakeWhile

namespace Hitrace

open Library

/-! What `sscanf` and `strtol` read of a number that was printed. -/

/-- What a `const char*` shows of a text. -/
def cString (text : List Char) : List Char :=
  text.takeWhile fun char => char != '\x00'

section Digits

variable {digits rest : List Char}

theorem isSpace_of_isDigit {char : Char} (hdigit : char.isDigit = true) :
    isSpace char = false := by
  simp only [Char.isDigit, ge_iff_le, Bool.and_eq_true, decide_eq_true_eq] at hdigit
  have hlow : 48 ≤ char.toNat := hdigit.1
  have hblank : char ≠ ' ' := by
    rintro rfl
    exact absurd hlow (by decide)
  have hcontrol : 13 < char.toNat := by omega
  simp [isSpace, hblank, hcontrol]

/-- A field that is filled by its digits, or ends with them. -/
theorem scanNumber_digits {width : Nat} (hdigits : ∀ char ∈ digits, char.isDigit = true)
    (hnonempty : digits ≠ [])
    (hstop : digits.length = width ∨
      digits.length ≤ width ∧ ∀ char ∈ rest.head?, char.isDigit = false) :
    scanNumber width (digits ++ rest) = some (false, Decimal.value digits, rest) := by
  obtain ⟨first, others, rfl⟩ := List.exists_cons_of_ne_nil hnonempty
  have hfirst := hdigits first List.mem_cons_self
  have hspace : (first :: others ++ rest).dropWhile isSpace = first :: others ++ rest := by
    rw [List.cons_append, List.dropWhile_cons_of_neg]
    rw [isSpace_of_isDigit hfirst]
    decide
  have hminus : first ≠ '-' := by
    rintro rfl
    exact absurd hfirst (by decide)
  have hplus : first ≠ '+' := by
    rintro rfl
    exact absurd hfirst (by decide)
  have hspan : ((first :: others ++ rest).take width).takeWhile Char.isDigit =
      first :: others := by
    rw [List.take_append, List.take_of_length_le (by omega)]
    rcases hstop with hfull | ⟨_, hend⟩
    · rw [hfull, Nat.sub_self, List.take_zero, List.append_nil]
      exact List.takeWhile_eq_self_iff.mpr hdigits
    · rw [List.takeWhile_append_of_pos hdigits]
      cases rest with
      | nil => simp
      | cons head tail =>
          cases width - (first :: others).length with
          | zero => simp
          | succ room =>
              have hhead : head.isDigit = false := hend head rfl
              simp [hhead]
  have hvalue (digits : List Char) : digitsValue digits = Decimal.value digits := rfl
  rw [scanNumber, hspace]
  simp only [List.cons_append]
  split
  · next heq =>
      cases heq
      exact absurd rfl hminus
  · next heq =>
      cases heq
      exact absurd rfl hplus
  · rw [← List.cons_append, Nat.sub_zero, hspan, hvalue]
    simp

end Digits

end Hitrace
