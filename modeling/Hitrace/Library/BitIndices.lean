import Mathlib.Data.List.Sort
import Mathlib.Data.Nat.BitIndices

namespace Hitrace.Library.BitIndices

/-! The indices of the set bits of a number, in ascending order. -/

variable {number width : Nat}

theorem eq_of_testBit {indices : List Nat} (hsorted : indices.Pairwise (· < ·))
    (hmem : ∀ bit, bit ∈ indices ↔ number.testBit bit = true) : indices = number.bitIndices := by
  apply hsorted.eq_of_mem_iff Nat.bitIndices_sorted.pairwise
  intro bit
  rw [hmem, Nat.mem_bitIndices]

theorem injective : Function.Injective Nat.bitIndices := by
  intro left right hsame
  rw [← left.sum_map_two_pow_bitIndices, hsame, right.sum_map_two_pow_bitIndices]

/-- The bits from a place on. -/
theorem filter_range' (start : Nat) (hnumber : number < 2 ^ (start + width)) :
    (List.range' start width).filter number.testBit =
      number.bitIndices.filter (start ≤ ·) := by
  have hsorted := (Nat.bitIndices_sorted (n := number)).pairwise
  have hrange : (List.range' start width).Pairwise (· < ·) := List.pairwise_lt_range'
  apply (hrange.filter _).eq_of_mem_iff (hsorted.filter _)
  intro bit
  simp only [List.mem_filter, List.mem_range'_1, Nat.mem_bitIndices, decide_eq_true_eq]
  constructor
  · rintro ⟨⟨hstart, _⟩, hbit⟩
    exact ⟨hbit, hstart⟩
  · rintro ⟨hbit, hstart⟩
    have hpow : 2 ^ bit < 2 ^ (start + width) :=
      Nat.lt_of_le_of_lt (Nat.ge_two_pow_of_testBit hbit) hnumber
    exact ⟨⟨hstart, (Nat.pow_lt_pow_iff_right (by decide)).mp hpow⟩, hbit⟩

theorem filter_range (hnumber : number < 2 ^ width) :
    (List.range width).filter number.testBit = number.bitIndices := by
  have hfilter := @filter_range' number width 0 (by rwa [Nat.zero_add])
  rw [List.range_eq_range', hfilter, List.filter_eq_self]
  intro bit _
  exact decide_eq_true (Nat.zero_le bit)

theorem filter_range'_eq_nil {start : Nat}
    (hclear : ∀ bit, number.testBit (start + bit) = false) :
    (List.range' start width).filter number.testBit = [] := by
  rw [List.filter_eq_nil_iff]
  intro bit hbit
  have hstart := (List.mem_range'_1.mp hbit).1
  have hbitClear := hclear (bit - start)
  rw [Nat.add_sub_cancel' hstart] at hbitClear
  simp [hbitClear]

/-- The bits of two numbers one above the other. -/
theorem or_of_lt {low high : Nat}
    (hless : ∀ left ∈ low.bitIndices, ∀ right ∈ high.bitIndices, left < right) :
    (low ||| high).bitIndices = low.bitIndices ++ high.bitIndices := by
  symm
  apply eq_of_testBit
  · exact List.pairwise_append.mpr
      ⟨Nat.bitIndices_sorted.pairwise, Nat.bitIndices_sorted.pairwise, hless⟩
  · intro bit
    rw [List.mem_append, Nat.mem_bitIndices, Nat.mem_bitIndices, Nat.testBit_or,
      Bool.or_eq_true]

theorem eq_nil_iff : number.bitIndices = [] ↔ number = 0 := by
  rw [← Nat.bitIndices_zero, injective.eq_iff]

theorem length_eq_one_iff : number.bitIndices.length = 1 ↔ number.isPowerOfTwo := by
  constructor
  · intro hone
    obtain ⟨bit, hbit⟩ := List.length_eq_one_iff.mp hone
    have hsum := number.sum_map_two_pow_bitIndices
    rw [hbit, List.map_singleton, List.sum_singleton] at hsum
    exact ⟨bit, hsum.symm⟩
  · rintro ⟨bit, rfl⟩
    rw [Nat.bitIndices_two_pow]
    rfl

end Hitrace.Library.BitIndices
