import Mathlib.Data.List.Basic
import Mathlib.Tactic.Common

namespace Hitrace.Library

/-! Sorting by a key that keeps the order of what has one key. -/

namespace StableSort

variable {α : Type} {key : α → Nat}

def sortBy (key : α → Nat) (items : List α) : List α :=
  items.mergeSort fun left right => decide (key left ≤ key right)

/-- The keys do not decrease, and the items of every key are the given ones in their
order. -/
structure Sorted (key : α → Nat) (items sorted : List α) : Prop where
  pairwise : sorted.Pairwise fun left right => key left ≤ key right
  ties : ∀ tie, (sorted.filter fun item => decide (key item = tie)) =
    items.filter fun item => decide (key item = tie)

theorem sortBy_perm (items : List α) : (sortBy key items).Perm items :=
  List.mergeSort_perm items _

theorem sorted_sortBy (items : List α) : Sorted key items (sortBy key items) := by
  have htrans : ∀ first second third : α, decide (key first ≤ key second) = true →
      decide (key second ≤ key third) = true → decide (key first ≤ key third) = true := by
    intro first second third hfirst hsecond
    simp only [decide_eq_true_eq] at hfirst hsecond ⊢
    exact Nat.le_trans hfirst hsecond
  have htotal : ∀ left right : α,
      (decide (key left ≤ key right) || decide (key right ≤ key left)) = true := by
    intro left right
    simp only [Bool.or_eq_true, decide_eq_true_eq]
    exact Nat.le_total _ _
  refine ⟨?_, ?_⟩
  · apply (List.pairwise_mergeSort htrans htotal items).imp
    intro left right hle
    exact of_decide_eq_true hle
  · intro tie
    -- the items of a key are sorted already, so they are left as they stand
    have htied : (items.filter fun item => decide (key item = tie)).Pairwise
        fun left right => decide (key left ≤ key right) = true := by
      apply List.pairwise_of_forall_mem_list
      intro left hleft right hright
      have hkeyLeft := of_decide_eq_true (List.mem_filter.mp hleft).2
      have hkeyRight := of_decide_eq_true (List.mem_filter.mp hright).2
      rw [hkeyLeft, hkeyRight]
      exact decide_eq_true (Nat.le_refl tie)
    have hsublist := List.sublist_mergeSort htrans htotal htied List.filter_sublist
    have hfiltered := hsublist.filter fun item => decide (key item = tie)
    rw [List.filter_filter] at hfiltered
    simp only [Bool.and_self] at hfiltered
    have hperm := (@sortBy_perm α key items).filter fun item => decide (key item = tie)
    exact (hfiltered.eq_of_length hperm.length_eq.symm).symm

theorem filter_tail {item : α} {left right : List α} {tie : Nat}
    (hties : ((item :: left).filter fun item => decide (key item = tie)) =
      (item :: right).filter fun item => decide (key item = tie)) :
    (left.filter fun item => decide (key item = tie)) =
      right.filter fun item => decide (key item = tie) := by
  rw [List.filter_cons, List.filter_cons] at hties
  split at hties
  · exact List.tail_eq_of_cons_eq hties
  · exact hties

theorem mem_iff_of_ties {left right : List α}
    (hties : ∀ tie, (left.filter fun item => decide (key item = tie)) =
      right.filter fun item => decide (key item = tie)) (item : α) :
    item ∈ left ↔ item ∈ right := by
  have hfilter := congrArg (fun items => item ∈ items) (hties (key item))
  simpa using hfilter

/-- There is one list in this order. -/
theorem eq_of_ties {left right : List α}
    (hleft : left.Pairwise fun first second => key first ≤ key second)
    (hright : right.Pairwise fun first second => key first ≤ key second)
    (hties : ∀ tie, (left.filter fun item => decide (key item = tie)) =
      right.filter fun item => decide (key item = tie)) : left = right := by
  induction left generalizing right with
  | nil =>
      apply Eq.symm
      apply List.eq_nil_iff_forall_not_mem.mpr
      intro item hitem
      exact absurd ((mem_iff_of_ties hties item).mpr hitem) List.not_mem_nil
  | cons first left ih =>
      cases right with
      | nil =>
          have hmem := (mem_iff_of_ties hties first).mp List.mem_cons_self
          exact absurd hmem List.not_mem_nil
      | cons second right =>
          have hmem := mem_iff_of_ties hties
          have hfirst : key first ≤ key second := by
            rcases List.mem_cons.mp ((hmem second).mpr List.mem_cons_self) with heq | hlater
            · exact Nat.le_of_eq (congrArg key heq.symm)
            · exact List.rel_of_pairwise_cons hleft hlater
          have hsecond : key second ≤ key first := by
            rcases List.mem_cons.mp ((hmem first).mp List.mem_cons_self) with heq | hlater
            · exact Nat.le_of_eq (congrArg key heq.symm)
            · exact List.rel_of_pairwise_cons hright hlater
          have hkey : key second = key first := by omega
          have hheads := hties (key first)
          simp only [List.filter_cons, hkey, decide_true, if_true, List.cons.injEq] at hheads
          obtain ⟨rfl, _⟩ := hheads
          rw [ih hleft.of_cons hright.of_cons fun tie => filter_tail (hties tie)]

theorem Sorted.unique {items left right : List α} (hleft : Sorted key items left)
    (hright : Sorted key items right) : left = right := by
  apply eq_of_ties hleft.pairwise hright.pairwise
  intro tie
  rw [hleft.ties, hright.ties]

end StableSort

end Hitrace.Library
