import Mathlib.Data.List.Sort
import Mathlib.Order.Basic
import Mathlib.Tactic.Common

namespace Hitrace.Library

/-! Sets as ascending lists: the elements in order and each one once. -/

namespace SortedSet

variable {α : Type} [LinearOrder α]

def insert (element : α) : List α → List α
  | [] => [element]
  | head :: rest =>
      if element < head then element :: head :: rest
      else if element = head then head :: rest
      else head :: insert element rest

def insertAll (elements : List α) (set : List α) : List α :=
  elements.foldl (fun set element => insert element set) set

variable {element other : α} {set : List α}

@[simp] theorem mem_insert : other ∈ insert element set ↔ other = element ∨ other ∈ set := by
  induction set with
  | nil => simp [insert]
  | cons head rest ih =>
      rw [insert]
      split
      · exact List.mem_cons
      · split
        · next heq =>
            subst heq
            simp
        · simp only [List.mem_cons, ih]
          exact or_left_comm

@[simp] theorem mem_insertAll {elements : List α} :
    other ∈ insertAll elements set ↔ other ∈ elements ∨ other ∈ set := by
  induction elements generalizing set with
  | nil => simp [insertAll]
  | cons element rest ih =>
      have hrest := @ih (insert element set)
      rw [insertAll, List.foldl_cons, ← insertAll, hrest, mem_insert, List.mem_cons,
        or_left_comm, or_assoc]

theorem pairwise_insert (hset : set.Pairwise (· < ·)) :
    (insert element set).Pairwise (· < ·) := by
  induction set with
  | nil => exact List.pairwise_singleton _ element
  | cons head rest ih =>
      obtain ⟨hhead, hrest⟩ := List.pairwise_cons.mp hset
      rw [insert]
      split
      · next hless =>
          refine List.pairwise_cons.mpr ⟨fun later hlater => ?_, hset⟩
          rcases List.mem_cons.mp hlater with rfl | hmem
          · exact hless
          · exact lt_trans hless (hhead later hmem)
      · next hless =>
          split
          · exact hset
          · next hne =>
              refine List.pairwise_cons.mpr ⟨fun later hlater => ?_, ih hrest⟩
              rcases mem_insert.mp hlater with rfl | hmem
              · exact lt_of_le_of_ne (not_lt.mp hless) (Ne.symm hne)
              · exact hhead later hmem

theorem pairwise_insertAll {elements : List α} (hset : set.Pairwise (· < ·)) :
    (insertAll elements set).Pairwise (· < ·) := by
  induction elements generalizing set with
  | nil => exact hset
  | cons element rest ih => exact ih (pairwise_insert hset)

/-- A set is determined by its members. -/
theorem eq_of_mem_iff {first second : List α} (hfirst : first.Pairwise (· < ·))
    (hsecond : second.Pairwise (· < ·)) (hmem : ∀ element, element ∈ first ↔ element ∈ second) :
    first = second :=
  hfirst.eq_of_mem_iff hsecond hmem

end SortedSet

end Hitrace.Library
