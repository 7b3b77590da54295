import Mathlib.Algebra.BigOperators.Group.Finset.Basic
import Mathlib.Algebra.Order.BigOperators.Group.Finset
import Mathlib.Algebra.Ring.Nat
import Mathlib.Data.Fintype.BigOperators
import Mathlib.Data.List.AList

namespace Hitrace.Library

universe u v

/-! A map from keys to lists, with the number of elements it holds. -/

abbrev Multimap (κ : Type u) (α : Type v) := AList fun _ : κ => List α

namespace Multimap

variable {κ : Type u} {α : Type v} [DecidableEq κ]

def bucket (map : Multimap κ α) (key : κ) : List α :=
  (map.lookup key).getD []

def pushBack (map : Multimap κ α) (key : κ) (element : α) : Multimap κ α :=
  map.insert key (map.bucket key ++ [element])

def total (map : Multimap κ α) : Nat :=
  (map.entries.map fun entry => entry.2.length).sum

theorem sum_kerase_add_dlookup (key : κ) (entries : List (Σ _ : κ, List α)) :
    ((entries.kerase key).map fun entry => entry.2.length).sum +
        ((entries.dlookup key).getD []).length =
      (entries.map fun entry => entry.2.length).sum := by
  induction entries with
  | nil => rfl
  | cons entry rest ih =>
      obtain ⟨head, bucket⟩ := entry
      by_cases hkey : key = head
      · subst hkey
        have herase : List.kerase key (⟨key, bucket⟩ :: rest) = rest :=
          List.kerase_cons_eq (β := fun _ => List α) rfl
        have hlookup : List.dlookup key (⟨key, bucket⟩ :: rest) = some bucket :=
          List.dlookup_cons_eq rest key bucket
        rw [herase, hlookup, Option.getD_some, List.map_cons, List.sum_cons]
        exact Nat.add_comm _ _
      · have herase : List.kerase key (⟨head, bucket⟩ :: rest) =
            ⟨head, bucket⟩ :: rest.kerase key :=
          List.kerase_cons_ne (β := fun _ => List α) hkey
        have hlookup : List.dlookup key (⟨head, bucket⟩ :: rest) =
            rest.dlookup key :=
          List.dlookup_cons_ne rest ⟨head, bucket⟩ hkey
        rw [herase, hlookup, List.map_cons, List.sum_cons, List.map_cons,
          List.sum_cons, ← ih]
        exact Nat.add_assoc _ _ _

theorem total_erase_add (map : Multimap κ α) (key : κ) :
    total (map.erase key) + (map.bucket key).length = map.total :=
  sum_kerase_add_dlookup key map.entries

@[simp] theorem total_empty {κ : Type u} {α : Type v} :
    total (∅ : Multimap κ α) = 0 := rfl

theorem total_pushBack (map : Multimap κ α) (key : κ) (element : α) :
    (map.pushBack key element).total = map.total + 1 := by
  have hsplit := total_erase_add map key
  have hinsert : (map.pushBack key element).total =
      (map.bucket key ++ [element]).length + total (map.erase key) := by
    rw [total, pushBack, AList.entries_insert, List.map_cons, List.sum_cons]
    rfl
  rw [hinsert, List.length_append, List.length_singleton]
  omega

@[simp] theorem bucket_pushBack_self (map : Multimap κ α) (key : κ) (element : α) :
    (map.pushBack key element).bucket key = map.bucket key ++ [element] := by
  rw [bucket, pushBack, AList.lookup_insert]
  rfl

@[simp] theorem bucket_erase_self (map : Multimap κ α) (key : κ) :
    bucket (map.erase key) key = [] := by
  rw [bucket, AList.lookup_erase]
  rfl

theorem bucket_pushBack_of_ne (map : Multimap κ α) {key other : κ} (element : α)
    (hother : other ≠ key) :
    (map.pushBack key element).bucket other = map.bucket other := by
  rw [bucket, pushBack, AList.lookup_insert_ne hother]
  rfl

theorem bucket_erase_of_ne (map : Multimap κ α) {key other : κ}
    (hother : other ≠ key) : bucket (map.erase key) other = map.bucket other := by
  rw [bucket, AList.lookup_erase_ne hother]
  rfl

end Multimap

/-! One quantity summed over a finite family of threads, and what a change of a
single thread does to the sum. -/

section Threads

variable {ι : Type u} {σ : Type v} [Fintype ι]

theorem sum_update_add [DecidableEq ι] (weight : σ → Nat) (threads : ι → σ) (index : ι)
    (thread : σ) :
    (∑ i, weight (Function.update threads index thread i)) +
        weight (threads index) =
      (∑ i, weight (threads i)) + weight thread := by
  have hrest : ∑ i ∈ Finset.univ.erase index,
      weight (Function.update threads index thread i) =
        ∑ i ∈ Finset.univ.erase index, weight (threads i) := by
    apply Finset.sum_congr rfl
    intro i hmem
    rw [Function.update_of_ne (Finset.ne_of_mem_erase hmem)]
  have hnew := Finset.sum_erase_add Finset.univ
    (fun i => weight (Function.update threads index thread i))
    (Finset.mem_univ index)
  have hold := Finset.sum_erase_add Finset.univ (fun i => weight (threads i))
    (Finset.mem_univ index)
  rw [hrest, Function.update_self] at hnew
  omega

theorem le_sum_threads (weight : σ → Nat) (threads : ι → σ) (index : ι) :
    weight (threads index) ≤ ∑ i, weight (threads i) :=
  Finset.single_le_sum (f := fun i => weight (threads i))
    (fun _ _ => Nat.zero_le _) (Finset.mem_univ index)

end Threads

end Hitrace.Library
