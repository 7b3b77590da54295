import Mathlib.Data.List.Sort
import Mathlib.Order.Basic
import Mathlib.Tactic.Common

namespace Hitrace.Library

/-! Maps as lists of entries in ascending order of their keys. -/

structure SortedMap (κ β : Type) [LinearOrder κ] where
  entries : List (κ × β)
  sorted : (entries.map Prod.fst).Pairwise (· < ·)

namespace SortedMap

variable {κ β : Type} [LinearOrder κ]

def Sorted (entries : List (κ × β)) : Prop :=
  (entries.map Prod.fst).Pairwise (· < ·)

def insertEntry (key : κ) (value : β) : List (κ × β) → List (κ × β)
  | [] => [(key, value)]
  | head :: rest =>
      if key < head.1 then (key, value) :: head :: rest
      else if key = head.1 then head :: rest
      else head :: insertEntry key value rest

def modifyEntry (key : κ) (change : β → β) (entries : List (κ × β)) : List (κ × β) :=
  entries.map fun entry => if entry.1 = key then (entry.1, change entry.2) else entry

variable {key other : κ} {value : β} {entries : List (κ × β)}

theorem keys_insertEntry :
    other ∈ (insertEntry key value entries).map Prod.fst ↔
      other = key ∨ other ∈ entries.map Prod.fst := by
  induction entries with
  | nil => simp [insertEntry]
  | cons head rest ih =>
      rw [insertEntry]
      split
      · rw [List.map_cons, List.mem_cons]
      · split
        · next heq =>
            rw [heq, List.map_cons, List.mem_cons, or_self_left]
        · rw [List.map_cons, List.map_cons, List.mem_cons, List.mem_cons, ih, or_left_comm]

theorem sorted_insertEntry (hsorted : Sorted entries) : Sorted (insertEntry key value entries) := by
  induction entries with
  | nil => exact List.pairwise_singleton _ key
  | cons head rest ih =>
      obtain ⟨hhead, hrest⟩ := List.pairwise_cons.mp hsorted
      rw [insertEntry]
      split
      · next hless =>
          refine List.pairwise_cons.mpr ⟨fun later hlater => ?_, hsorted⟩
          rcases List.mem_cons.mp hlater with rfl | hmem
          · exact hless
          · exact lt_trans hless (hhead later hmem)
      · next hless =>
          split
          · exact hsorted
          · next hne =>
              refine List.pairwise_cons.mpr ⟨fun later hlater => ?_, ih hrest⟩
              rcases keys_insertEntry.mp hlater with rfl | hmem
              · exact lt_of_le_of_ne (not_lt.mp hless) (Ne.symm hne)
              · exact hhead later hmem

theorem keys_modifyEntry (change : β → β) :
    (modifyEntry key change entries).map Prod.fst = entries.map Prod.fst := by
  rw [modifyEntry, List.map_map]
  apply List.map_congr_left
  intro entry _
  by_cases heq : entry.1 = key
  · simp [heq]
  · simp [heq]

theorem lookup_eq_none_of_not_mem (hkey : key ∉ entries.map Prod.fst) :
    entries.lookup key = none := by
  induction entries with
  | nil => rfl
  | cons head rest ih =>
      rw [List.map_cons, List.mem_cons, not_or] at hkey
      rw [List.lookup_cons, beq_false_of_ne hkey.1]
      exact ih hkey.2

theorem lookup_insertEntry (hsorted : Sorted entries) :
    (insertEntry key value entries).lookup other =
      if other = key then some ((entries.lookup key).getD value) else entries.lookup other := by
  induction entries with
  | nil =>
      by_cases heq : other = key
      · simp [insertEntry, heq]
      · simp [insertEntry, heq]
  | cons head rest ih =>
      obtain ⟨hhead, hrest⟩ := List.pairwise_cons.mp hsorted
      rw [insertEntry]
      by_cases hless : key < head.1
      · have hnone : (head :: rest).lookup key = none := by
          apply lookup_eq_none_of_not_mem
          intro hmem
          rcases List.mem_cons.mp hmem with heq | hmem
          · exact absurd heq (ne_of_lt hless)
          · exact lt_asymm hless (hhead key hmem)
        rw [if_pos hless, hnone, List.lookup_cons]
        by_cases heq : other = key
        · simp [heq]
        · simp [heq, beq_false_of_ne heq]
      · rw [if_neg hless]
        by_cases hkey : key = head.1
        · rw [if_pos hkey]
          by_cases heq : other = key
          · rw [if_pos heq, heq, hkey, List.lookup_cons, beq_self_eq_true]
            rfl
          · rw [if_neg heq]
        · rw [if_neg hkey, List.lookup_cons, List.lookup_cons, List.lookup_cons, ih hrest,
            beq_false_of_ne hkey]
          by_cases heq : other = key
          · simp [heq, beq_false_of_ne hkey]
          · simp [heq]

theorem lookup_modifyEntry (change : β → β) :
    (modifyEntry key change entries).lookup other =
      if other = key then (entries.lookup key).map change else entries.lookup other := by
  induction entries with
  | nil => simp [modifyEntry]
  | cons head rest ih =>
      rw [modifyEntry] at ih
      rw [modifyEntry, List.map_cons]
      by_cases hkey : head.1 = key
      · rw [if_pos hkey, List.lookup_cons, List.lookup_cons, List.lookup_cons, ih, hkey]
        by_cases heq : other = key
        · simp [heq]
        · simp [heq, beq_false_of_ne heq]
      · rw [if_neg hkey, List.lookup_cons, List.lookup_cons, List.lookup_cons, ih,
          beq_false_of_ne (Ne.symm hkey)]
        by_cases heq : other = key
        · simp [heq, beq_false_of_ne (Ne.symm hkey)]
        · simp [heq]

/-! The maps themselves. -/

def empty : SortedMap κ β where
  entries := []
  sorted := List.Pairwise.nil

def lookup (map : SortedMap κ β) (key : κ) : Option β :=
  map.entries.lookup key

/-- An entry that is there stays as it is. -/
def insert (map : SortedMap κ β) (key : κ) (value : β) : SortedMap κ β where
  entries := insertEntry key value map.entries
  sorted := sorted_insertEntry map.sorted

def modify (map : SortedMap κ β) (key : κ) (change : β → β) : SortedMap κ β where
  entries := modifyEntry key change map.entries
  sorted := by
    rw [keys_modifyEntry]
    exact map.sorted

@[simp] theorem lookup_empty : (empty : SortedMap κ β).lookup key = none :=
  rfl

@[simp] theorem lookup_insert (map : SortedMap κ β) :
    (map.insert key value).lookup other =
      if other = key then some ((map.lookup key).getD value) else map.lookup other :=
  lookup_insertEntry map.sorted

@[simp] theorem lookup_modify (map : SortedMap κ β) (change : β → β) :
    (map.modify key change).lookup other =
      if other = key then (map.lookup key).map change else map.lookup other :=
  lookup_modifyEntry change

/-! The keys may be compared by any test for equality. -/

theorem lookup_cons_ite {γ : Type} {test : BEq κ} [lawful : @LawfulBEq κ test] (head : κ × γ)
    (rest : List (κ × γ)) :
    @List.lookup κ γ test key (head :: rest) =
      if key = head.1 then some head.2 else @List.lookup κ γ test key rest := by
  by_cases heq : key = head.1
  · have htest := (@beq_iff_eq κ test lawful key head.1).mpr heq
    rw [List.lookup_cons, htest, if_pos heq]
  · have htest := @beq_false_of_ne κ test lawful key head.1 heq
    rw [List.lookup_cons, htest, if_neg heq]

theorem lookup_map {γ : Type} {test : BEq κ} [lawful : @LawfulBEq κ test] (change : β → γ)
    (map : SortedMap κ β) :
    @List.lookup κ γ test key (map.entries.map fun entry => (entry.1, change entry.2)) =
      (map.lookup key).map change := by
  rw [lookup]
  induction map.entries with
  | nil => rfl
  | cons head rest ih =>
      rw [List.map_cons, lookup_cons_ite, lookup_cons_ite, ih]
      split <;> rfl

theorem nodup_keys (map : SortedMap κ β) : (map.entries.map Prod.fst).Nodup :=
  map.sorted.imp ne_of_lt

end SortedMap

end Hitrace.Library
