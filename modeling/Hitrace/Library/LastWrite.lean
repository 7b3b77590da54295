import Mathlib.Data.List.DropRight
import Mathlib.Tactic.Common

namespace Hitrace.Library

/-! A register that is written by a sequence of actions: the last value that was set,
merged with the values behind it. -/

inductive Write (α : Type)
  | keep
  | set (value : α)
  | merge (value : α)
deriving Repr, DecidableEq

namespace Write

variable {α : Type}

def setValue : Write α → Option α
  | .set value => some value
  | _ => none

def mergeValue : Write α → Option α
  | .merge value => some value
  | _ => none

def apply (op : α → α → α) (current : α) : Write α → α
  | .keep => current
  | .set value => value
  | .merge value => op current value

def lastSet (start : α) (writes : List (Write α)) : α :=
  (writes.filterMap setValue).getLastD start

/-- What is merged behind the last value that was set. -/
def merged (writes : List (Write α)) : List α :=
  (writes.rtakeWhile fun write => write.setValue.isNone).filterMap mergeValue

def result (op : α → α → α) (start : α) (writes : List (Write α)) : α :=
  (merged writes).foldl op (lastSet start writes)

section Concat

variable (start : α) (writes : List (Write α))

theorem lastSet_concat_set (value : α) : lastSet start (writes ++ [Write.set value]) = value := by
  simp [lastSet, setValue]

theorem lastSet_concat_of_none {write : Write α} (hnone : write.setValue = none) :
    lastSet start (writes ++ [write]) = lastSet start writes := by
  simp [lastSet, hnone]

theorem merged_concat_set (value : α) : merged (writes ++ [Write.set value]) = [] := by
  simp [merged, setValue]

theorem merged_concat_of_none {write : Write α} (hnone : write.setValue = none) :
    merged (writes ++ [write]) = merged writes ++ (write.mergeValue).toList := by
  rw [merged, List.rtakeWhile_concat_pos _ _ _ (by simp [hnone]), List.filterMap_append]
  cases hmerge : write.mergeValue <;> simp [merged, hmerge]

end Concat

theorem foldl_apply (op : α → α → α) (start : α) (writes : List (Write α)) :
    writes.foldl (apply op) start = result op start writes := by
  induction writes using List.reverseRecOn with
  | nil => rfl
  | append_singleton writes last ih =>
      rw [List.foldl_append, ih, List.foldl_cons, List.foldl_nil]
      cases last with
      | set value => simp [result, lastSet_concat_set, merged_concat_set, apply]
      | keep =>
          rw [result, result, lastSet_concat_of_none _ _ rfl, merged_concat_of_none _ rfl]
          simp [apply, mergeValue]
      | merge value =>
          rw [result, result, lastSet_concat_of_none _ _ rfl, merged_concat_of_none _ rfl,
            List.foldl_append]
          rfl

theorem result_cons (op : α → α → α) (start : α) (write : Write α) (writes : List (Write α)) :
    result op start (write :: writes) = result op (write.apply op start) writes := by
  rw [← foldl_apply, ← foldl_apply, List.foldl_cons]

/-- What holds of the values that are written holds of the result. -/
theorem result_of_forall {op : α → α → α} {holds : α → Prop}
    (hop : ∀ left right, holds left → holds right → holds (op left right)) {start : α}
    (hstart : holds start) {writes : List (Write α)}
    (hset : ∀ value, .set value ∈ writes → holds value)
    (hmerge : ∀ value, .merge value ∈ writes → holds value) :
    holds (result op start writes) := by
  rw [← foldl_apply]
  induction writes generalizing start with
  | nil => exact hstart
  | cons write rest ih =>
      rw [List.foldl_cons]
      apply ih
      · cases write with
        | keep => exact hstart
        | set value => exact hset value List.mem_cons_self
        | merge value => exact hop start value hstart (hmerge value List.mem_cons_self)
      · intro value hmem
        exact hset value (List.mem_cons_of_mem write hmem)
      · intro value hmem
        exact hmerge value (List.mem_cons_of_mem write hmem)

theorem result_of_no_merge (op : α → α → α) (start : α) {writes : List (Write α)}
    (hmerge : ∀ write ∈ writes, write.mergeValue = none) :
    result op start writes = lastSet start writes := by
  have hnil : merged writes = [] := by
    apply List.filterMap_eq_nil_iff.mpr
    intro write hmem
    exact hmerge write (List.rtakeWhile_suffix _ _ |>.mem hmem)
  rw [result, hnil, List.foldl_nil]

/-- A part of a state that every action writes as its kind says, up to an abstraction. -/
theorem foldl_tracks {σ β γ : Type} {step : σ → β → σ} {invariant : σ → Prop} {get : σ → γ}
    {abs : α → γ} {kind : β → Write α} {op : α → α → α}
    (hinvariant : ∀ state action, invariant state → invariant (step state action))
    (hstep : ∀ state action value, invariant state → get state = abs value →
      get (step state action) = abs ((kind action).apply op value))
    {state : σ} {value : α} (hstate : invariant state) (hvalue : get state = abs value)
    (actions : List β) :
    get (actions.foldl step state) = abs (result op value (actions.map kind)) := by
  rw [← foldl_apply]
  induction actions generalizing state value with
  | nil => exact hvalue
  | cons action rest ih =>
      rw [List.foldl_cons, List.map_cons, List.foldl_cons]
      exact ih (hinvariant state action hstate) (hstep state action value hstate hvalue)

end Write

end Hitrace.Library
