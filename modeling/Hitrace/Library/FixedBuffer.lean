import Mathlib.Data.List.Basic
import Mathlib.Algebra.Ring.Nat
import Mathlib.Tactic.Common

namespace Hitrace.Library

/-! An array of fixed length, written at indices. -/

structure FixedBuffer (α : Type) (capacity : Nat) where
  cells : List α
  size : cells.length = capacity
deriving Repr, DecidableEq

namespace FixedBuffer

variable {α : Type} {capacity : Nat}

/-- `none` when a value would come to lie at an index past the end. -/
def store (buffer : FixedBuffer α capacity) (index : Nat) (values : List α) :
    Option (FixedBuffer α capacity) :=
  if hroom : index + values.length ≤ capacity then
    some
      { cells := buffer.cells.take index ++ values ++
          buffer.cells.drop (index + values.length)
        size := by
          have hsize := buffer.size
          simp only [List.length_append, List.length_take, List.length_drop]
          omega }
  else none

/-- One value after the other: `buffer[index++] = value`. -/
def storeEach : List α → Nat → FixedBuffer α capacity →
    Option (FixedBuffer α capacity)
  | [], _, buffer => some buffer
  | value :: rest, index, buffer =>
      match buffer.store index [value] with
      | none => none
      | some buffer => storeEach rest (index + 1) buffer

def load (buffer : FixedBuffer α capacity) (index count : Nat) : List α :=
  (buffer.cells.drop index).take count

@[simp] theorem load_zero (buffer : FixedBuffer α capacity) (index : Nat) :
    buffer.load index 0 = [] := by
  rw [load, List.take_zero]

theorem take_load (buffer : FixedBuffer α capacity) (index : Nat) {short long : Nat}
    (hshort : short ≤ long) :
    (buffer.load index long).take short = buffer.load index short := by
  rw [load, load, List.take_take, Nat.min_eq_left hshort]

theorem length_load_front (buffer : FixedBuffer α capacity) {count : Nat}
    (hcount : count ≤ capacity) : (buffer.load 0 count).length = count := by
  rw [load, List.drop_zero, List.length_take, buffer.size]
  exact Nat.min_eq_left hcount

/-- What is read back after a store. -/
structure Stored (buffer : FixedBuffer α capacity) (index : Nat) (values : List α)
    (next : FixedBuffer α capacity) : Prop where
  kept : next.load 0 index = buffer.load 0 index
  grown : next.load 0 (index + values.length) = buffer.load 0 index ++ values
  slot : next.load index values.length = values

theorem exists_store (buffer : FixedBuffer α capacity) {index : Nat}
    {values : List α} (hroom : index + values.length ≤ capacity) :
    ∃ next, buffer.store index values = some next ∧
      buffer.Stored index values next := by
  have hsize := buffer.size
  have hfront : (buffer.cells.take index).length = index := by
    rw [List.length_take]
    omega
  have hgrown : (buffer.cells.take index ++ values).length =
      index + values.length := by
    rw [List.length_append, hfront]
  refine ⟨_, dif_pos hroom, ?_, ?_, ?_⟩
  · dsimp only [load, List.drop_zero]
    rw [List.append_assoc]
    exact List.take_left' hfront
  · dsimp only [load, List.drop_zero]
    exact List.take_left' hgrown
  · dsimp only [load]
    rw [List.append_assoc, List.drop_left' hfront]
    exact List.take_left' rfl

theorem exists_storeEach (buffer : FixedBuffer α capacity) {index : Nat}
    {values : List α} (hroom : index + values.length ≤ capacity) :
    ∃ next, storeEach values index buffer = some next ∧
      next.load 0 (index + values.length) = buffer.load 0 index ++ values := by
  induction values generalizing buffer index with
  | nil => exact ⟨buffer, rfl, (List.append_nil _).symm⟩
  | cons value rest ih =>
      rw [List.length_cons] at hroom
      have hone : index + [value].length ≤ capacity := by
        rw [List.length_singleton]
        omega
      obtain ⟨stored, hstore, hstored⟩ := buffer.exists_store hone
      have hgrown : stored.load 0 (index + 1) = buffer.load 0 index ++ [value] :=
        hstored.grown
      have hrest : index + 1 + rest.length ≤ capacity := by omega
      obtain ⟨next, heach, hnext⟩ := ih stored hrest
      refine ⟨next, ?_, ?_⟩
      · rw [storeEach, hstore]
        exact heach
      · rw [hgrown, List.append_assoc, Nat.add_assoc, Nat.add_comm 1] at hnext
        exact hnext

end FixedBuffer

/-! A loop that works its input off round by round. -/

section Rounds

variable {α σ : Type}

/-- A round leaves nothing when it was the last, and otherwise the input for the
next one.  `none` is a round that fails, or one that would repeat for ever. -/
def rounds (step : List α → σ → Option (Option (List α) × σ)) (input : List α)
    (state : σ) : Option σ :=
  match step input state with
  | none => none
  | some (none, next) => some next
  | some (some rest, next) =>
      if rest.length < input.length then rounds step rest next else none
termination_by input.length

/-- What a round contributes when its result meets the goal. -/
def RoundMeets (holds : List α → σ → Prop) (meets : List α → σ → σ → Prop)
    (input : List α) (state : σ) : Option (List α) × σ → Prop
  | (none, next) => meets input state next
  | (some rest, next) => rest.length < input.length ∧ holds rest next ∧
      ∀ final, meets rest next final → meets input state final

theorem rounds_meet {step : List α → σ → Option (Option (List α) × σ)}
    {holds : List α → σ → Prop} {meets : List α → σ → σ → Prop}
    (hstep : ∀ input state, holds input state →
      ∃ result, step input state = some result ∧
        RoundMeets holds meets input state result)
    (input : List α) (state : σ) (hholds : holds input state) :
    ∃ final, rounds step input state = some final ∧ meets input state final := by
  induction hlength : input.length using Nat.strong_induction_on
    generalizing input state with
  | _ length ih =>
      obtain ⟨⟨left, next⟩, hresult, hmeets⟩ := hstep input state hholds
      rw [rounds, hresult]
      cases left with
      | none => exact ⟨next, rfl, hmeets⟩
      | some rest =>
          obtain ⟨hless, hnext, hback⟩ := hmeets
          obtain ⟨final, hfinal, hgoal⟩ := ih rest.length (hlength ▸ hless) rest next hnext rfl
          dsimp only
          rw [if_pos hless]
          exact ⟨final, hfinal, hback final hgoal⟩

end Rounds

end Hitrace.Library
