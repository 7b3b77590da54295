import Hitrace.Library.FixedBuffer
import Mathlib.Control.Basic
import Mathlib.Data.Nat.Digits.Defs

namespace Hitrace.Library

/-! A text put together in an array of fixed length, by calls that each stop at the end
of the array. -/

structure BoundedWriter (α : Type) (capacity : Nat) where
  buffer : FixedBuffer α capacity
  offset : Nat
deriving Repr, DecidableEq

namespace BoundedWriter

variable {α : Type} {capacity : Nat}

/-- `none` when a value would come to lie outside of the array. -/
def write (values : List α) (writer : BoundedWriter α capacity) :
    Option (BoundedWriter α capacity) :=
  match writer.buffer.store writer.offset values with
  | none => none
  | some buffer => some ⟨buffer, writer.offset + values.length⟩

/-- What is written is the front of the whole text, as much of it as fits. -/
structure Holds (writer : BoundedWriter α capacity) (text : List α) : Prop where
  offset : writer.offset = min capacity text.length
  content : writer.buffer.load 0 writer.offset = text.take capacity

/-- The call adds `text` to whatever the array is to hold, and stays inside. -/
def Appends (call : BoundedWriter α capacity → Option (BoundedWriter α capacity))
    (text : List α) : Prop :=
  ∀ writer front, Holds writer front →
    ∃ next, call writer = some next ∧ Holds next (front ++ text)

theorem holds_start (buffer : FixedBuffer α capacity) : Holds ⟨buffer, 0⟩ [] where
  offset := (Nat.min_zero _).symm
  content := by
    rw [FixedBuffer.load_zero, List.take_nil]

theorem appends_some : @Appends α capacity some [] := by
  intro writer front hholds
  rw [List.append_nil]
  exact ⟨writer, rfl, hholds⟩

section Calls

variable {first second : BoundedWriter α capacity → Option (BoundedWriter α capacity)}
variable {left right : List α}

theorem Appends.comp (hfirst : Appends first left) (hsecond : Appends second right) :
    Appends (first >=> second) (left ++ right) := by
  intro writer front hholds
  obtain ⟨middle, hmiddle, hheld⟩ := hfirst writer front hholds
  obtain ⟨next, hnext, hdone⟩ := hsecond middle _ hheld
  refine ⟨next, ?_, ?_⟩
  · change (first writer).bind second = some next
    rw [hmiddle]
    exact hnext
  · rw [← List.append_assoc]
    exact hdone

theorem Appends.ite {condition : Prop} [Decidable condition] (hfirst : Appends first left)
    (hsecond : Appends second right) :
    Appends (if condition then first else second) (if condition then left else right) := by
  split
  · exact hfirst
  · exact hsecond

/-- The array behind a sequence of calls that starts at its front. -/
theorem Appends.start (hcall : Appends first left) (buffer : FixedBuffer α capacity) :
    ∃ writer, first ⟨buffer, 0⟩ = some writer ∧
      writer.offset = min capacity left.length ∧
      writer.buffer.load 0 writer.offset = left.take capacity := by
  obtain ⟨writer, hwriter, hheld⟩ := hcall _ _ (holds_start buffer)
  exact ⟨writer, hwriter, hheld.offset, hheld.content⟩

end Calls

/-! What a call does to an array that is written already, whatever it holds. -/

/-- As much of the text as there is room for stands behind the offset; the other cells are
as they were. -/
structure Gets (writer : BoundedWriter α capacity) (text : List α)
    (next : BoundedWriter α capacity) : Prop where
  offset : next.offset = writer.offset + min text.length (capacity - writer.offset)
  cells : next.buffer.cells = writer.buffer.cells.take writer.offset ++
    text.take (capacity - writer.offset) ++ writer.buffer.cells.drop next.offset

def Puts (call : BoundedWriter α capacity → Option (BoundedWriter α capacity))
    (text : List α) : Prop :=
  ∀ writer, writer.offset ≤ capacity →
    ∃ next, call writer = some next ∧ Gets writer text next

section Puts

variable {writer middle next : BoundedWriter α capacity} {left right : List α}

theorem Gets.inside (hgets : Gets writer left next) (hoffset : writer.offset ≤ capacity) :
    next.offset ≤ capacity := by
  have hnext := hgets.offset
  omega

theorem exists_gets_write (hoffset : writer.offset ≤ capacity) (text : List α) :
    ∃ next, writer.write (text.take (capacity - writer.offset)) = some next ∧
      Gets writer text next := by
  have hlength : (text.take (capacity - writer.offset)).length =
      min text.length (capacity - writer.offset) := by
    rw [List.length_take, Nat.min_comm]
  have hroom : writer.offset + (text.take (capacity - writer.offset)).length ≤ capacity := by
    omega
  refine ⟨_, by rw [BoundedWriter.write, FixedBuffer.store, dif_pos hroom], ?_, ?_⟩
  · exact congrArg (writer.offset + ·) hlength
  · rfl

theorem gets_nil (writer : BoundedWriter α capacity) : Gets writer [] writer where
  offset := by simp
  cells := by simp

theorem Gets.trans (hoffset : writer.offset ≤ capacity) (hleft : Gets writer left middle)
    (hright : Gets middle right next) : Gets writer (left ++ right) next := by
  have hmiddle := hleft.offset
  have hnext := hright.offset
  have hsize := writer.buffer.size
  -- The room behind the first text.
  have hroom : capacity - middle.offset = capacity - writer.offset - left.length := by omega
  have hfront : (writer.buffer.cells.take writer.offset ++
      left.take (capacity - writer.offset)).length = middle.offset := by
    rw [List.length_append, List.length_take, List.length_take]
    omega
  constructor
  · rw [List.length_append]
    omega
  · have htake : middle.buffer.cells.take middle.offset =
        writer.buffer.cells.take writer.offset ++ left.take (capacity - writer.offset) := by
      rw [hleft.cells]
      exact List.take_left' hfront
    have hdrop : middle.buffer.cells.drop next.offset =
        writer.buffer.cells.drop next.offset := by
      obtain ⟨more, hmore⟩ : ∃ more, next.offset = middle.offset + more := ⟨_, hnext⟩
      rw [hleft.cells, hmore, ← List.drop_drop, ← List.drop_drop, List.drop_left' hfront]
    rw [hright.cells, htake, hdrop, hroom, List.take_append]
    simp only [List.append_assoc]

theorem puts_some : @Puts α capacity some [] :=
  fun writer _ => ⟨writer, rfl, gets_nil writer⟩

variable {first second : BoundedWriter α capacity → Option (BoundedWriter α capacity)}

theorem Puts.comp (hfirst : Puts first left) (hsecond : Puts second right) :
    Puts (first >=> second) (left ++ right) := by
  intro writer hoffset
  obtain ⟨middle, hmiddle, hleft⟩ := hfirst writer hoffset
  obtain ⟨next, hnext, hright⟩ := hsecond middle (hleft.inside hoffset)
  refine ⟨next, ?_, hleft.trans hoffset hright⟩
  change (first writer).bind second = some next
  rw [hmiddle]
  exact hnext

/-- Such a call adds its text to whatever the array is to hold. -/
theorem Puts.appends (hcall : Puts first left) : Appends first left := by
  intro writer front hholds
  have hoffset := hholds.offset
  obtain ⟨next, hnext, hgets⟩ := hcall writer (by omega)
  have hafter := hgets.offset
  have hsize := writer.buffer.size
  refine ⟨next, hnext, ?_, ?_⟩
  · rw [List.length_append]
    omega
  · have hcontent : writer.buffer.cells.take writer.offset = front.take capacity :=
      hholds.content
    have hroom : capacity - writer.offset = capacity - front.length := by omega
    have hlength : (writer.buffer.cells.take writer.offset ++
        left.take (capacity - writer.offset)).length = next.offset := by
      rw [List.length_append, List.length_take, List.length_take]
      omega
    rw [FixedBuffer.load, List.drop_zero, hgets.cells, List.take_left' hlength, hcontent,
      hroom, List.take_append]

end Puts

end BoundedWriter

/-! The digits of a number, the last one first, from the end of an array to its front. -/

section Digits

variable {α : Type} {capacity : Nat}

/-- The cells in front of `free` are not written yet.  `none` is a digit in front of the
array. -/
def fillDigits (base : Nat) (digit : Nat → α) : (free : Nat) → (value : Nat) →
    FixedBuffer α capacity → Option (Nat × FixedBuffer α capacity)
  | 0, value, buffer => if value = 0 then some (0, buffer) else none
  | free + 1, value, buffer =>
      if value = 0 then some (free + 1, buffer)
      else
        match buffer.store free [digit (value % base)] with
        | none => none
        | some buffer => fillDigits base digit free (value / base) buffer

theorem load_behind {buffer next : FixedBuffer α capacity} {index : Nat} {value : α}
    (hstore : buffer.store index [value] = some next) :
    next.load index (capacity - index) =
      value :: buffer.load (index + 1) (capacity - (index + 1)) := by
  have hsize := buffer.size
  rw [FixedBuffer.store] at hstore
  split at hstore
  · next hroom =>
      rw [List.length_singleton] at hroom
      have hfront : (buffer.cells.take index).length = index := by
        rw [List.length_take]
        omega
      obtain ⟨count, hcount⟩ : ∃ count, capacity - index = count + 1 :=
        ⟨capacity - (index + 1), by omega⟩
      have hrest : capacity - (index + 1) = count := by omega
      cases hstore
      dsimp only [FixedBuffer.load]
      rw [List.append_assoc, List.drop_left' hfront, hcount, hrest, List.length_singleton,
        List.singleton_append, List.take_succ_cons]
  · cases hstore

/-- Behind the loop the digits stand in front of what was there. -/
theorem fillDigits_load {base : Nat} (hbase : 1 < base) (digit : Nat → α) {free value : Nat}
    (hfree : free ≤ capacity) (hvalue : value < base ^ free)
    (buffer : FixedBuffer α capacity) :
    ∃ left next, fillDigits base digit free value buffer = some (left, next) ∧
      next.load left (capacity - left) =
        (Nat.digits base value).reverse.map digit ++ buffer.load free (capacity - free) := by
  induction free generalizing value buffer with
  | zero =>
      have hzero : value = 0 := by
        rw [Nat.pow_zero] at hvalue
        omega
      rw [fillDigits, if_pos hzero, hzero, Nat.digits_zero]
      exact ⟨0, buffer, rfl, rfl⟩
  | succ free ih =>
      rw [fillDigits]
      by_cases hzero : value = 0
      · rw [if_pos hzero, hzero, Nat.digits_zero]
        exact ⟨free + 1, buffer, rfl, rfl⟩
      · have hroom : free + [digit (value % base)].length ≤ capacity := hfree
        obtain ⟨stored, hstore, _⟩ := buffer.exists_store hroom
        have hless : value / base < base ^ free := by
          rw [Nat.div_lt_iff_lt_mul (by omega), ← Nat.pow_succ]
          exact hvalue
        obtain ⟨left, next, hfill, hload⟩ := ih (by omega) hless stored
        rw [if_neg hzero, hstore]
        have hdigits := Nat.digits_def' hbase (Nat.pos_of_ne_zero hzero)
        refine ⟨left, next, hfill, ?_⟩
        rw [hload, load_behind hstore, hdigits, List.reverse_cons, List.map_append,
          List.append_assoc]
        rfl

end Digits

end Hitrace.Library
