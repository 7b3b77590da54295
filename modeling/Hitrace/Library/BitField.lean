import Hitrace.Library.LittleEndian
import Mathlib.Algebra.BigOperators.Group.List.Basic

namespace Hitrace.Library

/-! Words that are divided into bit-fields.  A field is its width and its value, and the
first of a list takes the lowest bits. -/

namespace BitField

def pack : List (Nat × Nat) → Nat
  | [] => 0
  | (width, value) :: rest => value % 2 ^ width + 2 ^ width * pack rest

def unpack : List Nat → Nat → List Nat
  | [], _ => []
  | width :: rest, word => word % 2 ^ width :: unpack rest (word / 2 ^ width)

theorem pack_lt (fields : List (Nat × Nat)) :
    pack fields < 2 ^ (fields.map Prod.fst).sum := by
  induction fields with
  | nil => exact Nat.one_pos
  | cons field rest ih =>
      obtain ⟨width, value⟩ := field
      have hvalue := Nat.mod_lt value (Nat.two_pow_pos width)
      rw [pack, List.map_cons, List.sum_cons, Nat.pow_add]
      calc value % 2 ^ width + 2 ^ width * pack rest
          < 2 ^ width + 2 ^ width * pack rest := by omega
        _ = 2 ^ width * (pack rest + 1) := by rw [Nat.mul_succ, Nat.add_comm]
        _ ≤ 2 ^ width * 2 ^ (rest.map Prod.fst).sum := Nat.mul_le_mul_left _ ih

end BitField

/-! Machines. -/

inductive ByteOrder
  | little
  | big
deriving Repr, DecidableEq

namespace ByteOrder

variable (order : ByteOrder)

/-- The fields of a storage unit in the order of their places: the first declared field
has the lowest bits of a little-endian unit and the highest of a big-endian one. -/
def places {α : Type} (declared : List α) : List α :=
  match order with
  | .little => declared
  | .big => declared.reverse

/-- The value of a storage unit with these fields. -/
def unit (declared : List (Nat × Nat)) : Nat :=
  BitField.pack (order.places declared)

def field (widths : List Nat) (word index : Nat) : Nat :=
  (order.places (BitField.unpack (order.places widths) word)).getD index 0

def store (width word : Nat) : List UInt8 :=
  order.places (LittleEndian.encode width word)

def load (bytes : List UInt8) : Nat :=
  LittleEndian.decode (order.places bytes)

/-- The conversion to big-endian and back. -/
def swap (width word : Nat) : Nat :=
  match order with
  | .little => LittleEndian.decode (LittleEndian.encode width word).reverse
  | .big => word

/-- What a machine stores after the conversion does not depend on its byte order. -/
theorem store_swap (width word : Nat) :
    order.store width (order.swap width word) = (LittleEndian.encode width word).reverse := by
  cases order with
  | little =>
      have hlength : (LittleEndian.encode width word).reverse.length = width := by
        rw [List.length_reverse, LittleEndian.length_encode]
      have hencode := LittleEndian.encode_decode (LittleEndian.encode width word).reverse
      rw [hlength] at hencode
      exact hencode
  | big => rfl

theorem swap_load (bytes : List UInt8) :
    order.swap bytes.length (order.load bytes) = LittleEndian.decode bytes.reverse := by
  cases order with
  | little =>
      have hencode : LittleEndian.encode bytes.length (LittleEndian.decode bytes) = bytes :=
        LittleEndian.encode_decode bytes
      exact congrArg (fun stored : List UInt8 => LittleEndian.decode stored.reverse) hencode
  | big => rfl

end ByteOrder

end Hitrace.Library
