import Mathlib.Data.List.Basic
import Mathlib.Algebra.Ring.Nat
import Mathlib.Tactic.Common

namespace Hitrace.Library

/-! Unsigned integers as little-endian bytes. -/

namespace LittleEndian

def encode : Nat → Nat → List UInt8
  | 0, _ => []
  | width + 1, value => UInt8.ofNat value :: encode width (value / 256)

def decode : List UInt8 → Nat
  | [] => 0
  | byte :: rest => byte.toNat + 256 * decode rest

@[simp] theorem length_encode (width value : Nat) :
    (encode width value).length = width := by
  induction width generalizing value with
  | zero => rfl
  | succ width ih => rw [encode, List.length_cons, ih]

theorem decode_encode (width : Nat) {value : Nat} (hvalue : value < 256 ^ width) :
    decode (encode width value) = value := by
  induction width generalizing value with
  | zero =>
      have hzero : value = 0 := by
        rw [Nat.pow_zero] at hvalue
        omega
      rw [hzero]
      rfl
  | succ width ih =>
      have hquot : value / 256 < 256 ^ width := by
        rw [Nat.pow_succ] at hvalue
        exact Nat.div_lt_of_lt_mul (by omega)
      rw [encode, decode, ih hquot, UInt8.toNat_ofNat']
      omega

theorem decode_lt (bytes : List UInt8) : decode bytes < 256 ^ bytes.length := by
  induction bytes with
  | nil => exact Nat.one_pos
  | cons byte rest ih =>
      have hbyte := byte.toNat_lt
      rw [decode, List.length_cons, Nat.pow_succ]
      omega

theorem encode_decode (bytes : List UInt8) : encode bytes.length (decode bytes) = bytes := by
  induction bytes with
  | nil => rfl
  | cons byte rest ih =>
      have hbyte := byte.toNat_lt
      have hlow : UInt8.ofNat (byte.toNat + 256 * decode rest) = byte := by
        apply UInt8.toNat_inj.mp
        rw [UInt8.toNat_ofNat']
        omega
      have hhigh : (byte.toNat + 256 * decode rest) / 256 = decode rest := by omega
      rw [decode, List.length_cons, encode, hlow, hhigh, ih]

end LittleEndian

end Hitrace.Library
