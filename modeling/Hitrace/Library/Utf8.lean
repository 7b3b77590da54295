import Mathlib.Data.List.Basic
import Mathlib.Tactic.Common

namespace Hitrace.Library

/-! UTF-8, with a decoder that leaves out what is not well formed. -/

namespace Utf8

def encode (text : List Char) : List UInt8 :=
  text.flatMap String.utf8EncodeChar

def isContinuation (byte : UInt8) : Bool :=
  0x80 ≤ byte && byte < 0xc0

/-- A character of `count` continuation bytes behind a first byte with the bits
`lead`; a value below `lowest` has a shorter form. -/
def sequence (count lowest lead : Nat) (rest : List UInt8) : Option (Char × List UInt8) :=
  let tail := rest.take count
  let value := tail.foldl (fun value byte => 64 * value + (byte.toNat - 0x80)) lead
  if tail.length = count ∧ tail.all isContinuation ∧ lowest ≤ value ∧ value.isValidChar then
    some (Char.ofNat value, rest.drop count)
  else none

/-- The character at the front and what follows it. -/
def frontChar : List UInt8 → Option (Char × List UInt8)
  | [] => none
  | first :: rest =>
      if first < 0x80 then some (Char.ofNat first.toNat, rest)
      else if first < 0xc0 then none
      else if first < 0xe0 then sequence 1 0x80 (first.toNat - 0xc0) rest
      else if first < 0xf0 then sequence 2 0x800 (first.toNat - 0xe0) rest
      else if first < 0xf8 then sequence 3 0x10000 (first.toNat - 0xf0) rest
      else none

/-- A byte that starts no character is left out. Each turn takes a byte at least. -/
def decodeTurns : Nat → List UInt8 → List Char
  | 0, _ => []
  | turns + 1, bytes =>
      match frontChar bytes with
      | some (char, rest) => char :: decodeTurns turns rest
      | none => decodeTurns turns bytes.tail

def decode (bytes : List UInt8) : List Char :=
  decodeTurns bytes.length bytes

@[simp] theorem decode_nil : decode [] = [] := rfl

theorem sequence_nil {count lowest lead : Nat} (hcount : 0 < count) :
    sequence count lowest lead [] = none := by
  have hne : 0 ≠ count := by omega
  simp [sequence, hne]

section Byte

variable {byte : UInt8}

theorem decode_ascii (hascii : byte < 0x80) : decode [byte] = [Char.ofNat byte.toNat] := by
  simp [decode, decodeTurns, frontChar, hascii]

/-- A byte past ASCII is no character by itself. -/
theorem decode_not_ascii (hbyte : ¬ byte < 0x80) : decode [byte] = [] := by
  have hfront : frontChar [byte] = none := by
    simp only [frontChar, hbyte, if_false, sequence_nil Nat.one_pos,
      sequence_nil (Nat.succ_pos 1), sequence_nil (Nat.succ_pos 2), ite_self]
  simp [decode, decodeTurns, hfront]

theorem encode_ascii (hascii : byte < 0x80) : encode [Char.ofNat byte.toNat] = [byte] := by
  have hsmall : byte.toNat < 128 := UInt8.lt_iff_toNat_lt.mp hascii
  have hvalid : byte.toNat.isValidChar := Or.inl (by omega)
  have hval : (Char.ofNat byte.toNat).val.toNat = byte.toNat := by
    rw [Char.ofNat, dif_pos hvalid]
    rfl
  have hle : byte.toNat ≤ 127 := by omega
  simp [encode, String.utf8EncodeChar, hval, hle]

end Byte

end Utf8

end Hitrace.Library
