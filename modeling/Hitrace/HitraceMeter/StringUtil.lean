import Hitrace.HitraceMeter.TraceMarker
import Hitrace.Library.BoundedWriter
import Hitrace.Library.Positional

namespace Hitrace.MarkerRecord

open Library AppTrace HitraceMeter

/-! `StringUtil` of `hitrace_meter.cpp`: texts and numbers behind the pointer `dst` of an array
that ends at `end`. -/

variable {capacity : Nat}

/-- With nothing to copy `memcpy_s` reports an error, and the pointer stays too. -/
def addStringToBuffer (src : List UInt8) (dst : BoundedWriter UInt8 capacity) :
    Option (BoundedWriter UInt8 capacity) :=
  let buffSize := capacity - dst.offset
  let copySize := if src.length ≤ buffSize then src.length else buffSize
  dst.write (src.take copySize)

def addCharToBuffer (value : Char) (dst : BoundedWriter UInt8 capacity) :
    Option (BoundedWriter UInt8 capacity) :=
  if dst.offset < capacity then dst.write [UInt8.ofNat value.toNat] else some dst

/-- The local array `buff[maxLength]` is filled from its end. -/
def addDigits (maxLength base value : Nat) (dst : BoundedWriter UInt8 capacity) :
    Option (BoundedWriter UInt8 capacity) :=
  let buff : FixedBuffer UInt8 maxLength :=
    ⟨List.replicate maxLength 0, List.length_replicate⟩
  match fillDigits base numToChar maxLength value buff with
  | none => none
  | some (free, buff) => addStringToBuffer (buff.load free (maxLength - free)) dst

def addUInt64HexValueToBuffer (value : UInt64) :
    BoundedWriter UInt8 capacity → Option (BoundedWriter UInt8 capacity) :=
  if value = 0 then addCharToBuffer '0' else addDigits 16 16 value.toNat

def addUInt32DecValueToBuffer (value : UInt32) :
    BoundedWriter UInt8 capacity → Option (BoundedWriter UInt8 capacity) :=
  if value = 0 then addCharToBuffer '0' else addDigits 10 10 value.toNat

/-- `INT64_MIN` has no opposite and is left to the cast. -/
def unsignedValue (value : Int64) : UInt64 :=
  if value < 0 ∧ value ≠ Int64.minValue then (-value).toUInt64 else value.toUInt64

def addInt64DecValue (value : Int64) :
    BoundedWriter UInt8 capacity → Option (BoundedWriter UInt8 capacity) :=
  if value = 0 then addCharToBuffer '0'
  else
    (if value < 0 then addCharToBuffer '-' else some) >=>
      addDigits 20 10 (unsignedValue value).toNat

/-! What each call puts behind the pointer. -/

open BoundedWriter

theorem puts_string (src : List UInt8) :
    Puts (addStringToBuffer src : BoundedWriter UInt8 capacity → _) src := by
  intro dst hoffset
  have htake : addStringToBuffer src dst =
      dst.write (src.take (capacity - dst.offset)) := by
    rw [addStringToBuffer]
    split
    · next hfits => rw [List.take_length, List.take_of_length_le hfits]
    · rfl
  rw [htake]
  exact exists_gets_write hoffset src

theorem puts_char (value : Char) :
    Puts (addCharToBuffer value : BoundedWriter UInt8 capacity → _)
      [UInt8.ofNat value.toNat] := by
  intro dst hoffset
  rw [addCharToBuffer]
  split
  · next hroom =>
      have hwrite := exists_gets_write hoffset [UInt8.ofNat value.toNat]
      rwa [List.take_of_length_le (by rw [List.length_singleton]; omega)] at hwrite
  · next hfull =>
      have hnone : capacity - dst.offset = 0 := by omega
      refine ⟨dst, rfl, ?_, ?_⟩
      · rw [hnone, Nat.min_zero, Nat.add_zero]
      · rw [hnone, List.take_zero, List.append_nil, List.take_append_drop]

/-- The digits never reach past the front of the local array. -/
theorem puts_digits {maxLength base value : Nat} (hbase : 1 < base)
    (hroom : value < base ^ maxLength) :
    Puts (addDigits maxLength base value : BoundedWriter UInt8 capacity → _)
      ((Nat.digits base value).reverse.map numToChar) := by
  intro dst hoffset
  obtain ⟨free, buff, hfill, hload⟩ := fillDigits_load hbase numToChar (Nat.le_refl maxLength)
    hroom ⟨List.replicate maxLength 0, List.length_replicate⟩
  rw [Nat.sub_self, FixedBuffer.load_zero, List.append_nil] at hload
  have hdigits : addDigits maxLength base value dst =
      addStringToBuffer ((Nat.digits base value).reverse.map numToChar) dst := by
    rw [addDigits, hfill]
    dsimp only
    rw [hload]
  rw [hdigits]
  exact puts_string _ dst hoffset

theorem numToChar_eq {digit : Nat} (hdigit : digit < 16) :
    numToChar digit = UInt8.ofNat (Nat.digitChar digit).toNat := by
  decide +revert

theorem map_numToChar {digits : List Nat} (hdigits : ∀ digit ∈ digits, digit < 16) :
    digits.map numToChar = digits.map fun digit => UInt8.ofNat (Nat.digitChar digit).toNat := by
  apply List.map_congr_left
  intro digit hdigit
  exact numToChar_eq (hdigits digit hdigit)

theorem toNat_toUInt64 (value : Int64) :
    (value.toUInt64.toNat : Int) = value.toInt % 2 ^ 64 := by
  have hmod := BitVec.toInt_eq_toNat_bmod value.toBitVec
  have hless := value.toUInt64.toNat_lt
  rw [Int64.toNat_toBitVec, Int64.toInt_toBitVec] at hmod
  rw [Int.bmod_def] at hmod
  omega

theorem toNat_unsignedValue (value : Int64) :
    (unsignedValue value).toNat = value.toInt.natAbs := by
  have hlow := value.le_toInt
  have hhigh := value.toInt_lt
  have hsign : value < 0 ↔ value.toInt < 0 := Int64.lt_iff_toInt_lt
  have hmin : value = Int64.minValue ↔ value.toInt = -2 ^ 63 := Int64.toInt_inj.symm
  have hsame := toNat_toUInt64 value
  have hopposite := toNat_toUInt64 (-value)
  rw [Int64.toInt_neg] at hopposite
  simp only [unsignedValue, hsign, hmin, ne_eq]
  split
  · next hneg =>
      rw [Int.bmod_eq_of_le (by omega) (by omega)] at hopposite
      omega
  · omega

/-! The numerals. -/

/-- The call puts the one numeral of the value, in lower case, behind `front`. -/
def Encodes (base value : Nat) (front : List UInt8)
    (call : BoundedWriter UInt8 capacity → Option (BoundedWriter UInt8 capacity)) : Prop :=
  ∃ digits, IsNumeral base value digits ∧
    (∀ other, IsNumeral base value other → other = digits) ∧
    Puts call (front ++ digits.map fun digit => UInt8.ofNat (Nat.digitChar digit).toNat)

theorem encodes_zero {base : Nat} (hbase : 1 < base) :
    Encodes base 0 [] (addCharToBuffer '0' : BoundedWriter UInt8 capacity → _) := by
  refine ⟨[0], .zero (by omega), ?_, puts_char '0'⟩
  intro other hother
  exact hother.unique hbase

theorem encodes_digits {maxLength base value : Nat} (hbase : 1 < base) (hsmall : base ≤ 16)
    (hvalue : value ≠ 0) (hroom : value < base ^ maxLength) :
    Encodes base value []
      (addDigits maxLength base value : BoundedWriter UInt8 capacity → _) := by
  refine ⟨(Nat.digits base value).reverse, .of_ne_zero hbase hvalue, ?_, ?_⟩
  · intro other hother
    rw [hother.unique hbase, if_neg hvalue]
  · have hsmaller : ∀ digit ∈ (Nat.digits base value).reverse, digit < 16 := by
      intro digit hdigit
      have hless := Nat.digits_lt_base hbase (List.mem_reverse.mp hdigit)
      exact Nat.lt_of_lt_of_le hless hsmall
    rw [List.nil_append, ← map_numToChar hsmaller]
    exact puts_digits hbase hroom

section Sign

variable {base value : Nat} {front : List UInt8}
  {sign call : BoundedWriter UInt8 capacity → Option (BoundedWriter UInt8 capacity)}

theorem Encodes.behind (hsign : Puts sign front) (hcall : Encodes base value [] call) :
    Encodes base value front (sign >=> call) := by
  obtain ⟨digits, hdigits, hunique, hputs⟩ := hcall
  exact ⟨digits, hdigits, hunique, hsign.comp hputs⟩

theorem puts_sign (value : Int64) :
    Puts (if value < 0 then addCharToBuffer '-' else some :
        BoundedWriter UInt8 capacity → Option (BoundedWriter UInt8 capacity))
      (if value < 0 then bytesOf "-" else []) := by
  split
  · exact puts_char '-'
  · exact puts_some

end Sign

theorem encodes_uint64 (value : UInt64) :
    Encodes 16 value.toNat []
      (addUInt64HexValueToBuffer value : BoundedWriter UInt8 capacity → _) := by
  rw [addUInt64HexValueToBuffer]
  split
  · next hzero =>
      rw [hzero]
      exact encodes_zero (by decide)
  · next hzero =>
      have hbound : value.toNat < 16 ^ 16 := value.toNat_lt
      apply encodes_digits (by decide) (by decide) _ hbound
      intro hnone
      exact hzero (UInt64.toNat_inj.mp hnone)

theorem encodes_uint32 (value : UInt32) :
    Encodes 10 value.toNat []
      (addUInt32DecValueToBuffer value : BoundedWriter UInt8 capacity → _) := by
  rw [addUInt32DecValueToBuffer]
  split
  · next hzero =>
      rw [hzero]
      exact encodes_zero (by decide)
  · next hzero =>
      have hbound := value.toNat_lt
      apply encodes_digits (by decide) (by decide) _ (by omega)
      intro hnone
      exact hzero (UInt32.toNat_inj.mp hnone)

/-- The absolute value of the least number fits the unsigned cast. -/
theorem encodes_int64 (value : Int64) :
    Encodes 10 value.toInt.natAbs (if value < 0 then bytesOf "-" else [])
      (addInt64DecValue value : BoundedWriter UInt8 capacity → _) := by
  by_cases hzero : value = 0
  · rw [addInt64DecValue, if_pos hzero, hzero]
    exact encodes_zero (by decide)
  · have hunsigned := toNat_unsignedValue value
    have hless := (unsignedValue value).toNat_lt
    have hne : value.toInt ≠ 0 := fun hnone => hzero (Int64.toInt_inj.mp hnone)
    rw [addInt64DecValue, if_neg hzero, ← hunsigned]
    apply Encodes.behind (puts_sign value)
    exact encodes_digits (by decide) (by decide) (by omega) (by omega)

/-- For every array and every place in it, an encoder appends the numeral of its value, as
much of it as there is room for, and nothing else. -/
theorem number_encoders_append_numerals (capacity : Nat) :
    (∀ value : UInt64, Encodes 16 value.toNat []
      (addUInt64HexValueToBuffer value : BoundedWriter UInt8 capacity → _)) ∧
    (∀ value : UInt32, Encodes 10 value.toNat []
      (addUInt32DecValueToBuffer value : BoundedWriter UInt8 capacity → _)) ∧
    ∀ value : Int64, Encodes 10 value.toInt.natAbs (if value < 0 then bytesOf "-" else [])
      (addInt64DecValue value : BoundedWriter UInt8 capacity → _) :=
  ⟨encodes_uint64, encodes_uint32, encodes_int64⟩

/-- Four bytes for `INT64_MIN`. -/
example : (addInt64DecValue Int64.minValue
    (⟨⟨List.replicate 5 0, rfl⟩, 1⟩ : BoundedWriter UInt8 5)).map (fun dst => dst.buffer.cells) =
      some [0, 45, 57, 50, 50] := by
  decide

end Hitrace.MarkerRecord
