import Hitrace.Define
import Hitrace.Library.BitField

namespace Hitrace

open Library

/-! The identifiers of a call chain, from `hitracechainc.h`. -/

def hitraceIdInvalid : BitVec 1 := 0

def hitraceIdValid : BitVec 1 := 1

def hitraceVer1 : BitVec 3 := 0

def hitraceFlagMin : Int := 0

def hitraceFlagMax : Int := 2 ^ 7 - 1

def hitraceFlagDonotCreateSpan : BitVec 12 := 1 <<< 1

structure HiTraceIdStruct where
  valid : BitVec 1 := 0
  ver : BitVec 3 := 0
  chainId : BitVec 60 := 0
  flags : BitVec 12 := 0
  spanId : BitVec 26 := 0
  parentSpanId : BitVec 26 := 0
deriving Repr, DecidableEq

def hitraceIdLen : Int := 16

namespace HiTraceIdStruct

def initId : HiTraceIdStruct where
  valid := hitraceIdInvalid
  ver := 0
  chainId := 0
  flags := 0
  spanId := 0
  parentSpanId := 0

/-- `HiTraceChainIsValid` of an id that is there. -/
def isValid (id : HiTraceIdStruct) : Bool :=
  id.valid == hitraceIdValid

def isFlagEnabled (id : HiTraceIdStruct) (flag : BitVec 12) : Bool :=
  id.isValid && id.flags &&& flag != 0

def getChainId (id : HiTraceIdStruct) : BitVec 60 :=
  if id.isValid then id.chainId else 0

/-! The two storage units of an id, declared for each byte order. -/

def firstUnit (order : ByteOrder) (id : HiTraceIdStruct) : List (Nat × Nat) :=
  match order with
  | .little => [(1, id.valid.toNat), (3, id.ver.toNat), (60, id.chainId.toNat)]
  | .big => [(60, id.chainId.toNat), (3, id.ver.toNat), (1, id.valid.toNat)]

def secondUnit (order : ByteOrder) (id : HiTraceIdStruct) : List (Nat × Nat) :=
  match order with
  | .little => [(12, id.flags.toNat), (26, id.spanId.toNat), (26, id.parentSpanId.toNat)]
  | .big => [(26, id.parentSpanId.toNat), (26, id.spanId.toNat), (12, id.flags.toNat)]

def ofUnits (order : ByteOrder) (first second : Nat) : HiTraceIdStruct :=
  match order with
  | .little =>
      { valid := .ofNat 1 (order.field [1, 3, 60] first 0)
        ver := .ofNat 3 (order.field [1, 3, 60] first 1)
        chainId := .ofNat 60 (order.field [1, 3, 60] first 2)
        flags := .ofNat 12 (order.field [12, 26, 26] second 0)
        spanId := .ofNat 26 (order.field [12, 26, 26] second 1)
        parentSpanId := .ofNat 26 (order.field [12, 26, 26] second 2) }
  | .big =>
      { chainId := .ofNat 60 (order.field [60, 3, 1] first 0)
        ver := .ofNat 3 (order.field [60, 3, 1] first 1)
        valid := .ofNat 1 (order.field [60, 3, 1] first 2)
        parentSpanId := .ofNat 26 (order.field [26, 26, 12] second 0)
        spanId := .ofNat 26 (order.field [26, 26, 12] second 1)
        flags := .ofNat 12 (order.field [26, 26, 12] second 2) }

end HiTraceIdStruct

/-- `HiTraceChainIdToBytes`: what it returns and the array behind the call.  A null
pointer is no id. -/
def hiTraceChainIdToBytes (order : ByteOrder) (id : Option HiTraceIdStruct)
    (idArray : List UInt8) (len : Int) : Int × List UInt8 :=
  match id with
  | none => (0, idArray)
  | some id =>
      if !id.isValid || len < hitraceIdLen then (0, idArray)
      else
        (hitraceIdLen,
          order.store 8 (order.swap 8 (order.unit (id.firstUnit order))) ++
            order.store 8 (order.swap 8 (order.unit (id.secondUnit order))) ++
            idArray.drop 16)

def hiTraceChainBytesToId (order : ByteOrder) (idArray : Option (List UInt8)) (len : Int) :
    HiTraceIdStruct :=
  match idArray with
  | none => .initId
  | some idArray =>
      if len ≠ hitraceIdLen then .initId
      else
        .ofUnits order (order.swap 8 (order.load (idArray.take 8)))
          (order.swap 8 (order.load ((idArray.drop 8).take 8)))

/-! The byte order of the machine does not matter. -/

theorem ofNat_mod_two_pow (width value : Nat) :
    BitVec.ofNat width (value % 2 ^ width) = BitVec.ofNat width value := by
  apply BitVec.eq_of_toNat_eq
  rw [BitVec.toNat_ofNat, BitVec.toNat_ofNat, Nat.mod_mod]

namespace HiTraceIdStruct

/-- The units as numbers, the field in the lowest bits first. -/
def units (id : HiTraceIdStruct) : Nat × Nat :=
  (BitField.pack [(1, id.valid.toNat), (3, id.ver.toNat), (60, id.chainId.toNat)],
    BitField.pack
      [(12, id.flags.toNat), (26, id.spanId.toNat), (26, id.parentSpanId.toNat)])

variable (order : ByteOrder) (id : HiTraceIdStruct)

theorem unit_firstUnit : order.unit (id.firstUnit order) = id.units.1 := by
  cases order <;> rfl

theorem unit_secondUnit : order.unit (id.secondUnit order) = id.units.2 := by
  cases order <;> rfl

theorem ofUnits_eq (first second : Nat) :
    ofUnits order first second =
      { valid := .ofNat 1 first
        ver := .ofNat 3 (first / 2 ^ 1)
        chainId := .ofNat 60 (first / 2 ^ 1 / 2 ^ 3)
        flags := .ofNat 12 second
        spanId := .ofNat 26 (second / 2 ^ 12)
        parentSpanId := .ofNat 26 (second / 2 ^ 12 / 2 ^ 26) } := by
  cases order <;>
    simp only [ofUnits, ByteOrder.field, ByteOrder.places, BitField.unpack,
      List.reverse_cons, List.reverse_nil, List.nil_append, List.cons_append,
      List.getD_cons_zero, List.getD_cons_succ, ofNat_mod_two_pow]

theorem units_lt : id.units.1 < 2 ^ 64 ∧ id.units.2 < 2 ^ 64 :=
  ⟨BitField.pack_lt _, BitField.pack_lt _⟩

theorem ofUnits_units : ofUnits order id.units.1 id.units.2 = id := by
  have hvalid := id.valid.isLt
  have hver := id.ver.isLt
  have hchainId := id.chainId.isLt
  have hflags := id.flags.isLt
  have hspanId := id.spanId.isLt
  have hparentSpanId := id.parentSpanId.isLt
  obtain ⟨valid, ver, chainId, flags, spanId, parentSpanId⟩ := id
  rw [ofUnits_eq]
  simp only [units, BitField.pack, HiTraceIdStruct.mk.injEq] at *
  refine ⟨?_, ?_, ?_, ?_, ?_, ?_⟩ <;>
    apply BitVec.eq_of_toNat_eq <;> rw [BitVec.toNat_ofNat] <;> omega

theorem units_ofUnits {first second : Nat} (hfirst : first < 2 ^ 64)
    (hsecond : second < 2 ^ 64) : (ofUnits order first second).units = (first, second) := by
  rw [ofUnits_eq]
  simp only [units, BitField.pack, BitVec.toNat_ofNat, Prod.mk.injEq]
  omega

end HiTraceIdStruct

/-- The bytes of an id on the wire. -/
def HiTraceIdStruct.wire (id : HiTraceIdStruct) : List UInt8 :=
  (LittleEndian.encode 8 id.units.1).reverse ++ (LittleEndian.encode 8 id.units.2).reverse

theorem hiTraceChainIdToBytes_valid (order : ByteOrder) {id : HiTraceIdStruct}
    (hvalid : id.isValid = true) {idArray : List UInt8} (hlength : idArray.length = 16) :
    hiTraceChainIdToBytes order (some id) idArray 16 = (16, id.wire) := by
  have hrest : idArray.drop 16 = [] := List.drop_of_length_le (Nat.le_of_eq hlength)
  rw [hiTraceChainIdToBytes, hvalid, if_neg (by decide), id.unit_firstUnit,
    id.unit_secondUnit, hrest, List.append_nil, order.store_swap, order.store_swap]
  rfl

theorem hiTraceChainBytesToId_eq (order : ByteOrder) {idArray : List UInt8}
    (hlength : idArray.length = 16) :
    hiTraceChainBytesToId order (some idArray) 16 =
      .ofUnits order (LittleEndian.decode (idArray.take 8).reverse)
        (LittleEndian.decode (idArray.drop 8).reverse) := by
  have hfirst : (idArray.take 8).length = 8 := by
    rw [List.length_take, hlength]
    rfl
  have hsecond : (idArray.drop 8).length = 8 := by
    rw [List.length_drop, hlength]
  have hswapFirst := order.swap_load (idArray.take 8)
  have hswapSecond := order.swap_load (idArray.drop 8)
  rw [hfirst] at hswapFirst
  rw [hsecond] at hswapSecond
  rw [hiTraceChainBytesToId, if_neg (by decide), hswapFirst,
    List.take_of_length_le (Nat.le_of_eq hsecond), hswapSecond]

namespace HiTraceIdStruct

variable (id : HiTraceIdStruct)

theorem length_encode_reverse (word : Nat) :
    (LittleEndian.encode 8 word).reverse.length = 8 := by
  rw [List.length_reverse, LittleEndian.length_encode]

theorem length_wire : id.wire.length = 16 := by
  rw [wire, List.length_append, length_encode_reverse, length_encode_reverse]

theorem take_wire : id.wire.take 8 = (LittleEndian.encode 8 id.units.1).reverse :=
  List.take_left' (length_encode_reverse _)

theorem drop_wire : id.wire.drop 8 = (LittleEndian.encode 8 id.units.2).reverse :=
  List.drop_left' (length_encode_reverse _)

theorem wire_ofUnits (order : ByteOrder) {idArray : List UInt8}
    (hlength : idArray.length = 16) :
    (ofUnits order (LittleEndian.decode (idArray.take 8).reverse)
      (LittleEndian.decode (idArray.drop 8).reverse)).wire = idArray := by
  have hfirst : (idArray.take 8).reverse.length = 8 := by
    rw [List.length_reverse, List.length_take, hlength]
    rfl
  have hsecond : (idArray.drop 8).reverse.length = 8 := by
    rw [List.length_reverse, List.length_drop, hlength]
  have hfirstLt := LittleEndian.decode_lt (idArray.take 8).reverse
  have hsecondLt := LittleEndian.decode_lt (idArray.drop 8).reverse
  have hfirstEncode := LittleEndian.encode_decode (idArray.take 8).reverse
  have hsecondEncode := LittleEndian.encode_decode (idArray.drop 8).reverse
  rw [hfirst] at hfirstLt hfirstEncode
  rw [hsecond] at hsecondLt hsecondEncode
  rw [wire, units_ofUnits order hfirstLt hsecondLt, hfirstEncode, hsecondEncode,
    List.reverse_reverse, List.reverse_reverse, List.take_append_drop]

end HiTraceIdStruct

theorem hiTraceChainBytesToId_wire (order : ByteOrder) (id : HiTraceIdStruct) :
    hiTraceChainBytesToId order (some id.wire) 16 = id := by
  rw [hiTraceChainBytesToId_eq order id.length_wire, id.take_wire, id.drop_wire,
    List.reverse_reverse, List.reverse_reverse,
    LittleEndian.decode_encode 8 id.units_lt.1, LittleEndian.decode_encode 8 id.units_lt.2,
    id.ofUnits_units]

/-- An id comes back from its bytes, on the same machine or on one of the other byte
order, and the bytes come back from a valid id. -/
theorem hiTraceId_wire_format :
    (∀ (writer reader : ByteOrder) (id : HiTraceIdStruct) (idArray : List UInt8),
        id.isValid = true → idArray.length = 16 →
          (hiTraceChainIdToBytes writer (some id) idArray 16).1 = 16 ∧
            hiTraceChainBytesToId reader
              (some (hiTraceChainIdToBytes writer (some id) idArray 16).2) 16 = id) ∧
      ∀ (order : ByteOrder) (idArray target : List UInt8),
        idArray.length = 16 → target.length = 16 →
          (hiTraceChainBytesToId order (some idArray) 16).valid = hitraceIdValid →
            (hiTraceChainIdToBytes order
              (some (hiTraceChainBytesToId order (some idArray) 16)) target 16).2 =
                idArray := by
  constructor
  · intro writer reader id idArray hvalid hlength
    rw [hiTraceChainIdToBytes_valid writer hvalid hlength]
    exact ⟨rfl, hiTraceChainBytesToId_wire reader id⟩
  · intro order idArray target hlength htarget hvalid
    rw [hiTraceChainIdToBytes_valid order (beq_iff_eq.mpr hvalid) htarget,
      hiTraceChainBytesToId_eq order hlength]
    exact HiTraceIdStruct.wire_ofUnits order hlength

theorem hiTraceId_wire_format_one_id :
    (hiTraceChainBytesToId .big
      (some (hiTraceChainIdToBytes .little
        (some { valid := 1, chainId := 0xabcdef, flags := 1, spanId := 5, parentSpanId := 6 })
        (List.replicate 16 0) 16).2) 16).chainId = 0xabcdef := by
  have hwire := hiTraceId_wire_format.1 .little .big
    { valid := 1, chainId := 0xabcdef, flags := 1, spanId := 5, parentSpanId := 6 }
    (List.replicate 16 0) rfl rfl
  rw [hwire.2]

end Hitrace
