import Hitrace.HitraceChain.HiTraceId

namespace Hitrace

open Library

/-! The chain id of a thread and the calls on it, from `hitracechainc.c`. -/

structure Timeval where
  tvSec : Int
  tvUsec : Nat
  usec_lt : tvUsec < 10 ^ 6
deriving Repr, DecidableEq

/-- What C leaves to the machine: the byte order and the sign of a plain `char`. -/
structure Platform where
  order : ByteOrder
  charSigned : Bool
deriving Repr, DecidableEq

namespace HiTraceChainIdStruct

/-- The fields that `HiTraceChainCreateChainId` sets, declared for each byte order. -/
def declared (order : ByteOrder) (reserved usecond second cpuId deviceId : Nat) :
    List (Nat × Nat) :=
  match order with
  | .little => [(4, reserved), (20, usecond), (16, second), (4, cpuId), (20, deviceId)]
  | .big => [(20, deviceId), (4, cpuId), (16, second), (20, usecond), (4, reserved)]

/-- The field that lies over them. -/
def chainId (order : ByteOrder) (unit : Nat) : Nat :=
  match order with
  | .little => order.field [4, 60] unit 1
  | .big => order.field [60, 4] unit 0

end HiTraceChainIdStruct

/-- What `HiTraceChainCreateChainId` gets from the clock and from the two statics. -/
structure ChainIdSource where
  tv : Timeval
  deviceId : Int
  cpuId : BitVec 32
deriving Repr, DecidableEq

def hiTraceChainCreateChainId (order : ByteOrder) (source : ChainIdSource) : Nat :=
  HiTraceChainIdStruct.chainId order
    (order.unit (HiTraceChainIdStruct.declared order 0 source.tv.tvUsec
      (toUint64 source.tv.tvSec) source.cpuId.toNat (toUint64 source.deviceId)))

/-- `HashFunc`, the BKDR hash, over the bytes of its data. -/
def hashFunc (charSigned : Bool) (data : List UInt8) : BitVec 32 :=
  data.foldl (fun hash byte =>
    hash * 131 +
      if charSigned then byte.toBitVec.signExtend 32 else byte.toBitVec.setWidth 32) 0

namespace HiTraceIdStruct

/-- `HiTraceChainBegin` on the id of the thread: what it returns and the id behind it.
The name and the domain only go to the log. -/
def chainBegin (platform : Platform) (flags : Int) (source : ChainIdSource)
    (thread : HiTraceIdStruct) : HiTraceIdStruct × HiTraceIdStruct :=
  if flags < hitraceFlagMin ∨ flags > hitraceFlagMax then (initId, thread)
  else if thread.isValid then (initId, thread)
  else
    let id : HiTraceIdStruct :=
      { valid := hitraceIdValid
        ver := hitraceVer1
        chainId := .ofNat 60 (hiTraceChainCreateChainId platform.order source)
        flags := .ofInt 12 flags
        spanId := 0
        parentSpanId := 0 }
    (id, id)

def chainEnd (id : Option HiTraceIdStruct) (thread : HiTraceIdStruct) : HiTraceIdStruct :=
  match id with
  | none => thread
  | some id =>
      if !id.isValid then thread
      else if !thread.isValid then thread
      else if id.getChainId ≠ thread.getChainId then thread
      else initId

def setId (id : Option HiTraceIdStruct) (thread : HiTraceIdStruct) : HiTraceIdStruct :=
  match id with
  | none => thread
  | some id => if id.isValid then id else thread

def clearId (_thread : HiTraceIdStruct) : HiTraceIdStruct :=
  initId

def createSpan (platform : Platform) (deviceId : Int) (tv : Timeval)
    (thread : HiTraceIdStruct) : HiTraceIdStruct :=
  if !thread.isValid then thread
  else if thread.isFlagEnabled hitraceFlagDonotCreateSpan then thread
  else
    let hashData : List Nat :=
      [toUint64 deviceId % 2 ^ 32, thread.parentSpanId.toNat, thread.spanId.toNat,
        toUint64 tv.tvSec % 2 ^ 32, tv.tvUsec]
    { thread with
      parentSpanId := thread.spanId
      spanId := (hashFunc platform.charSigned
        (hashData.flatMap (platform.order.store 4))).setWidth 26 }

/-- `HiTraceChainSaveAndSetId`: the id that was there and the one that is. -/
def saveAndSetId (id : Option HiTraceIdStruct) (thread : HiTraceIdStruct) :
    HiTraceIdStruct × HiTraceIdStruct :=
  match id with
  | none => (thread, thread)
  | some id => (thread, if id.valid = hitraceIdValid then id else thread)

def restoreId (id : Option HiTraceIdStruct) (thread : HiTraceIdStruct) : HiTraceIdStruct :=
  match id with
  | none => thread
  | some id => id

end HiTraceIdStruct

end Hitrace
