import Hitrace.HitraceMeter.AppTrace
import Hitrace.HitraceChain.HiTraceId
import Mathlib.Data.Nat.Digits.Defs

namespace Hitrace

/-! `AddHitraceMeterMarker` of `hitrace_meter.cpp`: the record for `trace_marker` and
the way to the app capture. -/

namespace HitraceMeter

open AppTrace

def recordSizeMax : Nat := 1024

def hitraceTagCommercial : UInt64 := (1 : UInt64) <<< 5

def hitraceTagApp : UInt64 := (1 : UInt64) <<< 62

/-! `StringUtil`, on the part of the record that is written. -/

def addStringToBuffer (src record : List UInt8) : List UInt8 :=
  record ++ src.take (recordSizeMax - record.length)

def addCharToBuffer (value : UInt8) (record : List UInt8) : List UInt8 :=
  if record.length < recordSizeMax then record ++ [value] else record

def numToChar (digit : Nat) : UInt8 :=
  if digit < 10 then UInt8.ofNat (48 + digit) else UInt8.ofNat (87 + digit)

def addDigits (base value : Nat) (record : List UInt8) : List UInt8 :=
  addStringToBuffer ((Nat.digits base value).reverse.map numToChar) record

def addUInt64HexValueToBuffer (value : Nat) (record : List UInt8) : List UInt8 :=
  if value = 0 then addCharToBuffer 48 record else addDigits 16 value record

def addUInt32DecValueToBuffer (value : Nat) (record : List UInt8) : List UInt8 :=
  if value = 0 then addCharToBuffer 48 record else addDigits 10 value record

def addInt64DecValue (value : Int64) (record : List UInt8) : List UInt8 :=
  if value = 0 then addCharToBuffer 48 record
  else
    addDigits 10 value.toInt.natAbs
      (if value < 0 then addCharToBuffer 45 record else record)

/-! The four writers of a record. -/

def writeHitraceId (hiTraceId : HiTraceIdStruct) (record : List UInt8) : List UInt8 :=
  if hiTraceId.isValid then
    record
      |> addCharToBuffer 91
      |> addUInt64HexValueToBuffer hiTraceId.getChainId.toNat
      |> addCharToBuffer 44
      |> addUInt64HexValueToBuffer hiTraceId.spanId.toNat
      |> addCharToBuffer 44
      |> addUInt64HexValueToBuffer hiTraceId.parentSpanId.toNat
      |> addStringToBuffer (bytesOf "]#")
  else record

def writeLabel (marker : TraceMarker) (record : List UInt8) : List UInt8 :=
  record
    |> addStringToBuffer (traceLevel marker.level)
    |> addStringToBuffer (parseTagBits marker.tag)

/-- What stands behind the letter of a record with a name. -/
def writeNamed (hiTraceId : HiTraceIdStruct) (marker : TraceMarker)
    (record : List UInt8) : List UInt8 :=
  record
    |> addUInt32DecValueToBuffer marker.pid.id
    |> addStringToBuffer (bytesOf "|H:")
    |> writeHitraceId hiTraceId
    |> addStringToBuffer marker.name
    |> addCharToBuffer 124

def writeText (text record : List UInt8) : List UInt8 :=
  record
    |> addCharToBuffer 124
    |> addStringToBuffer text

def writeSyncBeginRecord (hiTraceId : HiTraceIdStruct) (marker : TraceMarker) :
    List UInt8 :=
  let record :=
    []
      |> addStringToBuffer (bytesOf "B|")
      |> writeNamed hiTraceId marker
      |> writeLabel marker
  if marker.customArgs ≠ [] then writeText marker.customArgs record else record

def writeSyncEndRecord (marker : TraceMarker) : List UInt8 :=
  []
    |> addStringToBuffer (bytesOf "E|")
    |> addUInt32DecValueToBuffer marker.pid.id
    |> addCharToBuffer 124
    |> writeLabel marker

def writeValued (hiTraceId : HiTraceIdStruct) (marker : TraceMarker)
    (record : List UInt8) : List UInt8 :=
  record
    |> writeNamed hiTraceId marker
    |> addInt64DecValue marker.value
    |> addCharToBuffer 124
    |> writeLabel marker

def writeAsyncBeginRecord (hiTraceId : HiTraceIdStruct) (marker : TraceMarker) :
    List UInt8 :=
  let record :=
    []
      |> addStringToBuffer (bytesOf "S|")
      |> writeValued hiTraceId marker
  if marker.customCategory ≠ [] then
    let record := writeText marker.customCategory record
    if marker.customArgs ≠ [] then writeText marker.customArgs record else record
  else if marker.customArgs ≠ [] then
    record
      |> writeText marker.customCategory
      |> writeText marker.customArgs
  else record

def writeOtherTypeRecord (hiTraceId : HiTraceIdStruct) (marker : TraceMarker) :
    List UInt8 :=
  []
    |> addStringToBuffer (markType marker.type)
    |> addCharToBuffer 124
    |> writeValued hiTraceId marker

def record (hiTraceId : HiTraceIdStruct) (marker : TraceMarker) : List UInt8 :=
  match marker.type with
  | .begin => writeSyncBeginRecord hiTraceId marker
  | .end => writeSyncEndRecord marker
  | .asyncBegin => writeAsyncBeginRecord hiTraceId marker
  | _ => writeOtherTypeRecord hiTraceId marker

/-! The system-wide settings and their filter. -/

structure SystemSettings where
  tagsProperty : UInt64
  levelThreshold : Int
  appTagMatchPid : Int
  markerFd : Bool
deriving Repr, DecidableEq

def levelValue : HiTraceOutputLevel → Int
  | .debug => 0
  | .info => 1
  | .critical => 2
  | .commercial => 3

def outputLevel (level : Int) : Option HiTraceOutputLevel :=
  [HiTraceOutputLevel.debug, .info, .critical, .commercial].find? fun output =>
    levelValue output = level

namespace SystemSettings

/-- The marker is for the system trace. -/
def matchesTag (settings : SystemSettings) (tag : UInt64) : Bool :=
  decide (settings.tagsProperty &&& tag ≠ 0) && settings.markerFd

/-- The early return of the system branch. -/
def drops (settings : SystemSettings) (marker : TraceMarker) : Bool :=
  decide (levelValue marker.level < settings.levelThreshold) ||
    (decide (marker.tag = hitraceTagApp) && decide (0 < settings.appTagMatchPid) &&
      decide (settings.appTagMatchPid ≠ marker.pid.id))

end SystemSettings

def raiseLevel (marker : TraceMarker) : TraceMarker :=
  if marker.tag &&& hitraceTagCommercial ≠ 0 then { marker with level := .commercial }
  else marker

/-- The arguments of a marker; a text that is not there is `nullptr`. -/
structure MarkerRequest where
  type : MarkerType
  level : Int
  tag : UInt64
  value : Int64 := 0
  name : Option (List UInt8) := some []
  customCategory : Option (List UInt8) := some []
  customArgs : Option (List UInt8) := some []
deriving Repr, DecidableEq

/-- The marker behind `SetNullptrToEmpty`, unless its level is out of range. -/
def MarkerRequest.marker (request : MarkerRequest) (pid : ProcId) : Option TraceMarker :=
  (outputLevel request.level).map fun level =>
    { type := request.type
      level
      tag := request.tag
      value := request.value
      name := request.name.getD []
      customCategory := request.customCategory.getD []
      customArgs := request.customArgs.getD []
      pid }

/-- What the calling thread finds out about itself. -/
structure Caller where
  pid : ProcId
  tid : ProcId
  hiTraceId : HiTraceIdStruct
  procName : List UInt8
  comm : Option (List UInt8)
  cpu : Option Nat
  sec : Nat
  nsec : Nat
deriving Repr, DecidableEq

def Caller.call (caller : Caller) (marker : TraceMarker) : MarkerCall where
  marker
  tid := caller.tid
  procName := caller.procName
  comm := caller.comm
  cpu := caller.cpu
  sec := caller.sec
  nsec := caller.nsec

/-- The globals of the app capture behind the call, and the record that is written to
`trace_marker`.  `prepared` is the answer of `PrepareTraceMarker`. -/
def addHitraceMeterMarker (settings : SystemSettings) (prepared : Bool) (caller : Caller)
    (request : MarkerRequest) (app : AppTrace) : Option (AppTrace × Option (List UInt8)) :=
  match request.marker caller.pid with
  | none => some (app, none)
  | some marker =>
      if !prepared then some (app, none)
      else if settings.matchesTag marker.tag then
        if settings.drops (raiseLevel marker) then some (app, none)
        else
          (app.addHitraceMeterMarker (caller.call (raiseLevel marker))).map fun app =>
            (app, some (record caller.hiTraceId (raiseLevel marker)))
      else
        (app.addHitraceMeterMarker (caller.call marker)).map fun app => (app, none)

end HitraceMeter

end Hitrace
