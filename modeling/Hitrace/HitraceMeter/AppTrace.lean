import Hitrace.TraceFactory.TraceContent
import Mathlib.Algebra.Ring.Int.Defs

namespace Hitrace

open Library

/-! The capture of a process's own markers into a text file, from
`hitrace_meter.cpp`. -/

namespace AppTrace

def commStrMax : Nat := 14

def pidStrMax : Nat := 7

def prefixMaxSize : Nat := 128

def traceTxtHeaderMax : Nat := 1024

def cpuCoreNum : Nat := 16

def defaultCacheSize : Nat := 32 * 1024

def maxFileSize : Nat := 500 * 1024 * 1024

/-! Formatting. -/

def decimal (number : Nat) : List UInt8 :=
  bytesOf (toString number)

def padLeft (width : Nat) (fill : UInt8) (text : List UInt8) : List UInt8 :=
  List.replicate (width - text.length) fill ++ text

def padRight (width : Nat) (text : List UInt8) : List UInt8 :=
  text ++ List.replicate (width - text.length) 32

def headerFront : List UInt8 :=
  bytesOf "# tracer: nop\n#\n# entries-in-buffer/entries-written: "

def headerBack : List UInt8 :=
  bytesOf "\n#\n" ++
    bytesOf "#                                          _-----=> irqs-off\n" ++
    bytesOf "#                                         / _----=> need-resched\n" ++
    bytesOf "#                                        | / _---=> hardirq/softirq\n" ++
    bytesOf "#                                        || / _--=> preempt-depth\n" ++
    bytesOf "#                                        ||| /     delay\n" ++
    bytesOf
      "#           TASK-PID       TGID    CPU#  ||||   TIMESTAMP  FUNCTION\n" ++
    bytesOf "#              | |           |       |   ||||      |         |\n"

/-- `TRACE_TXT_HEADER_FORMAT` with its two texts. -/
def traceTxtHeader (eventNum cpuNum : List UInt8) : List UInt8 :=
  headerFront ++ padRight 21 eventNum ++ bytesOf "   #P:" ++ padRight 3 cpuNum ++
    headerBack

/-- The header in a buffer of `TRACE_TXT_HEADER_MAX` bytes. -/
def formatHeader (eventNum cpuNum : List UInt8) : Option (List UInt8) :=
  if (traceTxtHeader eventNum cpuNum).length < traceTxtHeaderMax then
    some (traceTxtHeader eventNum cpuNum)
  else none

/-- A process or thread id, below the limit of the kernel. -/
structure ProcId where
  id : Nat
  bounded : id < 10 ^ 7
deriving Repr, DecidableEq

inductive MarkerType
  | begin
  | end
  | asyncBegin
  | asyncEnd
  | int
deriving Repr, DecidableEq

inductive HiTraceOutputLevel
  | debug
  | info
  | critical
  | commercial
deriving Repr, DecidableEq

/-- A C string is the list of its bytes in front of the terminating zero. -/
structure TraceMarker where
  type : MarkerType
  level : HiTraceOutputLevel
  tag : UInt64
  value : Int64
  name : List UInt8
  customCategory : List UInt8
  customArgs : List UInt8
  pid : ProcId
deriving Repr, DecidableEq

/-- A marker with what the calling thread finds out about itself: `comm` is the
text of its `comm` file, `cpu` the processor. -/
structure MarkerCall where
  marker : TraceMarker
  tid : ProcId
  procName : List UInt8
  comm : Option (List UInt8)
  cpu : Option Nat
  sec : Nat
  nsec : Nat
deriving Repr, DecidableEq

def traceLevel : HiTraceOutputLevel → List UInt8
  | .debug => bytesOf "D"
  | .info => bytesOf "I"
  | .critical => bytesOf "C"
  | .commercial => bytesOf "M"

def markType : MarkerType → List UInt8
  | .begin => bytesOf "B"
  | .end => bytesOf "E"
  | .asyncBegin => bytesOf "S"
  | .asyncEnd => bytesOf "F"
  | .int => bytesOf "C"

def twoDigits (number : Nat) : List UInt8 :=
  padLeft 2 48 (decimal number)

def tagOptionMask : UInt64 := 1 ||| 32

/-- Up to two of the bits past the lowest, when the tag is no single bit beside
its option. -/
def parseTagBits (tag : UInt64) : List UInt8 :=
  let tagOption := tag &&& tagOptionMask
  let tagWithoutOption := tag &&& ~~~tagOptionMask
  let front :=
    if tagOption = 1 then bytesOf "00"
    else if tagOption = 32 then bytesOf "05"
    else []
  if tagOption = 1 ∧ tagWithoutOption = 0 then front
  else if tagWithoutOption &&& (tagWithoutOption - 1) = 0 ∧ tagWithoutOption ≠ 0 then
    front ++
      (((List.range 64).filter tagWithoutOption.toNat.testBit).take 1).flatMap
        twoDigits
  else
    ((((List.range 64).drop 1).filter tag.toNat.testBit).take 2).flatMap twoDigits

def additionalParams (marker : TraceMarker) : List UInt8 :=
  match marker.type with
  | .begin =>
      if marker.customArgs.isEmpty then [] else bytesOf "|" ++ marker.customArgs
  | .asyncBegin =>
      if !marker.customArgs.isEmpty then
        bytesOf "|" ++ marker.customCategory ++ bytesOf "|" ++ marker.customArgs
      else if !marker.customCategory.isEmpty then
        bytesOf "|" ++ marker.customCategory
      else []
  | _ => []

/-- The text of a record, before it is put into its buffer. -/
def recordText (appTracePrefix : List UInt8) (cpu : Nat) (call : MarkerCall) :
    List UInt8 :=
  let marker := call.marker
  let pid := decimal marker.pid.id
  let label := traceLevel marker.level ++ parseTagBits marker.tag
  let body :=
    match marker.type with
    | .begin =>
        bytesOf "B|" ++ pid ++ bytesOf "|H:" ++ marker.name ++ bytesOf "|" ++ label ++
          additionalParams marker
    | .end => bytesOf "E|" ++ pid ++ bytesOf "|" ++ label
    | type =>
        markType type ++ bytesOf "|" ++ pid ++ bytesOf "|H:" ++ marker.name ++
          bytesOf "|" ++ bytesOf (toString marker.value.toInt) ++ bytesOf "|" ++
          label ++ additionalParams marker
  bytesOf "  " ++ appTracePrefix ++ bytesOf " [" ++ padLeft 3 48 (decimal cpu) ++
    bytesOf "] .... " ++ decimal call.sec ++ bytesOf "." ++
    padLeft 6 48 (decimal (call.nsec / 1000)) ++ bytesOf ": tracing_mark_write: " ++
    body ++ bytesOf "\n"

def setCommStr (name : List UInt8) : List UInt8 :=
  if name.length ≥ commStrMax then name.drop (name.length - commStrMax)
  else padLeft commStrMax 32 name

/-- The ids of a prefix, the first one left-aligned and the second one
right-aligned. -/
def idColumns (first second : ProcId) : List UInt8 :=
  bytesOf "-" ++ padRight pidStrMax (decimal first.id) ++ bytesOf " (" ++
    padLeft pidStrMax 32 (decimal second.id) ++ bytesOf ")"

def mainThreadInfo (call : MarkerCall) : List UInt8 :=
  setCommStr call.procName ++ idColumns call.marker.pid call.marker.pid

/-- Without its name the thread goes on under the prefix of the last one. -/
def allThreadInfo (call : MarkerCall) (appTracePrefix : List UInt8) : List UInt8 :=
  match call.comm with
  | none | some [] => appTracePrefix
  | some comm =>
      let comm := if comm.getLast? = some 10 then comm.dropLast else comm
      setCommStr comm ++ idColumns call.tid call.marker.pid

/-! The globals while a capture is on; `g_appFd` is set. -/

inductive TraceFlag
  | mainThread
  | allThread
  | invalid
deriving Repr, DecidableEq

structure Capture where
  file : PosixFile
  appFlag : TraceFlag
  appTag : UInt64
  tgid : ProcId
  fileLimitSize : Nat
  fileSize : Int
  writeOffset : Int
  traceEventNum : Nat
  appTracePrefix : List UInt8
  traceBuffer : List UInt8
deriving Repr, DecidableEq

/-- The value an `int` gets. -/
def toInt (number : Int) : Int :=
  number.bmod (2 ^ 32)

/-- `snprintf_s` at a place of a buffer with room for `len` bytes: what it returns
and the buffer.  It gives up on a length that is not positive, and a place that
does not lie in the buffer is an access out of bounds. -/
def snprintfS (buffer : List UInt8) (start : Nat) (len : Int) (text : List UInt8) :
    Option (Int × List UInt8) :=
  if len ≤ 0 then some (-1, buffer)
  else if buffer.length < start + len.toNat then none
  else if text.length < len.toNat then
    some (text.length, PosixFile.overwrite buffer start (text ++ [0]))
  else
    some (-1, PosixFile.overwrite buffer start (text.take (len.toNat - 1) ++ [0]))

def setAppTraceBuffer (buffer : List UInt8) (start : Nat) (len : Int)
    (appTracePrefix : List UInt8) (call : MarkerCall) : Option (Int × List UInt8) :=
  match call.cpu with
  | none => some (-1, buffer)
  | some cpu => snprintfS buffer start len (recordText appTracePrefix cpu call)

def recordLen (marker : TraceMarker) : Int :=
  toInt (prefixMaxSize + marker.name.length + marker.customArgs.length +
    marker.customCategory.length)

namespace Capture

def writeTraceToFile (capture : Capture) (bytes : List UInt8) : Capture :=
  { capture with
    file := capture.file.write bytes
    fileSize := capture.fileSize + bytes.length
    writeOffset := 0 }

/-- The cached bytes go out. -/
def flush (capture : Capture) : Capture :=
  capture.writeTraceToFile (capture.traceBuffer.take capture.writeOffset.toNat)

def getTraceBuffer (capture : Capture) (size : Int) : Capture :=
  if capture.writeOffset + size > defaultCacheSize ∧
      capture.writeOffset + size < maxFileSize then capture.flush
  else capture

def setAppTrace (capture : Capture) (len : Int) (call : MarkerCall) :
    Option Capture :=
  let capture := capture.getTraceBuffer len
  match setAppTraceBuffer capture.traceBuffer capture.writeOffset.toNat len
      capture.appTracePrefix call with
  | none => none
  | some (bytes, traceBuffer) =>
      if bytes > 0 then
        some
          { capture with
            traceBuffer
            traceEventNum := capture.traceEventNum + 1
            writeOffset := capture.writeOffset + bytes }
      else some { capture with traceBuffer }

def writeAppTraceLong (capture : Capture) (len : Int) (call : MarkerCall) :
    Option Capture :=
  let capture := capture.flush
  match setAppTraceBuffer (List.replicate len.toNat 0) 0 len capture.appTracePrefix
      call with
  | none => none
  | some (bytes, buffer) =>
      if bytes > 0 then
        let capture := capture.writeTraceToFile (buffer.take bytes.toNat)
        some { capture with traceEventNum := capture.traceEventNum + 1 }
      else some capture

/-- The test of `CheckFileSize`, whose sum is an `int` compared as a
`uint64_t`. -/
def exceedsLimit (capture : Capture) (len : Int) : Bool :=
  decide ((toInt (capture.fileSize + capture.writeOffset + len) % 2 ^ 64).toNat >
    capture.fileLimitSize)

def eventNumStr (capture : Capture) : List UInt8 :=
  decimal capture.traceEventNum ++ bytesOf "/" ++ decimal capture.traceEventNum

def patched (capture : Capture) (header : List UInt8) : PosixFile :=
  (capture.flush.file.seek 0).write header

/-- The thread's markers are captured. -/
def handles (capture : Capture) (call : MarkerCall) : Bool :=
  match capture.appFlag with
  | .mainThread => decide (capture.tgid = call.tid)
  | .allThread => true
  | .invalid => false

def setThreadInfo (capture : Capture) (call : MarkerCall) : Capture :=
  match capture.appFlag with
  | .mainThread =>
      if capture.appTracePrefix.isEmpty then
        { capture with appTracePrefix := mainThreadInfo call }
      else capture
  | _ =>
      { capture with
        appTracePrefix := allThreadInfo call capture.appTracePrefix }

def writeRecord (capture : Capture) (call : MarkerCall) : Option Capture :=
  let len := recordLen call.marker
  if len ≤ defaultCacheSize then
    (capture.setThreadInfo call).setAppTrace len call
  else (capture.setThreadInfo call).writeAppTraceLong len call

end Capture

end AppTrace

/-- `disk` holds the files of the captures that are over. -/
structure AppTrace where
  capture : Option AppTrace.Capture := none
  disk : List (List UInt8) := []
deriving Repr, DecidableEq

namespace AppTrace

inductive Ret
  | succ
  | faild
  | started
  | stopped
  | failInvalidArgs
  | failEnoent
  | failEacces
deriving Repr, DecidableEq

/-- `opened` is what `SetAppFileName` and `open` come to. -/
structure StartArgs where
  flag : TraceFlag
  tags : UInt64
  limitSize : UInt64
  tgid : ProcId
  opened : Ret
deriving Repr, DecidableEq

def validTags : UInt64 :=
  ([13, 16, 18, 23, 24, 27, 29, 30, 31, 32, 33, 34, 35, 36, 38, 39, 40, 41, 42, 46,
    47, 48, 50, 51, 52, 53, 54, 55, 56, 57, 59, 60, 62] : List UInt64).foldl
      (fun tags bit => tags ||| ((1 : UInt64) <<< bit)) 0

def checkAppTraceArgs (args : StartArgs) : Ret :=
  if args.flag = .invalid then .failInvalidArgs
  else if args.tags.toInt64 < 0 ∨ args.tags &&& validTags = 0 then .failInvalidArgs
  else if args.limitSize.toInt64 ≤ 0 then .failInvalidArgs
  else .succ

/-- The globals behind `InitTraceHead`, on the file just opened. -/
def initTraceHead (args : StartArgs) (header : List UInt8) : Capture where
  file := (PosixFile.write {} header).seek header.length
  appFlag := args.flag
  appTag := args.tags
  tgid := args.tgid
  fileLimitSize := min args.limitSize.toNat maxFileSize
  fileSize := header.length
  writeOffset := 0
  traceEventNum := 0
  appTracePrefix := []
  traceBuffer := List.replicate defaultCacheSize 0

def startCaptureAppTrace (app : AppTrace) (args : StartArgs) : Ret × AppTrace :=
  if checkAppTraceArgs args ≠ .succ then (checkAppTraceArgs args, app)
  else if app.capture.isSome then (.started, app)
  else if args.opened ≠ .succ then (args.opened, app)
  else
    match formatHeader [] [] with
    | none => (.faild, { app with disk := app.disk ++ [[]] })
    | some header => (.succ, { app with capture := some (initTraceHead args header) })

def stopCaptureAppTrace (app : AppTrace) : Ret × AppTrace :=
  match app.capture with
  | none => (.stopped, app)
  | some capture =>
      match formatHeader capture.eventNumStr (decimal cpuCoreNum) with
      | none => (.faild, { app with capture := some capture.flush })
      | some header =>
          (.succ,
            { capture := none
              disk := app.disk ++ [(capture.patched header).content] })

def hitraceTagNotReady : UInt64 := (1 : UInt64) <<< 63

/-- The test in front of `WriteAppTrace`. -/
def reaches (capture : Capture) (call : MarkerCall) : Bool :=
  decide (capture.appTag ≠ hitraceTagNotReady) &&
    decide (call.marker.tag &&& capture.appTag ≠ 0)

def writeAppTrace (app : AppTrace) (capture : Capture) (call : MarkerCall) :
    Option AppTrace :=
  if !capture.handles call then some app
  else if capture.exceedsLimit (recordLen call.marker) then
    some app.stopCaptureAppTrace.2
  else
    (capture.writeRecord call).map fun capture =>
      { app with capture := some capture }

def addHitraceMeterMarker (app : AppTrace) (call : MarkerCall) : Option AppTrace :=
  match app.capture with
  | none => some app
  | some capture =>
      if reaches capture call then app.writeAppTrace capture call else some app

end AppTrace

end Hitrace
