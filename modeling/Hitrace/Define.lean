import Mathlib.Algebra.Ring.Int.Defs
import Mathlib.Algebra.Ring.Nat
import Mathlib.Tactic.Common

namespace Hitrace

/-! The shared data types of `common/hitrace_define.h`. -/

def traceFileLen : Nat := 128

/-! `TraceMode` is a mask of bits in one byte. -/

abbrev TraceMode := UInt8

namespace TraceMode

def modeClose : TraceMode := 0
def modeOpen : TraceMode := (1 : UInt8) <<< 0
def modeRecord : TraceMode := (1 : UInt8) <<< 1
def modeCache : TraceMode := (1 : UInt8) <<< 2

end TraceMode

inductive TraceErrorCode
  | success
  | traceNotSupported
  | traceIsOccupied
  | tagError
  | fileError
  | writeTraceInfoError
  | wrongTraceMode
  | outOfTime
  | forkError
  | invalidMaxDuration
  | epollWaitError
  | pipeCreateError
  | asyncDump
  | traceTaskSubmitError
  | traceTaskDumpTimeout
  | unknownTraceDumpType
  | bootTraceActive
  | unset
  deriving DecidableEq, Repr

inductive TraceDumpType
  | traceSnapshot
  | traceRecording
  | traceCache
  | traceAsyncRead
  | traceAsyncWrite
  deriving DecidableEq, Repr

structure TraceDumpRequest where
  type : TraceDumpType := .traceSnapshot
  fileSize : Int := 0
  limitFileSz : Bool := false
  traceStartTime : UInt64 := 0
  traceEndTime : UInt64 := UInt64.ofNat (UInt64.size - 1)
  taskId : UInt64 := 0
  cacheSliceDuration : UInt64 := 0
  deriving DecidableEq, Repr

inductive TraceDumpStatus
  | start
  | readDone
  | waitWrite
  | writeDone
  | finish
  deriving DecidableEq, Repr

def TraceDumpStatus.rank : TraceDumpStatus → Nat
  | .start => 0
  | .readDone => 1
  | .waitWrite => 2
  | .writeDone => 3
  | .finish => 4

structure TraceDumpTask where
  time : UInt64 := 0
  traceStartTime : UInt64 := 0
  traceEndTime : UInt64 := 0
  outputFile : List Char := []
  fileSize : Int := 0
  fileSizeLimit : Int := 0
  hasSyncReturn : Bool := false
  writeRetry : Nat := 0
  code : TraceErrorCode := .unset
  isFileSizeOverLimit : Bool := false
  status : TraceDumpStatus := .start
  deriving DecidableEq, Repr

/-- `strncpy_s` into a field of `TRACE_FILE_LEN` characters. -/
def copyFileName (name : List Char) : List Char :=
  name.take (traceFileLen - 1)

/-- A value that is converted to `uint64_t`. -/
def toUint64 (value : Int) : Nat :=
  (value % 2 ^ 64).toNat

end Hitrace
