import Hitrace.HitraceDump.DumpResult
import Hitrace.HitraceDump.TraceSession

namespace Hitrace

/-! The answer of `DumpTrace`: the wanted time, the search for files, and the two
steps that finish the answer. -/

def defaultFullTraceLength : Int32 := 30

def maxRatioUnit : Int32 := 1000

/-- The whole `TraceRetInfo` of the source. -/
structure LoadedRetInfo extends TraceRetInfo where
  mode : TraceMode := 0
  coverRatio : Int32 := 0
  tags : List (List Char) := []
deriving Repr, DecidableEq

namespace LoadedRetInfo

def loadDumpRet (ret : LoadedRetInfo) (trace : TraceGlobals)
    (committedDuration : Int32) : LoadedRetInfo :=
  let committedDuration :=
    if committedDuration ≤ 0 then defaultFullTraceLength else committedDuration
  { ret with
    mode := trace.traceMode
    coverRatio := ret.coverDuration / committedDuration
    tags := ret.tags ++ trace.currentTraceParams.tagGroups ++
      trace.currentTraceParams.tags }

def sanitizeRetInfo (ret : LoadedRetInfo) : LoadedRetInfo :=
  { ret with
    coverDuration := min ret.coverDuration (defaultFullTraceLength * 1000)
    coverRatio := min ret.coverRatio maxRatioUnit }

end LoadedRetInfo

namespace DumpGlobals

/-- `currentTime` is the answer of `time`. -/
def setDestTraceTimeAndDuration (globals : DumpGlobals) (maxDuration : UInt32)
    (utTraceEndTime currentTime : UInt64) : DumpGlobals :=
  let utDestTraceEndTime := if utTraceEndTime = 0 then currentTime else utTraceEndTime
  let maxDuration :=
    if maxDuration = 0 ∨ maxDuration.toNat = 2 ^ 32 - 1 then
      defaultFullTraceLength.toUInt32
    else maxDuration
  { globals with
    utDestTraceEndTime
    utDestTraceStartTime :=
      if utDestTraceEndTime ≤ maxDuration.toUInt64 then 1
      else utDestTraceEndTime - maxDuration.toUInt64 }

def committedDuration (globals : DumpGlobals) : Int32 :=
  min defaultFullTraceLength
    (toInt32 (globals.utDestTraceEndTime - globals.utDestTraceStartTime))

end DumpGlobals

/-- A call of `DumpTrace`, with what it meets.  `boundary` is the answer of
`SetTimeIntervalBoundary`, and `dumped` the result of the child process or the error
that keeps `ProcessDumpSync` from it. -/
structure DumpTraceCall where
  boot : BootTrace := ⟨false, false⟩
  outputPath : List Char := []
  maxDuration : UInt32 := 0
  utTraceEndTime : UInt64 := 0
  currentTime : UInt64
  isTracingOn : Bool := true
  ageing : AgeingEnvironment
  directory : List DirEntry := []
  files : FileEnvironment
  cacheFiles : List TraceFileInfo := []
  boundary : TraceErrorCode := .success
  dumped : Except TraceErrorCode TraceDumpRet

namespace DumpTraceCall

variable (call : DumpTraceCall) (trace : TraceGlobals) (globals : DumpGlobals)

def getFileInCache (ret : LoadedRetInfo) : DumpGlobals × LoadedRetInfo :=
  let (globals, found) :=
    searchTraceFiles call.files call.cacheFiles globals ret.toTraceRetInfo
  (globals,
    { ret with
      toTraceRetInfo :=
        { found with
          errorCode := if found.outputFiles.isEmpty then .outOfTime else .success } })

def dumpSync (ret : LoadedRetInfo) : DumpGlobals × LoadedRetInfo :=
  match call.dumped with
  | .error code => (globals, { ret with errorCode := code })
  | .ok retVal =>
      let (code, globals, found) := processDumpSync call.files call.cacheFiles retVal
        call.outputPath globals ret.toTraceRetInfo
      (globals, { ret with toTraceRetInfo := { found with errorCode := code } })

/-- The globals of a call that passes the checks, when the wanted time is set. -/
def requested : DumpGlobals :=
  { globals with
    traceFileVec :=
      (FileAgeing.handleAgeing call.ageing globals.traceFileVec call.directory).1
    }.setDestTraceTimeAndDuration call.maxDuration call.utTraceEndTime call.currentTime

/-- `DumpTrace` behind its checks. -/
def dumpRequested (ret : LoadedRetInfo) : DumpGlobals × LoadedRetInfo :=
  let globals := call.requested globals
  let committedDuration := globals.committedDuration
  if isCacheOn trace.traceMode then
    let (globals, ret) := call.getFileInCache globals ret
    (globals, (ret.loadDumpRet trace committedDuration).sanitizeRetInfo)
  else if call.boundary ≠ .success then
    (globals, { ret with errorCode := call.boundary })
  else
    let (globals, ret) := call.dumpSync
      { globals with
        firstPageTimestamp := UInt64.ofNat (UInt64.size - 1)
        lastPageTimestamp := 0 } ret
    (globals, (ret.loadDumpRet trace committedDuration).sanitizeRetInfo)

def dumpTrace : DumpGlobals × LoadedRetInfo :=
  match bootTraceArbShouldReturnLocked call.boot false with
  | some code => (globals, { errorCode := code, mode := trace.traceMode })
  | none =>
      if !call.outputPath.isEmpty && !isWritable call.outputPath then
        (globals, { errorCode := .fileError })
      else
        match trace.checkTraceDumpStatus call.maxDuration call.isTracingOn with
        | some code => (globals, { errorCode := code, mode := trace.traceMode })
        | none => call.dumpRequested trace globals { mode := trace.traceMode }

end DumpTraceCall

/-! The wanted seconds, and the length the coverage is measured against. -/

section Requested

variable (globals : DumpGlobals) (maxDuration : UInt32)
  (utTraceEndTime currentTime : UInt64)

/-- The length that `LoadDumpRet` divides by. -/
theorem committedDuration_bounds {committedDuration : Int32}
    (hmin : committedDuration ≤ defaultFullTraceLength) :
    let divisor :=
      if committedDuration ≤ 0 then defaultFullTraceLength else committedDuration
    1 ≤ divisor.toInt ∧ divisor.toInt ≤ 30 := by
  have hlength : defaultFullTraceLength.toInt = 30 := rfl
  have hzero : (0 : Int32).toInt = 0 := rfl
  rw [Int32.le_iff_toInt_le, hlength] at hmin
  dsimp only
  split
  · rw [hlength]
    omega
  · next hpositive =>
    rw [Int32.le_iff_toInt_le, hzero] at hpositive
    omega

/-- The wanted interval is in order, unless its end is the start of the epoch, and its
length fits into 32 bits. -/
def DumpGlobals.InOrder : Prop :=
  1 ≤ globals.utDestTraceStartTime.toNat ∧
    (globals.utDestTraceEndTime.toNat = 0 ∧ globals.utDestTraceStartTime.toNat = 1 ∨
      globals.utDestTraceStartTime.toNat ≤ globals.utDestTraceEndTime.toNat ∧
        globals.utDestTraceEndTime.toNat <
          globals.utDestTraceStartTime.toNat + 2 ^ 32)

theorem setDestTraceTimeAndDuration_inOrder :
    (globals.setDestTraceTimeAndDuration maxDuration utTraceEndTime
      currentTime).InOrder := by
  unfold DumpGlobals.InOrder
  unfold DumpGlobals.setDestTraceTimeAndDuration
  dsimp only
  generalize (if utTraceEndTime = 0 then currentTime else utTraceEndTime) = stop
  generalize (if maxDuration = 0 ∨ maxDuration.toNat = 2 ^ 32 - 1 then
    defaultFullTraceLength.toUInt32 else maxDuration) = duration
  have hduration := duration.toNat_lt
  split
  · next hshort =>
    rw [UInt64.le_iff_toNat_le, UInt32.toNat_toUInt64] at hshort
    have hone : (1 : UInt64).toNat = 1 := rfl
    rw [hone]
    omega
  · next hlong =>
    rw [UInt64.le_iff_toNat_le, UInt32.toNat_toUInt64] at hlong
    rw [UInt64.toNat_sub_of_le _ _ (by
      rw [UInt64.le_iff_toNat_le, UInt32.toNat_toUInt64]
      omega), UInt32.toNat_toUInt64]
    omega

end Requested

/-! The bounds of a finished answer. -/

theorem toInt_min (left right : Int32) :
    (min left right).toInt = min left.toInt right.toInt := by
  have hmin : min left right = if left ≤ right then left else right := rfl
  rw [hmin]
  split
  · next hle => exact (Int.min_eq_left (Int32.le_iff_toInt_le.mp hle)).symm
  · next hle =>
    rw [Int32.le_iff_toInt_le] at hle
    exact (Int.min_eq_right (by omega)).symm

/-- The limits from above always hold, and those from below unless the sum is negative. -/
theorem LoadedRetInfo.sanitized_bounds (ret : LoadedRetInfo) (trace : TraceGlobals)
    {committedDuration : Int32} (hmin : committedDuration ≤ defaultFullTraceLength) :
    let answer := (ret.loadDumpRet trace committedDuration).sanitizeRetInfo
    ((0 ≤ answer.coverDuration ∧ answer.coverDuration ≤ 30000) ∧
        0 ≤ answer.coverRatio ∧ answer.coverRatio ≤ 1000) ↔
      0 ≤ ret.coverDuration := by
  obtain ⟨hlow, hhigh⟩ := committedDuration_bounds hmin
  dsimp only [loadDumpRet, sanitizeRetInfo]
  generalize (if committedDuration ≤ 0 then defaultFullTraceLength
    else committedDuration) = divisor at hlow hhigh ⊢
  have hdivisor : divisor ≠ -1 := by
    rintro rfl
    exact absurd hlow (by decide)
  have hfull : (defaultFullTraceLength * 1000).toInt = 30000 := rfl
  have hunit : maxRatioUnit.toInt = 1000 := rfl
  have hzero : (0 : Int32).toInt = 0 := rfl
  have hlimit : (30000 : Int32).toInt = 30000 := rfl
  have hratio : (1000 : Int32).toInt = 1000 := rfl
  simp only [Int32.le_iff_toInt_le, toInt_min, hfull, hunit, hzero, hlimit, hratio,
    Int32.toInt_div_of_ne_right _ _ hdivisor]
  constructor
  · rintro ⟨⟨hduration, _⟩, _⟩
    omega
  · intro hduration
    have hquotient := Int.tdiv_nonneg hduration (show 0 ≤ divisor.toInt by omega)
    omega

end Hitrace
