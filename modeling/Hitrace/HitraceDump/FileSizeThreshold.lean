import Hitrace.HitraceDump.ArgString
import Hitrace.TraceFactory.RawSegments

namespace Hitrace

/-! The file size of an opening on its way to the comparison of the record and cache
loops, from `hitrace_dump.cpp` and `trace_dump_executor.cpp`. -/

structure TraceDumpParam where
  type : TraceDumpType := .traceSnapshot
  outputFile : List Char := []
  fileLimit : Int := 0
  fileSize : Int := 0
  traceStartTime : UInt64 := 0
  traceEndTime : UInt64 := UInt64.ofNat (UInt64.size - 1)
  cacheTotalFileSizeLmt : UInt64 := 0
  cacheSliceDuration : UInt64 := 30
deriving Repr, DecidableEq

def defaultCacheFileSize : Int := 150 * 1024

namespace TraceDumpParam

def bytePerKb : Int := 1024

/-- `fileSizeThreshold` is an `int`, and so is the product. -/
def fileSizeThreshold (param : TraceDumpParam) : Int32 :=
  if param.fileSize ≠ 0 then Int32.ofInt (param.fileSize * bytePerKb)
  else if param.type = .traceCache then Int32.ofInt (defaultCacheFileSize * bytePerKb)
  else Int32.ofInt (defaultFileSize * bytePerKb)

/-- The request of `DoDumpTraceLoop`. -/
def loopRequest (param : TraceDumpParam) (isLimited : Bool) :
    TraceDumpRequest where
  type := param.type
  fileSize := param.fileSizeThreshold.toInt
  limitFileSz := isLimited
  traceStartTime := param.traceStartTime
  traceEndTime := param.traceEndTime
  cacheSliceDuration := param.cacheSliceDuration

end TraceDumpParam

/-- `g_isRootVer`, `g_totalFileSizeLimit` and `g_sliceMaxDuration`. -/
structure LoopSettings where
  isRootVer : Bool
  totalFileSizeLimit : UInt64
  sliceMaxDuration : UInt64
deriving Repr, DecidableEq

def processRecordTask (traceParams : TraceParams) : TraceDumpParam where
  type := .traceRecording
  outputFile := traceParams.outputFile
  fileLimit := traceParams.fileLimit
  fileSize := traceParams.fileSize
  cacheTotalFileSizeLmt := UInt64.ofInt traceParams.totalSize

def processCacheTask (settings : LoopSettings) (traceParams : TraceParams) :
    TraceDumpParam where
  type := .traceCache
  outputFile := traceParams.outputFile
  fileLimit := traceParams.fileLimit
  fileSize := traceParams.fileSize
  cacheTotalFileSizeLmt := settings.totalFileSizeLimit
  cacheSliceDuration := settings.sliceMaxDuration

namespace LoopKind

variable (settings : LoopSettings) (traceParams : TraceParams)

def param : LoopKind → TraceDumpParam
  | .record => processRecordTask traceParams
  | .cache => processCacheTask settings traceParams

/-- Without a size, a root version records one file without a limit. -/
def isLimited : LoopKind → Bool
  | .record => !(traceParams.fileSize == 0 && settings.isRootVer)
  | .cache => true

/-- The request of every round. -/
def request (kind : LoopKind) : TraceDumpRequest :=
  (kind.param settings traceParams).loopRequest (kind.isLimited settings traceParams)

end LoopKind

/-! The size that an opening is given. -/

def itemFileSize (item : List Char) : Option (List Char) :=
  match splitItem item with
  | none => none
  | some (itemName, value) =>
      if ArgName.all.lookup itemName = some .fileSize then some value else none

/-- A positive number of the argument string, the last one if there are several, or the
field of `TraceArgs`. -/
def OpenCall.GivesFileSize (given : Nat) : OpenCall → Prop
  | .tagGroups _ => False
  | .traceArgs arguments => given = arguments.fileSizeLimit.toNat
  | .args text =>
      ∃ value, ((argList text).filterMap itemFileSize).getLast? = some value ∧
        stringToInt value = some (given : Int) ∧ 0 < given

namespace FileSizeThreshold

/-- What an argument writes to the size. -/
def fileSizeWrite (name : ArgName) (value : List Char) : Option Int :=
  if name = .fileSize then some (setCmdTraceIntParams value) else none

theorem itemWritten_fileSize (item : List Char) :
    itemWritten fileSizeWrite item = (itemFileSize item).map setCmdTraceIntParams := by
  rw [itemWritten, itemFileSize]
  cases splitItem item with
  | none => rfl
  | some parts =>
      dsimp only [Option.bind_some]
      cases ArgName.all.lookup parts.1 with
      | none => rfl
      | some name => cases name <;> rfl

theorem parseItems_fileSize {items : List (List Char)} {traceParams parsed : TraceParams}
    {appPid : List Char} (hparsed : (parseItems items traceParams appPid).1 = some parsed) :
    parsed.fileSize = ((items.filterMap itemFileSize).getLast?.map
      setCmdTraceIntParams).getD traceParams.fileSize := by
  have hwrite : ∀ name value (traceParams : TraceParams),
      (setArg name value traceParams).fileSize =
        (fileSizeWrite name value).getD traceParams.fileSize := by
    intro name value traceParams
    cases name <;> rfl
  have hwritten := @parseItems_written _ TraceParams.fileSize fileSizeWrite hwrite _ _ _ _
    hparsed
  rw [funext itemWritten_fileSize, ← List.map_filterMap, List.getLast?_map] at hwritten
  exact hwritten

theorem setCmdTraceIntParams_of_pos {value : List Char} {given : Nat}
    (hvalue : stringToInt value = some (given : Int)) (hpos : 0 < given) :
    setCmdTraceIntParams value = given := by
  rw [setCmdTraceIntParams, hvalue]
  exact if_neg (by omega)

theorem stringToInt_lt {value : List Char} {number : Int}
    (hvalue : stringToInt value = some number) : number < 2 ^ 31 := by
  simp only [stringToInt, Option.bind_eq_bind, Option.bind_eq_some_iff,
    Option.ite_none_right_eq_some, Bool.and_eq_true, decide_eq_true_eq,
    Option.some.injEq] at hvalue
  obtain ⟨_, _, ⟨_, _, hlt⟩, rfl⟩ := hvalue
  exact hlt

variable {environment : OpenEnvironment} {globals : TraceGlobals}

theorem openTraceArgs_params {traceArgs : TraceArgs}
    (hsuccess : (globals.openTraceArgs environment traceArgs).1 = .success) :
    (globals.openTraceArgs environment traceArgs).2.currentTraceParams =
      TraceGlobals.buildTraceParamsFromArgs environment traceArgs := by
  cases hboot : bootTraceArbShouldReturnLocked environment.boot false with
  | some bootGate =>
      simp only [TraceGlobals.openTraceArgs, hboot] at hsuccess
      exact absurd hsuccess (boot_ne_success hboot)
  | none =>
      revert hsuccess
      simp only [TraceGlobals.openTraceArgs, hboot]
      split
      · intro hfailed
        cases hfailed
      · split
        · intro hfailed
          cases hfailed
        · split
          · next hprepared => exact fun hsuccess => absurd hsuccess hprepared
          · exact fun _ => rfl

theorem parseArgs_items {args appPid : List Char} {traceParams parsed : TraceParams}
    (hparsed : (parseArgs environment args traceParams appPid).1 = some parsed) :
    (parseItems (argList args) traceParams appPid).1 = some parsed := by
  rw [parseArgs] at hparsed
  cases hitems : parseItems (argList args) traceParams appPid with
  | mk items nextPid =>
      rw [hitems] at hparsed
      cases items with
      | none => exact hparsed
      | some result =>
          dsimp only at hparsed
          split at hparsed
          · exact hparsed
          · cases hparsed

theorem openArgs_params {args : List Char}
    (hsuccess : (globals.openArgs environment args).1 = .success) :
    (parseItems (argList args) (TraceGlobals.uninitializedParams environment)
      globals.appPid).1 =
        some (globals.openArgs environment args).2.currentTraceParams := by
  apply @parseArgs_items environment
  cases hboot : bootTraceArbShouldReturnLocked environment.boot false with
  | some bootGate =>
      simp only [TraceGlobals.openArgs, hboot] at hsuccess
      exact absurd hsuccess (boot_ne_success hboot)
  | none =>
      revert hsuccess
      simp only [TraceGlobals.openArgs, hboot]
      split
      · intro hfailed
        cases hfailed
      · split
        · intro hfailed
          cases hfailed
        · split
          · intro hfailed
            cases hfailed
          · split
            · intro hfailed
              cases hfailed
            · next hparsed =>
                rw [hparsed]
                exact fun _ => rfl

/-- The size as the session keeps it: a field of 32 bits becomes a signed number. -/
theorem openTrace_fileSize {call : OpenCall} {given : Nat}
    (hsuccess : (globals.openTrace environment call).1 = .success)
    (hgiven : call.GivesFileSize given) :
    given < 2 ^ 32 ∧
      (globals.openTrace environment call).2.currentTraceParams.fileSize =
        (given : Int).bmod (2 ^ 32) := by
  cases call with
  | tagGroups tagGroups => exact hgiven.elim
  | traceArgs traceArgs =>
      obtain rfl : given = traceArgs.fileSizeLimit.toNat := hgiven
      refine ⟨traceArgs.fileSizeLimit.toNat_lt, ?_⟩
      rw [TraceGlobals.openTrace, openTraceArgs_params hsuccess]
      exact BitVec.toInt_eq_toNat_bmod traceArgs.fileSizeLimit.toBitVec
  | args args =>
      obtain ⟨value, hlast, hvalue, hpos⟩ := hgiven
      have hlt := stringToInt_lt hvalue
      have hsize := parseItems_fileSize (openArgs_params hsuccess)
      rw [hlast, Option.map_some, Option.getD_some,
        setCmdTraceIntParams_of_pos hvalue hpos] at hsize
      rw [TraceGlobals.openTrace, hsize]
      exact ⟨by omega, (Int.bmod_eq_of_le (by omega) (by omega)).symm⟩

theorem param_fileSize (settings : LoopSettings) (traceParams : TraceParams)
    (kind : LoopKind) : (kind.param settings traceParams).fileSize = traceParams.fileSize := by
  cases kind <;> rfl

theorem request_fileSize (settings : LoopSettings) {traceParams : TraceParams}
    (kind : LoopKind) (hsize : traceParams.fileSize ≠ 0) :
    (kind.request settings traceParams).fileSize =
      (traceParams.fileSize * TraceDumpParam.bytePerKb).bmod (2 ^ 32) := by
  change (kind.param settings traceParams).fileSizeThreshold.toInt = _
  rw [TraceDumpParam.fileSizeThreshold, param_fileSize, if_pos hsize]
  exact Int32.toInt_ofInt

theorem request_fileSize_default (settings : LoopSettings) {traceParams : TraceParams}
    (kind : LoopKind) (hsize : traceParams.fileSize = 0) :
    0 < (kind.request settings traceParams).fileSize := by
  change 0 < (kind.param settings traceParams).fileSizeThreshold.toInt
  rw [TraceDumpParam.fileSizeThreshold, param_fileSize, if_neg (not_not_intro hsize)]
  split <;> decide

/-- With a size the loop compares, whatever the version. -/
theorem overflows_request_iff (settings : LoopSettings) {traceParams : TraceParams}
    (kind : LoopKind) (hsize : traceParams.fileSize ≠ 0) {threshold : Int}
    (hthreshold : (kind.request settings traceParams).fileSize = threshold)
    (hpos : threshold ≠ 0) (outputFileSize : Int32) (writeLen : Int) :
    CpuRaw.overflows (kind.request settings traceParams) outputFileSize writeLen = true ↔
      threshold ≤ outputFileSize.toInt + writeLen + contentHeaderSize ∨
        CpuRaw.intMax - bufferSize < writeLen := by
  have hlimited : (traceParams.fileSize == 0) = false := by simpa using hsize
  have hchecked : ¬ (((kind.request settings traceParams).type ≠ .traceRecording ∧
      (kind.request settings traceParams).type ≠ .traceCache) ∨
        (kind.request settings traceParams).limitFileSz = false) := by
    cases kind with
    | record =>
        simp [LoopKind.request, LoopKind.param, LoopKind.isLimited,
          TraceDumpParam.loopRequest, processRecordTask, hlimited]
    | cache =>
        simp [LoopKind.request, LoopKind.param, LoopKind.isLimited,
          TraceDumpParam.loopRequest, processCacheTask]
  rw [CpuRaw.overflows, CpuRaw.isWriteFileOverflow, if_neg hchecked, hthreshold,
    if_pos hpos]
  split
  · next hreaches => exact iff_of_true rfl (Or.inl hreaches)
  · next hreaches =>
      rw [decide_eq_true_iff]
      exact ⟨Or.inr, fun hor => hor.resolve_left hreaches⟩

/-- The product of the size and 1024 is an `int`, so from 2 GB on the threshold is
another number. -/
theorem file_size_threshold_iff {call : OpenCall} {given : Nat}
    (hsuccess : (globals.openTrace environment call).1 = .success)
    (hgiven : call.GivesFileSize given) (settings : LoopSettings) (kind : LoopKind) :
    ((kind.request settings
          (globals.openTrace environment call).2.currentTraceParams).fileSize =
        (given : Int) * 1024 ∧
      ∀ (outputFileSize : Int32) (writeLen : Int),
        CpuRaw.overflows (kind.request settings
            (globals.openTrace environment call).2.currentTraceParams)
            outputFileSize writeLen = true ↔
          (given : Int) * 1024 ≤ outputFileSize.toInt + writeLen + contentHeaderSize ∨
            CpuRaw.intMax - bufferSize < writeLen) ↔
      0 < given ∧ given < 2 ^ 21 := by
  obtain ⟨hlt, hsize⟩ := openTrace_fileSize hsuccess hgiven
  generalize (globals.openTrace environment call).2.currentTraceParams = traceParams at *
  rw [Int.bmod_def] at hsize
  constructor
  · rintro ⟨hthreshold, _⟩
    by_cases hzero : traceParams.fileSize = 0
    · have hdefault := request_fileSize_default settings kind hzero
      omega
    · have hrequest := request_fileSize settings kind hzero
      rw [hthreshold, Int.bmod_def] at hrequest
      constructor <;> omega
  · rintro ⟨hpos, hsmall⟩
    have hgivenSize : traceParams.fileSize = given := by omega
    have hthreshold : (kind.request settings traceParams).fileSize =
        (given : Int) * 1024 := by
      rw [request_fileSize settings kind (by omega), hgivenSize,
        TraceDumpParam.bytePerKb]
      exact Int.bmod_eq_of_le (by omega) (by omega)
    exact ⟨hthreshold,
      overflows_request_iff settings kind (by omega) hthreshold (by omega)⟩

/-- A tracer that knows one tag. -/
def schedEnvironment : OpenEnvironment where
  allTags := [("sched".toList, ⟨0, .kernel⟩)]
  tagGroupTable := [("scene".toList, ["sched".toList])]

def loopSettings : LoopSettings where
  isRootVer := false
  totalFileSizeLimit := 0
  sliceMaxDuration := 30

theorem file_size_threshold_iff_two_mb :
    (LoopKind.record.request loopSettings (({} : TraceGlobals).openTrace schedEnvironment
          (.traceArgs { fileSizeLimit := 2048 })).2.currentTraceParams).fileSize =
        ((2048 : Nat) : Int) * 1024 ∧
      ∀ (outputFileSize : Int32) (writeLen : Int),
        CpuRaw.overflows (LoopKind.record.request loopSettings
            (({} : TraceGlobals).openTrace schedEnvironment
              (.traceArgs { fileSizeLimit := 2048 })).2.currentTraceParams)
            outputFileSize writeLen = true ↔
          ((2048 : Nat) : Int) * 1024 ≤
              outputFileSize.toInt + writeLen + contentHeaderSize ∨
            CpuRaw.intMax - bufferSize < writeLen := by
  have hgiven : (OpenCall.traceArgs { fileSizeLimit := 2048 }).GivesFileSize 2048 := rfl
  exact (file_size_threshold_iff (by decide +kernel) hgiven loopSettings .record).mpr
    ⟨by decide, by decide⟩

/-- A limit of 2 GB becomes a negative threshold, and an empty file is over it. -/
theorem two_gb_limit_is_negative :
    (({} : TraceGlobals).openTrace schedEnvironment
        (.traceArgs { fileSizeLimit := 2097152 })).1 = .success ∧
      (LoopKind.record.request loopSettings (({} : TraceGlobals).openTrace schedEnvironment
          (.traceArgs { fileSizeLimit := 2097152 })).2.currentTraceParams).fileSize =
        -2147483648 ∧
      CpuRaw.overflows (LoopKind.record.request loopSettings
          (({} : TraceGlobals).openTrace schedEnvironment
            (.traceArgs { fileSizeLimit := 2097152 })).2.currentTraceParams) 0 0 = true ∧
      ¬ ((2097152 : Int) * 1024 ≤ (0 : Int32).toInt + 0 + contentHeaderSize) := by
  decide +kernel

end FileSizeThreshold

end Hitrace
