import Hitrace.TraceFactory.CaptureAgreement
import Hitrace.TracedumpExecutor.TaskWindow
import Hitrace.Utils.TraceFileInfo

namespace Hitrace

open Library CpuRaw

/-! What the parent makes of a finished dump: the record of its file, and the
answer to the caller. -/

def durationTolerance : UInt64 := 100

/-- `static_cast<int32_t>`. -/
def toInt32 (number : UInt64) : Int32 :=
  number.toUInt32.toInt32

theorem toInt32_eq (number : UInt64) : toInt32 number = Int32.ofNat number.toNat := by
  apply Int32.toBitVec_inj.mp
  rfl

/-- `mode`, `coverRatio` and `tags` are filled in later, by `LoadDumpRet`. -/
structure TraceRetInfo where
  errorCode : TraceErrorCode := .success
  isOverflowControl : Bool := false
  outputFiles : List (List Char) := []
  fileSize : Int := 0
  coverDuration : Int32 := 0
deriving Repr, DecidableEq

/-- The globals of `hitrace_dump.cpp` that carry a dump's result. -/
structure DumpGlobals where
  traceFileVec : List TraceFileInfo := []
  utDestTraceStartTime : UInt64 := 0
  utDestTraceEndTime : UInt64 := 0
  firstPageTimestamp : UInt64 := UInt64.ofNat (UInt64.size - 1)
  lastPageTimestamp : UInt64 := 0
  dumpStatus : TraceErrorCode := .unset
deriving Repr, DecidableEq

namespace DumpGlobals

def range (globals : DumpGlobals) : TimestampRange :=
  ⟨globals.firstPageTimestamp, globals.lastPageTimestamp⟩

/-- The end of `EpollWaitforChildProcess`. -/
def epollWaitforChildProcess (globals : DumpGlobals) (retVal : TraceDumpRet) :
    DumpGlobals :=
  { globals with
    dumpStatus := retVal.code
    firstPageTimestamp := retVal.traceStartTime
    lastPageTimestamp := retVal.traceEndTime }

/-- What `WaitSyncDumpRetLoop` takes over from the reply. -/
def waitSyncDumpRet (globals : DumpGlobals) (task : TraceDumpTask) : DumpGlobals :=
  { globals with
    firstPageTimestamp := task.traceStartTime
    lastPageTimestamp := task.traceEndTime
    dumpStatus := task.code }

end DumpGlobals

section Results

variable (environment : FileEnvironment)

/-- The files of the list that exist and meet the wanted time, and how much of it
they cover. -/
def getTraceFileFromVec (inputTraceStartTime inputTraceEndTime : UInt64) :
    List TraceFileInfo → Int32 × List TraceFileInfo
  | [] => (0, [])
  | file :: rest =>
      let utTargetStartTimeMs := inputTraceStartTime * sToMs
      let utTargetEndTimeMs := inputTraceEndTime * sToMs
      let (coverDuration, targetFiles) :=
        getTraceFileFromVec inputTraceStartTime inputTraceEndTime rest
      if environment.fileExists file.filename ∧
          file.traceEndTime ≥ utTargetStartTimeMs ∧
          file.traceStartTime ≤ utTargetEndTimeMs ∧
          file.traceEndTime - file.traceStartTime < 2000 * sToMs then
        (toInt32 (min file.traceEndTime (utTargetEndTimeMs + durationTolerance) -
            max file.traceStartTime (utTargetStartTimeMs - durationTolerance)) +
          coverDuration, file :: targetFiles)
      else (coverDuration, targetFiles)

/-- A cache file becomes a snapshot file and enters the vector. -/
def returnTargetFile (file : TraceFileInfo) (vec : List TraceFileInfo)
    (ret : TraceRetInfo) : List TraceFileInfo × TraceRetInfo :=
  let (file, vec) :=
    if (findWord cacheFilePrefix file.filename).isSome then
      let renamed :=
        { file with filename := environment.renameCacheFile file.filename }
      (renamed, vec ++ [renamed])
    else (file, vec)
  (vec,
    { ret with
      outputFiles := ret.outputFiles ++ [file.filename]
      fileSize := ret.fileSize + file.fileSize })

def returnTargetFiles : List TraceFileInfo → List TraceFileInfo → TraceRetInfo →
    List TraceFileInfo × TraceRetInfo
  | [], vec, ret => (vec, ret)
  | file :: rest, vec, ret =>
      let (vec, ret) := returnTargetFile environment file vec ret
      returnTargetFiles rest vec ret

theorem returnTargetFile_ret (file : TraceFileInfo) (vec : List TraceFileInfo)
    (ret : TraceRetInfo) :
    let returned := (returnTargetFile environment file vec ret).2
    returned.fileSize = ret.fileSize + file.fileSize ∧
      returned.isOverflowControl = ret.isOverflowControl ∧
      returned.coverDuration = ret.coverDuration ∧
      returned.outputFiles.length = ret.outputFiles.length + 1 := by
  cases hcache : (findWord cacheFilePrefix file.filename).isSome with
  | true => simp [returnTargetFile, hcache]
  | false => simp [returnTargetFile, hcache]

theorem returnTargetFiles_ret (files vec : List TraceFileInfo) (ret : TraceRetInfo) :
    let returned := (returnTargetFiles environment files vec ret).2
    returned.fileSize = ret.fileSize + (files.map TraceFileInfo.fileSize).sum ∧
      returned.isOverflowControl = ret.isOverflowControl ∧
      returned.coverDuration = ret.coverDuration ∧
      returned.outputFiles.length = ret.outputFiles.length + files.length := by
  induction files generalizing vec ret with
  | nil => simp [returnTargetFiles]
  | cons file rest ih =>
      obtain ⟨hsize, hflag, hduration, houtput⟩ := returnTargetFile_ret environment file
        vec ret
      rw [returnTargetFiles]
      generalize returnTargetFile environment file vec ret = returned at *
      obtain ⟨hrestSize, hrestFlag, hrestDuration, hrestOutput⟩ := ih returned.1 returned.2
      refine ⟨?_, hrestFlag.trans hflag, hrestDuration.trans hduration, ?_⟩
      · rw [hrestSize, hsize, List.map_cons, List.sum_cons, Int.add_assoc]
      · rw [hrestOutput, houtput, List.length_cons, Nat.add_right_comm, Nat.add_assoc]

def searchTraceFiles (cacheFiles : List TraceFileInfo) (globals : DumpGlobals)
    (ret : TraceRetInfo) : DumpGlobals × TraceRetInfo :=
  let (duration, files) := getTraceFileFromVec environment
    globals.utDestTraceStartTime globals.utDestTraceEndTime globals.traceFileVec
  let (cacheDuration, caches) := getTraceFileFromVec environment
    globals.utDestTraceStartTime globals.utDestTraceEndTime cacheFiles
  let (traceFileVec, ret) :=
    returnTargetFiles environment (files ++ caches) globals.traceFileVec ret
  ({ globals with traceFileVec },
    { ret with coverDuration := ret.coverDuration + (duration + cacheDuration) })

/-- A file enters the vector and the answer. -/
def recordFile (info : TraceFileInfo) (globals : DumpGlobals) (ret : TraceRetInfo) :
    DumpGlobals × TraceRetInfo :=
  ({ globals with traceFileVec := globals.traceFileVec ++ [info] },
    { ret with
      outputFiles := ret.outputFiles ++ [info.filename]
      coverDuration := ret.coverDuration +
        toInt32 (info.traceEndTime - info.traceStartTime)
      fileSize := ret.fileSize + info.fileSize })

/-- The record of a synchronous dump, when it makes one. -/
def syncFileInfo (reOutPath outputPath : List Char) (globals : DumpGlobals) :
    Option TraceFileInfo :=
  if globals.dumpStatus ≠ .success then none
  else if !environment.fileExists reOutPath then none
  else environment.setFileInfo true reOutPath globals.range outputPath

theorem syncFileInfo_range {reOutPath outputPath : List Char} {globals : DumpGlobals}
    {info : TraceFileInfo}
    (hinfo : syncFileInfo environment reOutPath outputPath globals = some info) :
    globals.firstPageTimestamp < globals.lastPageTimestamp ∧
      info.traceStartTime = environment.convertPageTraceTimeToUtTimeMs
        globals.firstPageTimestamp ∧
      info.traceEndTime = environment.convertPageTraceTimeToUtTimeMs
        globals.lastPageTimestamp := by
  rw [syncFileInfo] at hinfo
  split at hinfo
  · cases hinfo
  · split at hinfo
    · cases hinfo
    · have hrange := environment.setFileInfo_range hinfo
      refine ⟨?_, hrange⟩
      obtain ⟨filename, hrename, _⟩ := Option.map_eq_some_iff.mp hinfo
      rw [if_pos rfl, FileEnvironment.renameTraceFile] at hrename
      split at hrename
      · cases hrename
      · next hless => exact UInt64.not_le.mp hless

/-- Deletions of the output file are left out. -/
def handleDumpResult (cacheFiles : List TraceFileInfo)
    (reOutPath outputPath : List Char) (globals : DumpGlobals) (ret : TraceRetInfo) :
    TraceErrorCode × DumpGlobals × TraceRetInfo :=
  let (globals, ret) := searchTraceFiles environment cacheFiles globals ret
  let (globals, ret) :=
    match syncFileInfo environment reOutPath outputPath globals with
    | none => (globals, ret)
    | some info => recordFile info globals ret
  let code : TraceErrorCode :=
    if ret.outputFiles.isEmpty then
      if globals.dumpStatus ≠ .success then globals.dumpStatus else .fileError
    else .success
  (code, globals, ret)

def handleAsyncDumpResult (cacheFiles : List TraceFileInfo) (task : TraceDumpTask)
    (globals : DumpGlobals) (ret : TraceRetInfo) : DumpGlobals × TraceRetInfo :=
  let (globals, ret) := searchTraceFiles environment cacheFiles globals ret
  let (globals, ret) :=
    if task.code = .success then
      let (globals, ret) :=
        match environment.setFileInfo false task.outputFile globals.range with
        | none => (globals, ret)
        | some info =>
            recordFile { info with fileSize := task.fileSize } globals ret
      (globals, { ret with errorCode := task.code })
    else
      (globals,
        { ret with
          errorCode := if ret.outputFiles.isEmpty then task.code else .success })
  (globals,
    { ret with
      isOverflowControl := ret.isOverflowControl || task.isFileSizeOverLimit ||
        decide (ret.fileSize > task.fileSizeLimit) })

/-- `SubmitTaskAndWaitReturn`, once the reply is there. -/
def submitTaskAndWaitReturn (cacheFiles : List TraceFileInfo) (reply : TraceDumpTask)
    (globals : DumpGlobals) (ret : TraceRetInfo) : DumpGlobals × TraceRetInfo :=
  handleAsyncDumpResult environment cacheFiles reply (globals.waitSyncDumpRet reply)
    ret

/-- `ProcessDumpSync`, once the child's result is there. -/
def processDumpSync (cacheFiles : List TraceFileInfo) (retVal : TraceDumpRet)
    (outputPath : List Char) (globals : DumpGlobals) (ret : TraceRetInfo) :
    TraceErrorCode × DumpGlobals × TraceRetInfo :=
  handleDumpResult environment cacheFiles retVal.outputFile outputPath
    (globals.epollWaitforChildProcess retVal) ret

end Results

end Hitrace
