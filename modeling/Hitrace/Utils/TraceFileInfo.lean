import Hitrace.Utils.TraceFileUtils

namespace Hitrace

/-! The records of trace files and their names, from `utils/trace_file_utils.cpp`. -/

def sToMs : UInt64 := 1000

def msToNs : UInt64 := 1000000

def sToNs : UInt64 := 1000000000

def traceSnapshotPrefix : List Char := "trace_".toList

def cacheFilePrefix : List Char := "cache_".toList

/-- `isNewFile` belongs to recording and is left out. -/
structure TraceFileInfo where
  filename : List Char := []
  traceStartTime : UInt64 := 0
  traceEndTime : UInt64 := 0
  fileSize : Int := 0
  ctime : Int := 0
deriving Repr, DecidableEq

structure TimestampRange where
  firstPageTimestamp : UInt64
  lastPageTimestamp : UInt64
deriving Repr, DecidableEq

/-- What the clocks and the file system answer to one call.  `clockOffset` is
`utNowMs - btNowMs`; `localTime` is `localtime_r` with its `strftime` text. -/
structure FileEnvironment where
  clockOffset : UInt64
  localTime : UInt64 → Option (List Char)
  fileExists : List Char → Bool
  isDirectory : List Char → Bool
  renames : List Char → List Char → Bool
  fileSize : List Char → Option Int

/-- `std::string::find`. -/
def findWord (word : List Char) : List Char → Option Nat
  | [] => if word.isEmpty then some 0 else none
  | head :: tail =>
      if word.isPrefixOf (head :: tail) then some 0
      else (findWord word tail).map (· + 1)

/-- `path.find_last_of("/") + 1`. -/
def baseNameStart (path : List Char) : Nat :=
  path.length - (path.reverse.takeWhile (· ≠ '/')).length

def toDecimal (number : UInt64) : List Char :=
  (toString number.toNat).toList

namespace FileEnvironment

variable (environment : FileEnvironment)

def convertPageTraceTimeToUtTimeMs (pageTraceTime : UInt64) : UInt64 :=
  environment.clockOffset + pageTraceTime / msToNs

/-- The empty name is the failure. -/
def regenerateTraceFileName (fileName : List Char)
    (firstPageTraceTime traceDuration : UInt64) (outputPath : List Char) :
    List Char :=
  let index := findWord traceSnapshotPrefix fileName
  if index.isNone && outputPath.isEmpty then []
  else if fileName = outputPath then fileName
  else
    let utFirstPageTraceTimeMs :=
      environment.convertPageTraceTimeToUtTimeMs firstPageTraceTime
    match environment.localTime (utFirstPageTraceTimeMs / sToMs) with
    | none => []
    | some timeBuf =>
        let tail := timeBuf ++ '@' :: toDecimal (firstPageTraceTime / sToNs) ++
          '-' :: toDecimal traceDuration ++ ".sys".toList
        match index with
        | some index => fileName.take index ++ traceSnapshotPrefix ++ tail
        | none => if environment.isDirectory outputPath then outputPath ++ tail else []

/-- The new name, when the file has it. -/
def renameTraceFile (fileName : List Char) (range : TimestampRange)
    (outputPath : List Char) : Option (List Char) :=
  if range.firstPageTimestamp ≥ range.lastPageTimestamp then none
  else
    let traceDuration :=
      (range.lastPageTimestamp - range.firstPageTimestamp) / msToNs
    let newFileName := environment.regenerateTraceFileName fileName
      range.firstPageTimestamp traceDuration outputPath
    if newFileName.isEmpty then none
    else if environment.renames fileName newFileName then some newFileName
    else none

def getFileSize (filePath : List Char) : Int :=
  (environment.fileSize filePath).getD (-1)

def setFileInfo (isFileExist : Bool) (outPath : List Char) (range : TimestampRange)
    (outputPath : List Char := []) : Option TraceFileInfo :=
  let newFileName :=
    if isFileExist then environment.renameTraceFile outPath range outputPath
    else some outPath
  newFileName.map fun filename =>
    { filename
      traceStartTime :=
        environment.convertPageTraceTimeToUtTimeMs range.firstPageTimestamp
      traceEndTime :=
        environment.convertPageTraceTimeToUtTimeMs range.lastPageTimestamp
      fileSize := if isFileExist then environment.getFileSize filename else 0 }

def renameCacheFile (cacheFile : List Char) : List Char :=
  let dirPath := cacheFile.take (baseNameStart cacheFile)
  let fileName := cacheFile.drop (baseNameStart cacheFile)
  match findWord cacheFilePrefix fileName with
  | none => cacheFile
  | some pos =>
      let newFilePath := dirPath ++ fileName.drop (pos + cacheFilePrefix.length)
      if environment.renames cacheFile newFilePath then newFilePath else cacheFile

theorem setFileInfo_missing (outPath : List Char) (range : TimestampRange) :
    environment.setFileInfo false outPath range =
      some
        { filename := outPath
          traceStartTime :=
            environment.convertPageTraceTimeToUtTimeMs range.firstPageTimestamp
          traceEndTime :=
            environment.convertPageTraceTimeToUtTimeMs range.lastPageTimestamp } :=
  rfl

theorem setFileInfo_range {isFileExist : Bool} {outPath outputPath : List Char}
    {range : TimestampRange} {info : TraceFileInfo}
    (hinfo : environment.setFileInfo isFileExist outPath range outputPath =
      some info) :
    info.traceStartTime =
        environment.convertPageTraceTimeToUtTimeMs range.firstPageTimestamp ∧
      info.traceEndTime =
        environment.convertPageTraceTimeToUtTimeMs range.lastPageTimestamp := by
  obtain ⟨filename, _, rfl⟩ := Option.map_eq_some_iff.mp hinfo
  exact ⟨rfl, rfl⟩

theorem convertPageTraceTimeToUtTimeMs_inj {left right : UInt64} :
    environment.convertPageTraceTimeToUtTimeMs left =
        environment.convertPageTraceTimeToUtTimeMs right ↔
      left / msToNs = right / msToNs := by
  rw [convertPageTraceTimeToUtTimeMs, convertPageTraceTimeToUtTimeMs]
  exact UInt64.add_right_inj _

theorem convertPageTraceTimeToUtTimeMs_sub (left right : UInt64) :
    environment.convertPageTraceTimeToUtTimeMs left -
        environment.convertPageTraceTimeToUtTimeMs right =
      left / msToNs - right / msToNs := by
  rw [convertPageTraceTimeToUtTimeMs, convertPageTraceTimeToUtTimeMs]
  generalize left / msToNs = last
  generalize right / msToNs = first
  apply UInt64.toBitVec_inj.mp
  simp only [UInt64.toBitVec_sub, UInt64.toBitVec_add]
  bv_omega

end FileEnvironment

end Hitrace
