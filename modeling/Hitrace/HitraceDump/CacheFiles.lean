import Hitrace.HitraceDump.DumpResult
import Hitrace.Library.Transition
import Hitrace.Utils.FileAgeing

namespace Hitrace

open Library

/-! Dumps in cache mode, from `hitrace_dump.cpp` and `trace_dump_executor.cpp`.  The cache
thread writes slices and clears old ones; the callers of a dump, one at a time, look for
files in `g_traceFileVec` and in `cacheTraceFiles_`. -/

namespace CacheFiles

def names (fileVec : List TraceFileInfo) : List (List Char) :=
  fileVec.map TraceFileInfo.filename

/-- The files that exist; those of the trace directory are its entries. -/
structure FileSystem where
  directory : List DirEntry := []
  elsewhere : List (List Char) := []
deriving Repr, DecidableEq

namespace FileSystem

variable (files : FileSystem)

def fileExists (path : List Char) : Bool :=
  files.directory.any (fun entry => entry.path == path) || files.elsewhere.contains path

def remove (path : List Char) : FileSystem where
  directory := files.directory.filter fun entry => entry.path ≠ path
  elsewhere := files.elsewhere.filter fun other => other ≠ path

def store (entry : DirEntry) : FileSystem :=
  { files with
    directory :=
      files.directory.filter (fun other => other.path ≠ entry.path) ++ [entry] }

/-- `rename` of a file that exists; a file of the new name is replaced. -/
def rename (old new : List Char) : FileSystem :=
  if old = new then files
  else
    { directory := (files.directory.filter fun entry => entry.path ≠ new).map fun entry =>
        if entry.path = old then
          { entry with name := new.drop traceFileDefaultDir.length }
        else entry
      elsewhere := (files.elsewhere.filter fun other => other ≠ new).map fun other =>
        if other = old then new else other }

/-- What a search asks of the file system: which files there are, and whether the rename
of one that is there succeeds. -/
def environment (renamed : Bool) : FileEnvironment where
  clockOffset := 0
  localTime := fun _ => none
  fileExists := files.fileExists
  isDirectory := fun _ => false
  renames := fun old _ => renamed && files.fileExists old
  fileSize := fun _ => none

/-- `HandleAgeing`: a file elsewhere is gone if it leaves the vector. -/
def handleAgeing (ageing : AgeingEnvironment) (fileVec : List TraceFileInfo) :
    List TraceFileInfo × FileSystem :=
  let aged := FileAgeing.handleAgeing
    { ageing with elsewhere := files.elsewhere.contains } fileVec files.directory
  (aged.1,
    { directory := aged.2
      elsewhere := files.elsewhere.filter fun other =>
        !(FileAgeing.isListed fileVec other && !FileAgeing.isListed aged.1 other) })

end FileSystem

/-- A slice that the cache thread has written and named.  `timeBuf` is the text of its
local time. -/
structure CacheSlice where
  timeBuf : List Char
  range : TimestampRange
  ordered : range.firstPageTimestamp < range.lastPageTimestamp
  clockOffset : UInt64 := 0
  ctime : Int := 0
  size : Nat

namespace CacheSlice

variable (slice : CacheSlice)

def tail : List Char :=
  slice.timeBuf ++ '@' :: toDecimal (slice.range.firstPageTimestamp / sToNs) ++
    '-' :: toDecimal
      ((slice.range.lastPageTimestamp - slice.range.firstPageTimestamp) / msToNs) ++
    ".sys".toList

def entry : DirEntry where
  name := cacheFilePrefix ++ traceSnapshotPrefix ++ slice.tail
  regular := true
  ctime := slice.ctime
  size := slice.size

def info : TraceFileInfo where
  filename := slice.entry.path
  traceStartTime := slice.clockOffset + slice.range.firstPageTimestamp / msToNs
  traceEndTime := slice.clockOffset + slice.range.lastPageTimestamp / msToNs
  fileSize := slice.size

end CacheSlice

/-- The loop of `ClearCacheTraceFileBySize`: the slices that stay listed, and the files. -/
def clearCacheFiles (fileSizeLimit : Int) (removable : List Char → Bool) :
    Int → List TraceFileInfo → FileSystem → List TraceFileInfo × FileSystem
  | _, [], files => ([], files)
  | totalCacheFileSize, info :: rest, files =>
      if totalCacheFileSize > fileSizeLimit then
        if removable info.filename && files.fileExists info.filename then
          clearCacheFiles fileSizeLimit removable (totalCacheFileSize - info.fileSize) rest
            (files.remove info.filename)
        else clearCacheFiles fileSizeLimit removable totalCacheFileSize rest files
      else (info :: rest, files)

def totalFileSize (cacheFileVec : List TraceFileInfo) : Int :=
  (cacheFileVec.map TraceFileInfo.fileSize).sum

def clearCacheTraceFileBySize (cacheFileVec : List TraceFileInfo) (fileSizeLimit : UInt64)
    (removable : List Char → Bool) (files : FileSystem) :
    List TraceFileInfo × FileSystem :=
  clearCacheFiles fileSizeLimit.toInt64.toInt removable (totalFileSize cacheFileVec)
    cacheFileVec files

/-- Where the call that holds `g_traceMutex` stands. -/
inductive Call
  | idle
  | searching (utDestTraceStartTime utDestTraceEndTime : UInt64) (coverDuration : Int32)
      (targetFiles : List TraceFileInfo)
  | returning (coverDuration : Int32) (targetFiles : List TraceFileInfo)
      (ret : TraceRetInfo)
  | returned (ret : TraceRetInfo)
deriving Repr, DecidableEq

namespace Call

def running : Call → Bool
  | .idle | .returned _ => false
  | .searching .. | .returning .. => true

def pending : Call → List TraceFileInfo
  | .idle | .returned _ => []
  | .searching _ _ _ targetFiles => targetFiles
  | .returning _ targetFiles _ => targetFiles

def outputFiles : Call → List (List Char)
  | .idle | .searching .. => []
  | .returning _ _ ret => ret.outputFiles
  | .returned ret => ret.outputFiles

end Call

/-- `sliceNames` are the names of all slices so far. -/
structure State where
  files : FileSystem := {}
  traceFileVec : List TraceFileInfo := []
  cacheTraceFiles : List TraceFileInfo := []
  sliceNames : List (List Char) := []
  call : Call := .idle
deriving Repr, DecidableEq

/-- A dump is refused, or ages the files and searches the vector, then the slices, and
returns what it found file by file. -/
inductive Label
  | appendSlice (slice : CacheSlice)
  | clearCacheTraceFileBySize (fileSizeLimit : UInt64) (removable : List Char → Bool)
  | refuseDump (errorCode : TraceErrorCode)
  | beginDump (ageing : AgeingEnvironment) (utDestTraceStartTime utDestTraceEndTime : UInt64)
  | getCacheTraceFiles
  | returnFile (renamed : Bool)
  | finishDump

/-- The end of `SearchTraceFiles` and of `GetFileInCache`. -/
def getFileInCache (coverDuration : Int32) (ret : TraceRetInfo) : TraceRetInfo :=
  { ret with
    coverDuration := ret.coverDuration + coverDuration
    errorCode := if ret.outputFiles.isEmpty then .outOfTime else .success }

namespace State

variable (state : State)

def appendSlice (slice : CacheSlice) : State :=
  { state with
    files := state.files.store slice.entry
    cacheTraceFiles := state.cacheTraceFiles ++ [slice.info]
    sliceNames := slice.info.filename :: state.sliceNames }

def clearCache (fileSizeLimit : UInt64) (removable : List Char → Bool) : State :=
  let cleared := clearCacheTraceFileBySize state.cacheTraceFiles fileSizeLimit removable
    state.files
  { state with cacheTraceFiles := cleared.1, files := cleared.2 }

def beginDump (ageing : AgeingEnvironment)
    (utDestTraceStartTime utDestTraceEndTime : UInt64) : State :=
  let aged := state.files.handleAgeing ageing state.traceFileVec
  let found := getTraceFileFromVec (aged.2.environment true) utDestTraceStartTime
    utDestTraceEndTime aged.1
  { state with
    files := aged.2
    traceFileVec := aged.1
    call := .searching utDestTraceStartTime utDestTraceEndTime found.1 found.2 }

def searchCache (utDestTraceStartTime utDestTraceEndTime : UInt64) (coverDuration : Int32)
    (targetFiles : List TraceFileInfo) : State :=
  let found := getTraceFileFromVec (state.files.environment true) utDestTraceStartTime
    utDestTraceEndTime state.cacheTraceFiles
  { state with call := .returning (coverDuration + found.1) (targetFiles ++ found.2) {} }

def returnFile (renamed : Bool) (coverDuration : Int32) (file : TraceFileInfo)
    (rest : List TraceFileInfo) (ret : TraceRetInfo) : State :=
  let environment := state.files.environment renamed
  let recorded := returnTargetFile environment file state.traceFileVec ret
  { state with
    files :=
      if (findWord cacheFilePrefix file.filename).isSome then
        state.files.rename file.filename (environment.renameCacheFile file.filename)
      else state.files
    traceFileVec := recorded.1
    call := .returning coverDuration rest recorded.2 }

def step : Label → Option State
  | .appendSlice slice =>
      if slice.info.filename ∈ state.sliceNames then none
      else some (state.appendSlice slice)
  | .clearCacheTraceFileBySize fileSizeLimit removable =>
      some (state.clearCache fileSizeLimit removable)
  | .refuseDump errorCode =>
      if state.call.running then none
      else some { state with call := .returned { errorCode } }
  | .beginDump ageing utDestTraceStartTime utDestTraceEndTime =>
      if state.call.running then none
      else some (state.beginDump ageing utDestTraceStartTime utDestTraceEndTime)
  | .getCacheTraceFiles =>
      match state.call with
      | .searching utDestTraceStartTime utDestTraceEndTime coverDuration targetFiles =>
          some (state.searchCache utDestTraceStartTime utDestTraceEndTime coverDuration
            targetFiles)
      | _ => none
  | .returnFile renamed =>
      match state.call with
      | .returning coverDuration (file :: rest) ret =>
          some (state.returnFile renamed coverDuration file rest ret)
      | _ => none
  | .finishDump =>
      match state.call with
      | .returning coverDuration [] ret =>
          some { state with call := .returned (getFileInCache coverDuration ret) }
      | _ => none

end State

/-- The cache thread has written nothing yet. -/
def machine : Machine State Label where
  init state := (names state.traceFileVec).Nodup ∧ state.cacheTraceFiles = [] ∧
    state.sliceNames = [] ∧ state.call = .idle
  step := State.step

end CacheFiles

end Hitrace
