import Hitrace.TraceFactory.CpuRaw

namespace Hitrace

open Library TraceContent CpuRaw

structure TraceDumpRet where
  code : TraceErrorCode := .unset
  outputFile : List Char := []
  fileSize : Int := 0
  traceStartTime : UInt64 := 0
  traceEndTime : UInt64 := 0
deriving Repr, DecidableEq

/-- The raw trace of the kernel the device runs. -/
inductive RawSource
  | linux (pipes : List CachePipe)
  | hm (pipe : CachePipe)
deriving Repr, DecidableEq

namespace RawSource

def isHm : RawSource → Bool
  | .linux _ => false
  | .hm _ => true

def pipes : RawSource → List CachePipe
  | .linux pipes => pipes
  | .hm pipe => [pipe]

end RawSource

/-- `open` of the path with what the environment holds for the file; the empty
path is never opened. -/
def traceSourceFactory (traceFilePath : List Char) (environment : TraceIo) :
    TraceIo :=
  { environment with
    traceFilePath
    fdValid := !traceFilePath.isEmpty && environment.fdValid
    file := {} }

/-! `AsyncTraceReadStrategy` prepares no content, so its execution is its core. -/

/-- The reader the factory of this kernel makes, run. -/
def getTraceCpuRawRead (source : RawSource) (request : TraceDumpRequest)
    (taskBuffers : Multimap UInt64 BufferBlock) : Bool × ReadState :=
  match source with
  | .linux pipes => traceCpuRawReadLinux request pipes taskBuffers
  | .hm pipe => traceCpuRawReadHM request pipe taskBuffers

/-- `traceFile` is the name `GenerateTraceFileNameByTraceTime` makes up. -/
def asyncTraceRead (source : RawSource) (traceFile : List Char)
    (request : TraceDumpRequest) (taskBuffers : Multimap UInt64 BufferBlock) :
    TraceDumpRet × Multimap UInt64 BufferBlock :=
  match getTraceCpuRawRead source request taskBuffers with
  | (false, state) => ({ code := state.status.dumpStatus }, state.taskBuffers)
  | (true, state) =>
      ({ code := state.status.dumpStatus
         fileSize := getTaskTotalUsedBytes state.taskBuffers request.taskId
         traceStartTime := state.status.firstPageTimeStamp
         traceEndTime := state.status.lastPageTimeStamp
         outputFile := copyFileName traceFile },
        state.taskBuffers)

/-! `AsyncTraceWriteStrategy` surrounds its core with the common contents. -/

inductive EventFmt
  | saved (source : Option (List SourceRead))
  | inline (events : List EventFile)
deriving Repr, DecidableEq

/-- What the common contents of a dump are written from. -/
structure TraceContents where
  is32Bit : Bool
  cpuNums : Int
  baseInfo : BaseInfo
  eventFmt : EventFmt
  cmdLines : ListSource
  processes : Option (List (List UInt8))
  tgids : ListSource
  headerPage : Option (List SourceRead)
  printkFormats : Option (List SourceRead)
deriving Repr, DecidableEq

def traceEventFmt (isHm : Bool) (eventFmt : EventFmt) (io : TraceIo) :
    Bool × TraceIo :=
  match eventFmt with
  | .saved source =>
      writeTraceData ContentType.eventsFormat (writeTraceDataContent isHm source) io
  | .inline events => writeTraceContentInline events io

def traceCmdLines (isHm : Bool) (source : ListSource)
    (processes : Option (List (List UInt8))) (io : TraceIo) : Bool × TraceIo :=
  writeTraceData ContentType.cmdLines (cmdLinesContent isHm source processes) io

def traceTgids (isHm : Bool) (source : ListSource) (io : TraceIo) :
    Bool × TraceIo :=
  writeTraceData ContentType.tgids (tgidsContent isHm source) io

/-- `TraceHeaderPageHM` writes nothing. -/
def traceHeaderPage (isHm : Bool) (source : Option (List SourceRead))
    (io : TraceIo) : Bool × TraceIo :=
  if isHm then (true, io)
  else
    writeTraceData ContentType.headerPage (writeTraceDataContent isHm source) io

/-- `TracePrintkFmtHM` writes nothing. -/
def tracePrintkFmt (isHm : Bool) (source : Option (List SourceRead))
    (io : TraceIo) : Bool × TraceIo :=
  if isHm then (true, io)
  else
    writeTraceData ContentType.printkFormats (writeTraceDataContent isHm source) io

def onPre (isHm : Bool) (contents : TraceContents) (io : TraceIo) : TraceIo :=
  let io := { io with outputFileSize := 0 }
  let io := (traceFileHdr isHm contents.is32Bit contents.cpuNums io).2
  let io := (traceBaseInfo contents.baseInfo io).2
  (traceEventFmt isHm contents.eventFmt io).2

def onPost (isHm : Bool) (contents : TraceContents) (io : TraceIo) : TraceIo :=
  let io := (traceCmdLines isHm contents.cmdLines contents.processes io).2
  let io := (traceTgids isHm contents.tgids io).2
  let io := (traceHeaderPage isHm contents.headerPage io).2
  (tracePrintkFmt isHm contents.printkFormats io).2

def asyncTraceWriteDoCore (isHm : Bool) (taskId : UInt64)
    (taskBuffers : Multimap UInt64 BufferBlock) (io : TraceIo) :
    Bool × TraceDumpRet × Multimap UInt64 BufferBlock × TraceIo :=
  let cpuRawWrite :=
    if isHm then traceCpuRawWriteHM taskId taskBuffers io
    else traceCpuRawWriteLinux taskId taskBuffers io
  match cpuRawWrite with
  | (false, taskBuffers, io) =>
      (false, { code := .writeTraceInfoError }, taskBuffers, io)
  | (true, taskBuffers, io) => (true, { code := .success }, taskBuffers, io)

def asyncTraceWrite (isHm : Bool) (contents : TraceContents) (taskId : UInt64)
    (taskBuffers : Multimap UInt64 BufferBlock) (io : TraceIo) :
    TraceDumpRet × Multimap UInt64 BufferBlock × TraceIo :=
  match asyncTraceWriteDoCore isHm taskId taskBuffers (onPre isHm contents io) with
  | (false, ret, taskBuffers, io) => (ret, taskBuffers, io)
  | (true, ret, taskBuffers, io) => (ret, taskBuffers, onPost isHm contents io)

/-- `SnapshotTraceDumpStrategy`, which writes the pipes straight into the file. -/
def snapshotTraceDump (isHm : Bool) (contents : TraceContents)
    (request : TraceDumpRequest) (pipes : List RawPipe) (io : TraceIo) :
    TraceDumpRet × TraceIo :=
  match traceCpuRaw isHm request pipes (onPre isHm contents io) with
  | (false, content) => ({ code := content.status.dumpStatus }, content.io)
  | (true, content) =>
      ({ code := content.status.dumpStatus
         traceStartTime := content.status.firstPageTimeStamp
         traceEndTime := content.status.lastPageTimeStamp
         outputFile := copyFileName content.io.traceFilePath },
        onPost isHm contents content.io)

end Hitrace
