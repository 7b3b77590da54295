import Hitrace.Define
import Hitrace.TraceFactory.BufferManager
import Hitrace.TraceFactory.TraceContent

namespace Hitrace

open Library

/-- One page of a `trace_pipe_raw`; it starts with the time of its first event.
`pageHeaderSize` is as in `SourceRead`. -/
structure RawPage where
  bytes : List UInt8
  pageHeaderSize : UInt64
  size : 8 ≤ bytes.length ∧ bytes.length ≤ pageSize
deriving Repr, DecidableEq

def RawPage.pageTraceTime (page : RawPage) : UInt64 :=
  UInt64.ofNat (LittleEndian.decode (page.bytes.take 8))

structure RawPipe where
  opens : Bool
  pages : List RawPage
deriving Repr, DecidableEq

namespace CpuRaw

open TraceContent

/-- What `IsCurrentTracePageValid` answers: past the window, before it, in it. -/
inductive PageValid
  | late
  | early
  | hit
deriving Repr, DecidableEq

def isCurrentTracePageValid (pageTraceTime traceStartTime traceEndTime : UInt64) :
    PageValid :=
  if pageTraceTime > traceEndTime then .late
  else if pageTraceTime < traceStartTime then .early
  else .hit

def pageValid (request : TraceDumpRequest) (page : RawPage) : PageValid :=
  isCurrentTracePageValid page.pageTraceTime request.traceStartTime
    request.traceEndTime

/-- The members a cpu-raw object carries from one pipe to the next. -/
structure RawStatus where
  dumpStatus : TraceErrorCode := .unset
  firstPageTimeStamp : UInt64 := UInt64.ofNat (UInt64.size - 1)
  lastPageTimeStamp : UInt64 := 0
deriving Repr, DecidableEq

def updateFirstLastPageTimeStamp (pageTraceTime : UInt64)
    (printFirstPageTime : Bool) (status : RawStatus) : RawStatus :=
  { status with
    lastPageTimeStamp := max status.lastPageTimeStamp pageTraceTime
    firstPageTimeStamp :=
      if printFirstPageTime then status.firstPageTimeStamp
      else min status.firstPageTimeStamp pageTraceTime }

/-! Straight from the pipe into the file. -/

def kbPerMb : Int := 1024

def defaultFileSize : Int := 100 * 1024

def intMax : Int := 2147483647

def isWriteFileOverflow (request : TraceDumpRequest) (outputFileSize : Int32)
    (writeLen fileSizeThreshold : Int) : Bool :=
  if (request.type ≠ .traceRecording ∧ request.type ≠ .traceCache) ∨
      request.limitFileSz = false then false
  else if outputFileSize.toInt + writeLen + contentHeaderSize ≥ fileSizeThreshold then
    true
  else decide (writeLen > intMax - bufferSize)

structure PipeState where
  buffer : List UInt8 := []
  pageChkFailedTime : Nat := 0
  printFirstPageTime : Bool := false
  readLen : Nat := 0
  writeLen : Int := 0
  isOverFlow : Bool := false
  status : RawStatus
  io : TraceIo
deriving Repr, DecidableEq

/-- What follows the inner loop: the buffer goes out, then the size is tested. -/
def PipeState.flush (request : TraceDumpRequest) (state : PipeState) :
    Bool × PipeState :=
  let (writeLen, io) := doWriteTraceData state.buffer state.writeLen state.io
  let threshold :=
    if request.fileSize ≠ 0 then request.fileSize else defaultFileSize * kbPerMb
  let overflow := isWriteFileOverflow request io.outputFileSize writeLen threshold
  (overflow,
    { state with
      buffer := []
      readLen := state.readLen + state.buffer.length
      writeLen
      io
      isOverFlow := state.isOverFlow || overflow })

def PipeState.flushFull (request : TraceDumpRequest) (state : PipeState) :
    Bool × PipeState :=
  if state.buffer.length ≤ bufferSize - pageSize then (false, state)
  else state.flush request

def PipeState.setDumpStatus (state : PipeState) (dumpStatus : TraceErrorCode) :
    PipeState :=
  { state with status := { state.status with dumpStatus } }

def PipeState.late (state : PipeState) (page : RawPage) : PipeState :=
  { state with
    buffer := state.buffer ++ if state.printFirstPageTime then page.bytes else []
    status := { state.status with dumpStatus := .outOfTime } }

def PipeState.hit (isHm : Bool) (state : PipeState) (page : RawPage) : PipeState :=
  { state with
    buffer := state.buffer ++ page.bytes
    pageChkFailedTime := failedTime isHm page.pageHeaderSize
      state.pageChkFailedTime
    printFirstPageTime := true
    status := updateFirstLastPageTimeStamp page.pageTraceTime
      state.printFirstPageTime state.status }

/-- The loop of `WriteTracePipeRawData` around `ReadTracePipeRawLoop`, over the
pages that are still to come. -/
def writeTracePipeRawLoop (isHm : Bool) (request : TraceDumpRequest) :
    List RawPage → PipeState → PipeState
  | [], state =>
      match state.flushFull request with
      | (true, state) => state
      | (false, state) => ((state.setDumpStatus .success).flush request).2
  | page :: rest, state =>
      match state.flushFull request with
      | (true, state) => state
      | (false, state) =>
          match pageValid request page with
          | .late => ((state.late page).flush request).2
          | .early => writeTracePipeRawLoop isHm request rest state
          | .hit =>
              if (state.hit isHm page).pageChkFailedTime ≥ 2 then
                ((state.hit isHm page).flush request).2
              else writeTracePipeRawLoop isHm request rest (state.hit isHm page)

/-- The members of an `ITraceCpuRawContent` object, and its output file. -/
structure RawContent where
  status : RawStatus := {}
  isOverFlow : Bool := false
  io : TraceIo
deriving Repr, DecidableEq

def writeTracePipeRawData (isHm : Bool) (request : TraceDumpRequest)
    (pipe : RawPipe) (cpuIdx : Nat) (content : RawContent) : Bool × RawContent :=
  let (found, io) := content.io.isFileExist
  if !found || !pipe.opens then (false, { content with io })
  else
    let (written, rawtraceHdr, io) :=
      doWriteTraceContentHeader {} (ContentType.cpuRaw + UInt8.ofNat cpuIdx) io
    if !written then (false, { content with io })
    else
      let state := writeTracePipeRawLoop isHm request pipe.pages
        { status := content.status, isOverFlow := content.isOverFlow, io }
      let (_, io) := updateTraceContentHeader rawtraceHdr
        (UInt32.ofNat state.writeLen.toNat) state.io
      let dumpStatus :=
        if state.readLen > 0 then
          if state.writeLen > 0 then .success else .writeTraceInfoError
        else state.status.dumpStatus
      (true, ⟨{ state.status with dumpStatus }, state.isOverFlow, io⟩)

def writePipes (isHm : Bool) (request : TraceDumpRequest) :
    List RawPipe → Nat → RawContent → Bool × RawContent
  | [], _, content => (true, content)
  | pipe :: rest, cpuIdx, content =>
      match writeTracePipeRawData isHm request pipe cpuIdx content with
      | (false, content) => (false, content)
      | (true, content) => writePipes isHm request rest (cpuIdx + 1) content

def traceCpuRaw (isHm : Bool) (request : TraceDumpRequest) (pipes : List RawPipe)
    (io : TraceIo) : Bool × RawContent :=
  let (written, content) := writePipes isHm request pipes 0 { io }
  (written && decide (content.status.dumpStatus = .success), content)

/-- One pipe a processor. -/
def traceCpuRawLinux (request : TraceDumpRequest) (pipes : List RawPipe)
    (io : TraceIo) : Bool × RawContent :=
  traceCpuRaw false request pipes io

def traceCpuRawHM (request : TraceDumpRequest) (pipe : RawPipe) (io : TraceIo) :
    Bool × RawContent :=
  traceCpuRaw true request [pipe] io

/-! From the pipe into blocks of memory. -/

/-- A pipe and the answers `AllocateBlock` gives while it is read; once they are
used up the manager refuses. -/
structure CachePipe extends RawPipe where
  grants : List Bool
deriving Repr, DecidableEq

structure CopyState where
  block : BufferBlock
  blockReadSz : Nat := 0
  pageChkFailedTime : Nat
  printFirstPageTime : Bool
  status : RawStatus
deriving Repr, DecidableEq

def CopyState.append (state : CopyState) (page : RawPage) : CopyState :=
  { state with block := (state.block.append page.bytes).getD state.block }

/-- Keep the page that lies past the window, and stop. -/
def CopyState.late (state : CopyState) (page : RawPage) : CopyState :=
  { state.append page with
    blockReadSz := state.blockReadSz +
      if state.printFirstPageTime then page.bytes.length else 0
    status := { state.status with dumpStatus := .outOfTime } }

def CopyState.hit (isHm : Bool) (state : CopyState) (page : RawPage) : CopyState :=
  { state.append page with
    blockReadSz := state.blockReadSz + page.bytes.length
    pageChkFailedTime := failedTime isHm page.pageHeaderSize
      state.pageChkFailedTime
    printFirstPageTime := true
    status := updateFirstLastPageTimeStamp page.pageTraceTime
      state.printFirstPageTime state.status }

/-- The page loop of `CopyTracePipeRawLoop`: whether to stop reading, and the
pages left. -/
def copyPages (isHm : Bool) (request : TraceDumpRequest) (pages : List RawPage)
    (state : CopyState) (bufferSz : Nat := TraceBufferManager.defaultBlockSz) :
    Bool × List RawPage × CopyState :=
  match pages with
  | [] => (decide (state.blockReadSz ≤ bufferSz - pageSize), [], state)
  | page :: rest =>
      if state.blockReadSz > bufferSz - pageSize then (false, page :: rest, state)
      else
        match pageValid request page with
        | .late => (true, rest, state.late page)
        | .early => copyPages isHm request rest state bufferSz
        | .hit =>
            if (state.hit isHm page).pageChkFailedTime ≥ 2 then
              (true, rest, state.hit isHm page)
            else copyPages isHm request rest (state.hit isHm page) bufferSz

/-- The blocks of every task, and the members of an `ITraceCpuRawRead`. -/
structure ReadState where
  taskBuffers : Multimap UInt64 BufferBlock
  status : RawStatus := {}

/-- The locals of `CacheTracePipeRawData`. -/
structure CacheLocals where
  writeLen : Nat := 0
  pageChkFailedTime : Nat := 0
  printFirstPageTime : Bool := false
deriving Repr, DecidableEq

/-- A block just allocated. -/
def CopyState.start (cpu : Int) (locals : CacheLocals) (status : RawStatus)
    (bufferSz : Nat := TraceBufferManager.defaultBlockSz) : CopyState where
  block := BufferBlock.ofSize cpu bufferSz
  pageChkFailedTime := locals.pageChkFailedTime
  printFirstPageTime := locals.printFirstPageTime
  status := status

def CacheLocals.add (locals : CacheLocals) (copied : CopyState) : CacheLocals where
  writeLen := locals.writeLen + copied.blockReadSz
  pageChkFailedTime := copied.pageChkFailedTime
  printFirstPageTime := copied.printFirstPageTime

/-- The block enters the map when it is allocated; it is stored here with its
final contents, since nothing looks at the task's list in between. -/
def ReadState.store (state : ReadState) (taskId : UInt64) (copied : CopyState) :
    ReadState where
  taskBuffers := state.taskBuffers.pushBack taskId copied.block
  status := copied.status

/-- `while (!CopyTracePipeRawLoop(..)) {}`, over the answers to its
allocations. -/
def copyTracePipeRawLoop (isHm : Bool) (request : TraceDumpRequest) (cpu : Int)
    (grants : List Bool) (pages : List RawPage) (locals : CacheLocals)
    (state : ReadState) (bufferSz : Nat := TraceBufferManager.defaultBlockSz) :
    CacheLocals × ReadState :=
  match grants with
  | [] => (locals, state)
  | false :: _ => (locals, state)
  | true :: grants =>
      match copyPages isHm request pages (.start cpu locals state.status bufferSz)
          bufferSz with
      | (true, _, copied) =>
          (locals.add copied, state.store request.taskId copied)
      | (false, rest, copied) =>
          copyTracePipeRawLoop isHm request cpu grants rest (locals.add copied)
            (state.store request.taskId copied) bufferSz

def cacheTracePipeRawData (isHm : Bool) (request : TraceDumpRequest)
    (pipe : CachePipe) (cpuIdx : Int) (state : ReadState)
    (bufferSz : Nat := TraceBufferManager.defaultBlockSz) : Bool × ReadState :=
  if !pipe.opens then (false, state)
  else
    let (locals, state) := copyTracePipeRawLoop isHm request cpuIdx pipe.grants
      pipe.pages {} state bufferSz
    if locals.writeLen > 0 then
      (true, { state with status := { state.status with dumpStatus := .success } })
    else (true, state)

def cachePipes (isHm : Bool) (request : TraceDumpRequest) :
    List CachePipe → Int → ReadState → Bool × ReadState
  | [], _, state => (true, state)
  | pipe :: rest, cpuIdx, state =>
      match cacheTracePipeRawData isHm request pipe cpuIdx state with
      | (false, state) => (false, state)
      | (true, state) => cachePipes isHm request rest (cpuIdx + 1) state

def releaseTaskBlocks (taskBuffers : Multimap UInt64 BufferBlock)
    (taskId : UInt64) : Multimap UInt64 BufferBlock :=
  taskBuffers.erase taskId

def getTaskBuffers (taskBuffers : Multimap UInt64 BufferBlock)
    (taskId : UInt64) : List BufferBlock :=
  taskBuffers.bucket taskId

def getTaskTotalUsedBytes (taskBuffers : Multimap UInt64 BufferBlock)
    (taskId : UInt64) : Nat :=
  ((getTaskBuffers taskBuffers taskId).map BufferBlock.usedBytes).sum

def traceCpuRawRead (isHm : Bool) (request : TraceDumpRequest)
    (pipes : List CachePipe) (taskBuffers : Multimap UInt64 BufferBlock) :
    Bool × ReadState :=
  match cachePipes isHm request pipes 0 { taskBuffers } with
  | (false, state) => (false, state)
  | (true, state) =>
      if state.status.dumpStatus ≠ .success then
        (false,
          { state with
            taskBuffers := releaseTaskBlocks state.taskBuffers request.taskId })
      else (true, state)

def traceCpuRawReadLinux (request : TraceDumpRequest) (pipes : List CachePipe)
    (taskBuffers : Multimap UInt64 BufferBlock) : Bool × ReadState :=
  traceCpuRawRead false request pipes taskBuffers

def traceCpuRawReadHM (request : TraceDumpRequest) (pipe : CachePipe)
    (taskBuffers : Multimap UInt64 BufferBlock) : Bool × ReadState :=
  traceCpuRawRead true request [pipe] taskBuffers

/-! From the blocks into the file. -/

/-- The loop of `TraceCpuRawWriteLinux`; `prevCpu` keeps its first value, so
every block gets a header of its own. -/
def writeBlocksLinux : List BufferBlock → TraceFileContentHeader → Int → TraceIo →
    Bool × TraceIo
  | [], _, _, io => (true, io)
  | block :: rest, rawHeader, writeLen, io =>
      let prevCpu : Int := -1
      let (written, rawHeader, writeLen, io) :=
        if block.cpu ≠ prevCpu then
          let (written, rawHeader, io) := doWriteTraceContentHeader rawHeader
            (ContentType.cpuRaw + UInt8.ofNat block.cpu.toNat) io
          (written, rawHeader, 0, io)
        else (true, rawHeader, writeLen, io)
      if !written then (false, io)
      else
        let (writeLen, io) := doWriteTraceData block.data writeLen io
        let (rawHeader, io) :=
          updateTraceContentHeader rawHeader (UInt32.ofNat writeLen.toNat) io
        writeBlocksLinux rest rawHeader writeLen io

def traceCpuRawWriteLinux (taskId : UInt64)
    (taskBuffers : Multimap UInt64 BufferBlock) (io : TraceIo) :
    Bool × Multimap UInt64 BufferBlock × TraceIo :=
  let (found, io) := io.isFileExist
  if !found then (false, taskBuffers, io)
  else
    match writeBlocksLinux (getTaskBuffers taskBuffers taskId) {} 0 io with
    | (false, io) => (false, taskBuffers, io)
    | (true, io) => (true, releaseTaskBlocks taskBuffers taskId, io)

def writeBlocksHM : List BufferBlock → Int → TraceIo → Int × TraceIo
  | [], writeLen, io => (writeLen, io)
  | block :: rest, writeLen, io =>
      let (writeLen, io) := doWriteTraceData block.data writeLen io
      writeBlocksHM rest writeLen io

def traceCpuRawWriteHM (taskId : UInt64)
    (taskBuffers : Multimap UInt64 BufferBlock) (io : TraceIo) :
    Bool × Multimap UInt64 BufferBlock × TraceIo :=
  let (found, io) := io.isFileExist
  if !found then (false, taskBuffers, io)
  else
    let (written, rawHeader, io) :=
      doWriteTraceContentHeader {} ContentType.cpuRaw io
    if !written then (false, taskBuffers, io)
    else
      let (writeLen, io) := writeBlocksHM (getTaskBuffers taskBuffers taskId) 0 io
      let (_, io) :=
        updateTraceContentHeader rawHeader (UInt32.ofNat writeLen.toNat) io
      (true, releaseTaskBlocks taskBuffers taskId, io)

end CpuRaw

end Hitrace
