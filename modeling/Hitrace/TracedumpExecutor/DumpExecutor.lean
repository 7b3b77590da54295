import Hitrace.Library.Transition
import Hitrace.TracedumpExecutor.DumpStrategy

namespace Hitrace

open Library

namespace TraceDumpExecutor

def syncReturnTimeoutNs : UInt64 := 5000000000

/-- `curBootTime - task.time <= SYNC_RETURN_TIMEOUT_NS`, in 64 bits. -/
def withinSyncReturnTimeout (curBootTime time : UInt64) : Bool :=
  decide (curBootTime - time ≤ syncReturnTimeoutNs)

def asyncDumpFileSizeAddition : Int := 1024 * 1024

def maxWriteRetry : Nat := 10

/-! The monitor's answers to one task. -/

inductive PipeOutcome
  | fdInvalid
  | writeFailed
  | written
deriving Repr, DecidableEq

inductive ReplyKind
  | sync
  | async
deriving Repr, DecidableEq

/-- A task as it went into one of the return pipes. -/
structure Reply where
  kind : ReplyKind
  task : TraceDumpTask
deriving Repr, DecidableEq

/-- `WriteSyncReturn` and `WriteAsyncReturn`: the descriptor is tested first, and
only a failed write counts as a retry. -/
def writeReturn (outcome : PipeOutcome) (task : TraceDumpTask) :
    Bool × TraceDumpTask :=
  match outcome with
  | .fdInvalid => (false, task)
  | .writeFailed => (false, { task with writeRetry := task.writeRetry + 1 })
  | .written => (true, task)

/-- A task after `DoProcessTraceDumpTask`, whether it was put among the completed
ones, and the reply that went out. -/
structure Processed where
  task : TraceDumpTask
  completed : Bool
  reply : Option Reply
deriving Repr, DecidableEq

def processWriteDone (curBootTime : UInt64) (outcome : PipeOutcome)
    (task : TraceDumpTask) : Processed :=
  if task.hasSyncReturn then
    match writeReturn outcome task with
    | (true, sent) => ⟨sent, true, some ⟨.async, sent⟩⟩
    | (false, kept) => ⟨kept, false, none⟩
  else
    match writeReturn outcome task with
    | (true, sent) =>
        ⟨{ sent with hasSyncReturn := true },
          withinSyncReturnTimeout curBootTime task.time,
          some ⟨.sync, sent⟩⟩
    | (false, kept) => ⟨kept, false, none⟩

def processReadFailed (outcome : PipeOutcome) (task : TraceDumpTask) : Processed :=
  let kind : ReplyKind := if task.hasSyncReturn then .async else .sync
  match writeReturn outcome { task with status := .writeDone } with
  | (true, sent) => ⟨sent, true, some ⟨kind, sent⟩⟩
  | (false, kept) => ⟨kept, false, none⟩

def processReadDone (curBootTime : UInt64) (outcome : PipeOutcome)
    (task : TraceDumpTask) : Processed :=
  if task.code ≠ .success then processReadFailed outcome task
  else if task.hasSyncReturn = false ∧
      withinSyncReturnTimeout curBootTime task.time = false then
    match writeReturn outcome task with
    | (true, sent) =>
        ⟨{ sent with hasSyncReturn := true, status := .waitWrite }, false,
          some ⟨.sync, sent⟩⟩
    | (false, kept) => ⟨kept, false, none⟩
  else ⟨task, false, none⟩

def doProcessTraceDumpTask (curBootTime : UInt64) (outcome : PipeOutcome)
    (task : TraceDumpTask) : Processed :=
  let processed : Processed :=
    match task.status with
    | .writeDone => processWriteDone curBootTime outcome task
    | .readDone => processReadDone curBootTime outcome task
    | _ => ⟨task, false, none⟩
  if processed.task.writeRetry ≥ maxWriteRetry then
    { processed with completed := true }
  else processed

/-! The queue. -/

/-- The readings of the clock and the results of the pipe writes in one pass of
the monitor, by task. -/
structure PassEnvironment where
  curBootTime : UInt64 → UInt64
  outcome : UInt64 → PipeOutcome

def PassEnvironment.process (environment : PassEnvironment)
    (task : TraceDumpTask) : Processed :=
  doProcessTraceDumpTask (environment.curBootTime task.time)
    (environment.outcome task.time) task

def completedTimes (environment : PassEnvironment) (tasks : List TraceDumpTask) :
    List UInt64 :=
  (tasks.filter fun task => (environment.process task).completed).map
    TraceDumpTask.time

/-- `hasSyncReturn` stays the monitor's own. -/
def assignTask (dumpTask task : TraceDumpTask) : TraceDumpTask :=
  { dumpTask with
    code := task.code
    status := task.status
    fileSize := task.fileSize
    traceStartTime := task.traceStartTime
    traceEndTime := task.traceEndTime
    outputFile := task.outputFile }

def updateTraceDumpTask (tasks : List TraceDumpTask) (task : TraceDumpTask) :
    List TraceDumpTask :=
  match tasks with
  | [] => []
  | dumpTask :: rest =>
      if dumpTask.time = task.time then assignTask dumpTask task :: rest
      else dumpTask :: updateTraceDumpTask rest task

def readable (task : TraceDumpTask) : Bool :=
  decide (task.status = .start ∧ task.code = .unset)

def writable (task : TraceDumpTask) : Bool :=
  decide (task.status = .readDone ∨ task.status = .waitWrite)

/-- A task as the parent submits it. -/
def Submitted (task : TraceDumpTask) : Prop :=
  task.hasSyncReturn = false ∧ task.writeRetry = 0 ∧ task.status = .start ∧
    task.code = .unset

instance : DecidablePred Submitted := fun _ => inferInstanceAs (Decidable (_ ∧ _))

/-- What `DoReadRawTrace` makes of the task it works on. -/
def doReadRawTrace (ret : TraceDumpRet) (task : TraceDumpTask) : TraceDumpTask :=
  let task :=
    { task with
      code := ret.code
      fileSize := ret.fileSize + asyncDumpFileSizeAddition
      outputFile := copyFileName ret.outputFile
      status := .readDone }
  if task.code = .success ∧ task.fileSize > task.fileSizeLimit then
    { task with isFileSizeOverLimit := true }
  else task

/-- What `DoWriteRawTrace` makes of it; `fileSize` is the size of the file on
disk. -/
def doWriteRawTrace (ret : TraceDumpRet) (fileSize : Int) (task : TraceDumpTask) :
    TraceDumpTask :=
  let task := { task with code := ret.code, fileSize, status := .writeDone }
  if task.code = .success ∧ task.fileSize > task.fileSizeLimit then
    { task with isFileSizeOverLimit := true }
  else task

def readRequest (task : TraceDumpTask) : TraceDumpRequest where
  type := .traceAsyncRead
  traceStartTime := task.traceStartTime
  traceEndTime := task.traceEndTime
  taskId := task.time

/-- The steps of the dump process; each carries what its environment does. -/
inductive Label
  | monitorPass (environment : PassEnvironment)
  | processNewTask (task : TraceDumpTask)
  | readerTake
  | readerUpdate (rootPathEmpty : Bool) (source : RawSource) (traceFile : List Char)
  | writerTake
  | writerUpdate (rootPathEmpty : Bool) (contents : TraceContents)
      (environment : TraceIo) (fileSize : Int)

end TraceDumpExecutor

/-- The dump process: the queue, the copies the reader and the writer work on, the
blocks of the raw trace.  `submitted`, `replies` and `reads` record the ids ever
queued, the replies written and the codes `TRACE_ASYNC_READ` returned. -/
structure TraceDumpExecutor where
  traceDumpTaskVec : List TraceDumpTask := []
  reader : Option TraceDumpTask := none
  writer : Option TraceDumpTask := none
  taskBuffers : Multimap UInt64 BufferBlock := ∅
  submitted : List UInt64 := []
  replies : List TraceDumpExecutor.Reply := []
  reads : List (UInt64 × TraceErrorCode) := []

namespace TraceDumpExecutor

def monitorPass (executor : TraceDumpExecutor) (environment : PassEnvironment) :
    TraceDumpExecutor :=
  let tasks := executor.traceDumpTaskVec
  let completed := completedTimes environment tasks
  { executor with
    traceDumpTaskVec :=
      (tasks.map fun task => (environment.process task).task).filter
        fun task => task.time ∉ completed
    replies := executor.replies ++
      tasks.filterMap fun task => (environment.process task).reply }

def processNewTask (executor : TraceDumpExecutor) (task : TraceDumpTask) :
    Option TraceDumpExecutor :=
  if Submitted task ∧ task.time ∉ executor.submitted then
    some
      { executor with
        traceDumpTaskVec := executor.traceDumpTaskVec ++ [task]
        submitted := executor.submitted ++ [task.time] }
  else none

def readerTake (executor : TraceDumpExecutor) : Option TraceDumpExecutor :=
  match executor.reader, executor.traceDumpTaskVec.find? readable with
  | none, some task => some { executor with reader := some task }
  | _, _ => none

/-- The reader comes back from `DoReadRawTrace`. -/
def readerUpdate (isHm : Bool) (executor : TraceDumpExecutor)
    (rootPathEmpty : Bool) (source : RawSource) (traceFile : List Char) :
    Option TraceDumpExecutor :=
  match executor.reader with
  | none => none
  | some task =>
      if source.isHm ≠ isHm then none
      else if rootPathEmpty then some { executor with reader := none }
      else
        let (ret, taskBuffers) :=
          asyncTraceRead source traceFile (readRequest task) executor.taskBuffers
        some
          { executor with
            reader := none
            taskBuffers
            traceDumpTaskVec := updateTraceDumpTask executor.traceDumpTaskVec
              (doReadRawTrace ret task)
            reads := executor.reads ++ [(task.time, ret.code)] }

def writerTake (executor : TraceDumpExecutor) : Option TraceDumpExecutor :=
  match executor.writer, executor.traceDumpTaskVec.find? writable with
  | none, some task => some { executor with writer := some task }
  | _, _ => none

/-- The writer comes back from `DoWriteRawTrace`. -/
def writerUpdate (isHm : Bool) (executor : TraceDumpExecutor)
    (rootPathEmpty : Bool) (contents : TraceContents) (environment : TraceIo)
    (fileSize : Int) : Option TraceDumpExecutor :=
  match executor.writer with
  | none => none
  | some task =>
      if rootPathEmpty then some { executor with writer := none }
      else
        let (ret, taskBuffers, _) :=
          asyncTraceWrite isHm contents task.time executor.taskBuffers
            (traceSourceFactory task.outputFile environment)
        some
          { executor with
            writer := none
            taskBuffers
            traceDumpTaskVec := updateTraceDumpTask executor.traceDumpTaskVec
              (doWriteRawTrace ret fileSize task) }

def step (isHm : Bool) (executor : TraceDumpExecutor) :
    Label → Option TraceDumpExecutor
  | .monitorPass environment => some (executor.monitorPass environment)
  | .processNewTask task => executor.processNewTask task
  | .readerTake => executor.readerTake
  | .readerUpdate rootPathEmpty source traceFile =>
      executor.readerUpdate isHm rootPathEmpty source traceFile
  | .writerTake => executor.writerTake
  | .writerUpdate rootPathEmpty contents environment fileSize =>
      executor.writerUpdate isHm rootPathEmpty contents environment fileSize

end TraceDumpExecutor

/-- The queue the process starts with holds what its parent had queued and no
process had taken yet. -/
def traceDumpExecutor (isHm : Bool) :
    Library.Machine TraceDumpExecutor TraceDumpExecutor.Label where
  init := fun executor =>
    (executor.traceDumpTaskVec.map TraceDumpTask.time).Nodup ∧
    (∀ task ∈ executor.traceDumpTaskVec, TraceDumpExecutor.Submitted task) ∧
    executor = { traceDumpTaskVec := executor.traceDumpTaskVec
                 submitted := executor.traceDumpTaskVec.map TraceDumpTask.time }
  step := TraceDumpExecutor.step isHm

end Hitrace
