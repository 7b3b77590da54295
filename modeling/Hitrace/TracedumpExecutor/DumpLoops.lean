import Hitrace.TracedumpExecutor.ReplyProtocol

namespace Hitrace

open Library

/-! The three threads of the dump process around its queue: the loops of the reader and of
the writer with their condition variables, and the monitor that ends them. -/

namespace DumpThreads

def monitorEmptyLoopCount : Nat := 15

/-- Where a loop stands.  `check` is the entry of `wait` and every return from it, with the
mutex of the queue; `notifying` is behind a read that has succeeded. -/
inductive LoopPoint
  | top
  | check
  | asleep
  | working
  | notifying
  | done
deriving Repr, DecidableEq

inductive MonitorPoint
  | pass
  | poll
  | test
  | endRead
  | endWrite
  | notifyAll
  | done
deriving Repr, DecidableEq

/-- A notification reaches a thread only while it sleeps. -/
def LoopPoint.notified : LoopPoint → LoopPoint
  | .asleep => .check
  | point => point

/-- The steps of the threads; `drowse` is a wake-up without a notification. -/
inductive Label
  | readTop
  | readCheck
  | readWork (rootPathEmpty : Bool) (source : RawSource) (traceFile : List Char)
  | readNotify
  | readDrowse
  | writeTop
  | writeCheck
  | writeWork (rootPathEmpty : Bool) (contents : TraceContents) (environment : TraceIo)
      (fileSize : Int)
  | writeDrowse
  | monitorPass (environment : TraceDumpExecutor.PassEnvironment)
  | monitorPoll (task : Option TraceDumpTask)
  | monitorTest
  | endAsyncRead
  | endAsyncWrite
  | notifyAll

end DumpThreads

open DumpThreads TraceDumpExecutor

structure DumpThreads where
  executor : TraceDumpExecutor
  asyncReadFlag : Bool := true
  asyncWriteFlag : Bool := true
  readLoop : LoopPoint := .top
  writeLoop : LoopPoint := .top
  monitor : MonitorPoint := .pass
  loopCnt : Nat := 0

namespace DumpThreads

variable (process : DumpThreads)

/-! `ReadRawTraceLoop`. -/

def readTop : Option DumpThreads :=
  if process.readLoop = .top then
    some { process with readLoop := if process.asyncReadFlag then .check else .done }
  else none

/-- The predicate of `wait`, the test of the flag behind it and the search for the task are
one section under the mutex.  A store to the flag in between is as good as one before. -/
def readCheck : Option DumpThreads :=
  if process.readLoop = .check then
    if process.asyncReadFlag then
      match process.executor.readerTake with
      | none => some { process with readLoop := .asleep }
      | some executor => some { process with executor, readLoop := .working }
    else some { process with readLoop := .done }
  else none

/-- What `DoReadRawTrace` returns. -/
def readSucceeds (executor : TraceDumpExecutor) (rootPathEmpty : Bool)
    (source : RawSource) (traceFile : List Char) : Bool :=
  match executor.reader with
  | none => false
  | some task =>
      !rootPathEmpty &&
        decide ((asyncTraceRead source traceFile (readRequest task)
          executor.taskBuffers).1.code = .success) &&
        executor.traceDumpTaskVec.any fun dumpTask => dumpTask.time == task.time

def readWork (isHm rootPathEmpty : Bool) (source : RawSource) (traceFile : List Char) :
    Option DumpThreads :=
  if process.readLoop = .working then
    (process.executor.readerUpdate isHm rootPathEmpty source traceFile).map
      fun executor =>
        { process with
          executor
          readLoop :=
            if readSucceeds process.executor rootPathEmpty source traceFile then .notifying
            else .top }
  else none

def readNotify : Option DumpThreads :=
  if process.readLoop = .notifying then
    some { process with readLoop := .top, writeLoop := process.writeLoop.notified }
  else none

def readDrowse : Option DumpThreads :=
  if process.readLoop = .asleep then some { process with readLoop := .check } else none

/-! `WriteTraceLoop`. -/

def writeTop : Option DumpThreads :=
  if process.writeLoop = .top then
    some { process with writeLoop := if process.asyncWriteFlag then .check else .done }
  else none

def writeCheck : Option DumpThreads :=
  if process.writeLoop = .check then
    if process.asyncWriteFlag then
      match process.executor.writerTake with
      | none => some { process with writeLoop := .asleep }
      | some executor => some { process with executor, writeLoop := .working }
    else some { process with writeLoop := .done }
  else none

def writeWork (isHm rootPathEmpty : Bool) (contents : TraceContents)
    (environment : TraceIo) (fileSize : Int) : Option DumpThreads :=
  if process.writeLoop = .working then
    (process.executor.writerUpdate isHm rootPathEmpty contents environment fileSize).map
      fun executor => { process with executor, writeLoop := .top }
  else none

def writeDrowse : Option DumpThreads :=
  if process.writeLoop = .asleep then some { process with writeLoop := .check } else none

/-! `TraceDumpTaskMonitor`. -/

/-- `DoProcessTraceDumpTask` has put the task back for a write and notifies the writer. -/
def waitsForWrite (environment : PassEnvironment) (task : TraceDumpTask) : Bool :=
  decide (task.status = .readDone ∧ (environment.process task).task.status = .waitWrite)

def monitorPass (environment : PassEnvironment) : Option DumpThreads :=
  if process.monitor = .pass then
    let executor := process.executor.monitorPass environment
    some
      { process with
        executor
        writeLoop :=
          if process.executor.traceDumpTaskVec.any (waitsForWrite environment) then
            process.writeLoop.notified
          else process.writeLoop
        loopCnt := if executor.traceDumpTaskVec = [] then process.loopCnt else 0
        monitor := .poll }
  else none

/-- `ProcessNewTask`, without a task if none came in time, the sleep and `loopCnt++`. -/
def monitorPoll : Option TraceDumpTask → Option DumpThreads
  | none =>
      if process.monitor = .poll then
        some { process with loopCnt := process.loopCnt + 1, monitor := .test }
      else none
  | some task =>
      if process.monitor = .poll then
        (process.executor.processNewTask task).map fun executor =>
          { process with
            executor
            readLoop := process.readLoop.notified
            loopCnt := 1
            monitor := .test }
      else none

def monitorTest : Option DumpThreads :=
  if process.monitor = .test then
    some
      { process with
        monitor :=
          if process.loopCnt < monitorEmptyLoopCount ∨
              process.executor.traceDumpTaskVec ≠ [] then .pass
          else .endRead }
  else none

/-- `EndAsyncReadWrite` makes two stores, neither under the mutex. -/
def endAsyncRead : Option DumpThreads :=
  if process.monitor = .endRead then
    some { process with asyncReadFlag := false, monitor := .endWrite }
  else none

def endAsyncWrite : Option DumpThreads :=
  if process.monitor = .endWrite then
    some { process with asyncWriteFlag := false, monitor := .notifyAll }
  else none

def notifyAll : Option DumpThreads :=
  if process.monitor = .notifyAll then
    some
      { process with
        readLoop := process.readLoop.notified
        writeLoop := process.writeLoop.notified
        monitor := .done }
  else none

def step (isHm : Bool) : Label → Option DumpThreads
  | .readTop => process.readTop
  | .readCheck => process.readCheck
  | .readWork rootPathEmpty source traceFile =>
      process.readWork isHm rootPathEmpty source traceFile
  | .readNotify => process.readNotify
  | .readDrowse => process.readDrowse
  | .writeTop => process.writeTop
  | .writeCheck => process.writeCheck
  | .writeWork rootPathEmpty contents environment fileSize =>
      process.writeWork isHm rootPathEmpty contents environment fileSize
  | .writeDrowse => process.writeDrowse
  | .monitorPass environment => process.monitorPass environment
  | .monitorPoll task => process.monitorPoll task
  | .monitorTest => process.monitorTest
  | .endAsyncRead => process.endAsyncRead
  | .endAsyncWrite => process.endAsyncWrite
  | .notifyAll => process.notifyAll

end DumpThreads

/-- The child behind `fork`, with its two threads started. -/
def dumpThreads (isHm : Bool) : Library.Machine DumpThreads DumpThreads.Label where
  init := fun process =>
    (traceDumpExecutor isHm).init process.executor ∧
      process = { executor := process.executor }
  step := fun process => process.step isHm

namespace DumpThreads

variable {isHm : Bool} {process next : DumpThreads} {label : Label}

/-! What a step can do. -/

inductive ProcessStep (isHm : Bool) (process : DumpThreads) : Label → DumpThreads → Prop
  | readTop (hpoint : process.readLoop = .top) :
      ProcessStep isHm process .readTop
        { process with readLoop := if process.asyncReadFlag then .check else .done }
  | readSleep (hpoint : process.readLoop = .check) (hflag : process.asyncReadFlag = true)
      (hnone : process.executor.readerTake = none) :
      ProcessStep isHm process .readCheck { process with readLoop := .asleep }
  | readTake (hpoint : process.readLoop = .check) (hflag : process.asyncReadFlag = true)
      {executor : TraceDumpExecutor} (htake : process.executor.readerTake = some executor) :
      ProcessStep isHm process .readCheck { process with executor, readLoop := .working }
  | readLeave (hpoint : process.readLoop = .check) (hflag : process.asyncReadFlag = false) :
      ProcessStep isHm process .readCheck { process with readLoop := .done }
  | readWork (hpoint : process.readLoop = .working) {rootPathEmpty : Bool}
      {source : RawSource} {traceFile : List Char} {executor : TraceDumpExecutor}
      (hupdate : process.executor.readerUpdate isHm rootPathEmpty source traceFile =
        some executor) :
      ProcessStep isHm process (.readWork rootPathEmpty source traceFile)
        { process with
          executor
          readLoop :=
            if readSucceeds process.executor rootPathEmpty source traceFile then .notifying
            else .top }
  | readNotify (hpoint : process.readLoop = .notifying) :
      ProcessStep isHm process .readNotify
        { process with readLoop := .top, writeLoop := process.writeLoop.notified }
  | readDrowse (hpoint : process.readLoop = .asleep) :
      ProcessStep isHm process .readDrowse { process with readLoop := .check }
  | writeTop (hpoint : process.writeLoop = .top) :
      ProcessStep isHm process .writeTop
        { process with writeLoop := if process.asyncWriteFlag then .check else .done }
  | writeSleep (hpoint : process.writeLoop = .check) (hflag : process.asyncWriteFlag = true)
      (hnone : process.executor.writerTake = none) :
      ProcessStep isHm process .writeCheck { process with writeLoop := .asleep }
  | writeTake (hpoint : process.writeLoop = .check) (hflag : process.asyncWriteFlag = true)
      {executor : TraceDumpExecutor} (htake : process.executor.writerTake = some executor) :
      ProcessStep isHm process .writeCheck { process with executor, writeLoop := .working }
  | writeLeave (hpoint : process.writeLoop = .check)
      (hflag : process.asyncWriteFlag = false) :
      ProcessStep isHm process .writeCheck { process with writeLoop := .done }
  | writeWork (hpoint : process.writeLoop = .working) {rootPathEmpty : Bool}
      {contents : TraceContents} {environment : TraceIo} {fileSize : Int}
      {executor : TraceDumpExecutor}
      (hupdate : process.executor.writerUpdate isHm rootPathEmpty contents environment
        fileSize = some executor) :
      ProcessStep isHm process (.writeWork rootPathEmpty contents environment fileSize)
        { process with executor, writeLoop := .top }
  | writeDrowse (hpoint : process.writeLoop = .asleep) :
      ProcessStep isHm process .writeDrowse { process with writeLoop := .check }
  | monitorPass (hpoint : process.monitor = .pass) (environment : PassEnvironment) :
      ProcessStep isHm process (.monitorPass environment)
        { process with
          executor := process.executor.monitorPass environment
          writeLoop :=
            if process.executor.traceDumpTaskVec.any (waitsForWrite environment) then
              process.writeLoop.notified
            else process.writeLoop
          loopCnt :=
            if (process.executor.monitorPass environment).traceDumpTaskVec = [] then
              process.loopCnt
            else 0
          monitor := .poll }
  | pollNone (hpoint : process.monitor = .poll) :
      ProcessStep isHm process (.monitorPoll none)
        { process with loopCnt := process.loopCnt + 1, monitor := .test }
  | pollTask (hpoint : process.monitor = .poll) {task : TraceDumpTask}
      {executor : TraceDumpExecutor}
      (htask : process.executor.processNewTask task = some executor) :
      ProcessStep isHm process (.monitorPoll (some task))
        { process with
          executor
          readLoop := process.readLoop.notified
          loopCnt := 1
          monitor := .test }
  | monitorTest (hpoint : process.monitor = .test) :
      ProcessStep isHm process .monitorTest
        { process with
          monitor :=
            if process.loopCnt < monitorEmptyLoopCount ∨
                process.executor.traceDumpTaskVec ≠ [] then .pass
            else .endRead }
  | endAsyncRead (hpoint : process.monitor = .endRead) :
      ProcessStep isHm process .endAsyncRead
        { process with asyncReadFlag := false, monitor := .endWrite }
  | endAsyncWrite (hpoint : process.monitor = .endWrite) :
      ProcessStep isHm process .endAsyncWrite
        { process with asyncWriteFlag := false, monitor := .notifyAll }
  | notifyAll (hpoint : process.monitor = .notifyAll) :
      ProcessStep isHm process .notifyAll
        { process with
          readLoop := process.readLoop.notified
          writeLoop := process.writeLoop.notified
          monitor := .done }

theorem processStep_readCheck (hstep : process.readCheck = some next) :
    ProcessStep isHm process .readCheck next := by
  rw [readCheck] at hstep
  split at hstep
  · next hpoint =>
      split at hstep
      · next hflag =>
          split at hstep
          · next hnone =>
              cases hstep
              exact .readSleep hpoint hflag hnone
          · next htake =>
              cases hstep
              exact .readTake hpoint hflag htake
      · next hflag =>
          cases hstep
          exact .readLeave hpoint (Bool.eq_false_iff.mpr hflag)
  · cases hstep

theorem processStep_writeCheck (hstep : process.writeCheck = some next) :
    ProcessStep isHm process .writeCheck next := by
  rw [writeCheck] at hstep
  split at hstep
  · next hpoint =>
      split at hstep
      · next hflag =>
          split at hstep
          · next hnone =>
              cases hstep
              exact .writeSleep hpoint hflag hnone
          · next htake =>
              cases hstep
              exact .writeTake hpoint hflag htake
      · next hflag =>
          cases hstep
          exact .writeLeave hpoint (Bool.eq_false_iff.mpr hflag)
  · cases hstep

theorem processStep_monitorPoll {task : Option TraceDumpTask}
    (hstep : process.monitorPoll task = some next) :
    ProcessStep isHm process (.monitorPoll task) next := by
  cases task with
  | none =>
      rw [monitorPoll] at hstep
      obtain ⟨hpoint, ⟨⟩⟩ := Option.ite_none_right_eq_some.mp hstep
      exact .pollNone hpoint
  | some task =>
      rw [monitorPoll] at hstep
      obtain ⟨hpoint, hmap⟩ := Option.ite_none_right_eq_some.mp hstep
      obtain ⟨executor, htask, rfl⟩ := Option.map_eq_some_iff.mp hmap
      exact .pollTask hpoint htask

theorem processStep_of_step (hstep : process.step isHm label = some next) :
    ProcessStep isHm process label next := by
  cases label with
  | readTop =>
      obtain ⟨hpoint, ⟨⟩⟩ := Option.ite_none_right_eq_some.mp hstep
      exact .readTop hpoint
  | readCheck => exact processStep_readCheck hstep
  | readWork rootPathEmpty source traceFile =>
      obtain ⟨hpoint, hmap⟩ := Option.ite_none_right_eq_some.mp hstep
      obtain ⟨executor, hupdate, rfl⟩ := Option.map_eq_some_iff.mp hmap
      exact .readWork hpoint hupdate
  | readNotify =>
      obtain ⟨hpoint, ⟨⟩⟩ := Option.ite_none_right_eq_some.mp hstep
      exact .readNotify hpoint
  | readDrowse =>
      obtain ⟨hpoint, ⟨⟩⟩ := Option.ite_none_right_eq_some.mp hstep
      exact .readDrowse hpoint
  | writeTop =>
      obtain ⟨hpoint, ⟨⟩⟩ := Option.ite_none_right_eq_some.mp hstep
      exact .writeTop hpoint
  | writeCheck => exact processStep_writeCheck hstep
  | writeWork rootPathEmpty contents environment fileSize =>
      obtain ⟨hpoint, hmap⟩ := Option.ite_none_right_eq_some.mp hstep
      obtain ⟨executor, hupdate, rfl⟩ := Option.map_eq_some_iff.mp hmap
      exact .writeWork hpoint hupdate
  | writeDrowse =>
      obtain ⟨hpoint, ⟨⟩⟩ := Option.ite_none_right_eq_some.mp hstep
      exact .writeDrowse hpoint
  | monitorPass environment =>
      obtain ⟨hpoint, ⟨⟩⟩ := Option.ite_none_right_eq_some.mp hstep
      exact .monitorPass hpoint environment
  | monitorPoll task => exact processStep_monitorPoll hstep
  | monitorTest =>
      obtain ⟨hpoint, ⟨⟩⟩ := Option.ite_none_right_eq_some.mp hstep
      exact .monitorTest hpoint
  | endAsyncRead =>
      obtain ⟨hpoint, ⟨⟩⟩ := Option.ite_none_right_eq_some.mp hstep
      exact .endAsyncRead hpoint
  | endAsyncWrite =>
      obtain ⟨hpoint, ⟨⟩⟩ := Option.ite_none_right_eq_some.mp hstep
      exact .endAsyncWrite hpoint
  | notifyAll =>
      obtain ⟨hpoint, ⟨⟩⟩ := Option.ite_none_right_eq_some.mp hstep
      exact .notifyAll hpoint

/-! The queue is the one of the process without its threads. -/

theorem executor_step (hstep : process.step isHm label = some next) :
    next.executor = process.executor ∨
      ∃ label, (traceDumpExecutor isHm).step process.executor label =
        some next.executor := by
  cases processStep_of_step hstep with
  | readTake _ _ htake => exact .inr ⟨.readerTake, htake⟩
  | readWork _ hupdate => exact .inr ⟨.readerUpdate _ _ _, hupdate⟩
  | writeTake _ _ htake => exact .inr ⟨.writerTake, htake⟩
  | writeWork _ hupdate => exact .inr ⟨.writerUpdate _ _ _ _, hupdate⟩
  | monitorPass _ environment => exact .inr ⟨.monitorPass environment, rfl⟩
  | pollTask _ htask => exact .inr ⟨.processNewTask _, htask⟩
  | _ => exact .inl rfl

theorem executor_reachable (hreach : (dumpThreads isHm).Reachable process) :
    (traceDumpExecutor isHm).Reachable process.executor := by
  refine (dumpThreads isHm).reachable_view (fun start hinit => ?_) ?_ hreach
  · exact ⟨[], start.executor, hinit.1, rfl⟩
  · intro state label next hstep
    rcases executor_step hstep with heq | ⟨label, hlabel⟩
    · exact ⟨[], heq ▸ rfl⟩
    · refine ⟨[label], ?_⟩
      rw [Machine.run_cons_of_step _ hlabel]
      rfl

/-! What the steps make of the tasks. -/

/-- The monitor alone has something to do for the task. -/
def AwaitsMonitor (task : TraceDumpTask) : Prop :=
  task.status = .writeDone ∨ (task.status = .readDone ∧ task.code ≠ .success)

/-- The writer has nothing to do for the task. -/
def Settled (task : TraceDumpTask) : Prop :=
  task.status = .start ∨ AwaitsMonitor task

/-- `START` goes with `UNSET`, as the task came in. -/
def Fresh (task : TraceDumpTask) : Prop :=
  task.status = .start → task.code = .unset

variable {executor after : TraceDumpExecutor} {task : TraceDumpTask}

theorem settled_of_not_writable (hbounded : task.status ≠ .finish)
    (hwritable : writable task = false) : Settled task := by
  have hnot := of_decide_eq_false hwritable
  cases hstatus : task.status with
  | start => exact .inl hstatus
  | readDone => exact absurd (.inl hstatus) hnot
  | waitWrite => exact absurd (.inr hstatus) hnot
  | writeDone => exact .inr (.inl hstatus)
  | finish => exact absurd hstatus hbounded

theorem processReadFailed_status (outcome : PipeOutcome) (task : TraceDumpTask) :
    (processReadFailed outcome task).task.status = .writeDone := by
  cases outcome with
  | fdInvalid => rfl
  | writeFailed => rfl
  | written => rfl

theorem process_task (environment : PassEnvironment) (hstatus : task.status = .readDone) :
    (environment.process task).task =
      (processReadDone (environment.curBootTime task.time) (environment.outcome task.time)
        task).task := by
  rw [PassEnvironment.process, doProcessTraceDumpTask, hstatus]
  dsimp only
  split <;> rfl

theorem process_readFailed (environment : PassEnvironment)
    (hstatus : task.status = .readDone) (hcode : task.code ≠ .success) :
    (environment.process task).task.status = .writeDone := by
  rw [process_task environment hstatus, processReadDone, if_pos hcode]
  exact processReadFailed_status _ task

theorem process_writeDone (environment : PassEnvironment)
    (hstatus : task.status = .writeDone) :
    (environment.process task).task.status = .writeDone := by
  have hupdate := process_update environment task
  have hgrows := hupdate.grows
  rw [hstatus] at hgrows
  cases hnext : (environment.process task).task.status with
  | start => exact absurd (hnext ▸ hgrows) (by decide)
  | readDone => exact absurd (hnext ▸ hgrows) (by decide)
  | waitWrite => exact absurd (hnext ▸ hgrows) (by decide)
  | writeDone => rfl
  | finish => exact nomatch hstatus.symm.trans (hupdate.bounded hnext)

theorem process_awaits (environment : PassEnvironment) (hawaits : AwaitsMonitor task) :
    (environment.process task).task.status = .writeDone := by
  rcases hawaits with hstatus | ⟨hstatus, hcode⟩
  · exact process_writeDone environment hstatus
  · exact process_readFailed environment hstatus hcode

theorem process_settled (environment : PassEnvironment) (hsettled : Settled task) :
    Settled (environment.process task).task := by
  rcases hsettled with hstatus | hawaits
  · exact .inl ((process_update environment task).start hstatus)
  · exact .inr (.inl (process_awaits environment hawaits))

theorem process_start (environment : PassEnvironment)
    (hstart : (environment.process task).task.status = .start) : task.status = .start := by
  by_contra hstatus
  exact (process_update environment task).ne_start hstatus hstart

theorem process_fresh (environment : PassEnvironment) (hfresh : Fresh task) :
    Fresh (environment.process task).task := by
  intro hstart
  obtain ⟨_, _, _, hfields⟩ := (process_update environment task).fields
  rw [hfields]
  exact hfresh (process_start environment hstart)

theorem monitorPass_forall {holds : TraceDumpTask → Prop} (hprotocol : Protocol executor)
    (environment : PassEnvironment)
    (hkept : ∀ task, holds task → holds (environment.process task).task)
    (hall : ∀ task ∈ executor.traceDumpTaskVec, holds task) :
    ∀ task ∈ (executor.monitorPass environment).traceDumpTaskVec, holds task := by
  intro task hmem
  obtain ⟨origin, horigin, rfl, _⟩ := (mem_monitorPass hprotocol.distinct).mp hmem
  exact hkept origin (hall origin horigin)

/-- What a thread that comes back makes of the queue: nothing, or one task that is no
longer at its start. -/
structure Written (executor after : TraceDumpExecutor) : Prop where
  times : after.traceDumpTaskVec.map TraceDumpTask.time =
    executor.traceDumpTaskVec.map TraceDumpTask.time
  started : ∀ task ∈ after.traceDumpTaskVec,
    task ∈ executor.traceDumpTaskVec ∨ task.status = .readDone ∨ task.status = .writeDone

theorem Written.of_queue
    (hqueue : after.traceDumpTaskVec = executor.traceDumpTaskVec) : Written executor after :=
  ⟨by rw [hqueue], fun _ hmem => .inl (hqueue ▸ hmem)⟩

theorem Written.ne_start (hwritten : Written executor after)
    (hall : ∀ task ∈ executor.traceDumpTaskVec, task.status ≠ .start) :
    ∀ task ∈ after.traceDumpTaskVec, task.status ≠ .start := by
  intro task hmem hstart
  rcases hwritten.started task hmem with hold | hstatus | hstatus
  · exact hall task hold hstart
  · exact nomatch hstatus.symm.trans hstart
  · exact nomatch hstatus.symm.trans hstart

theorem Written.fresh (hwritten : Written executor after)
    (hall : ∀ task ∈ executor.traceDumpTaskVec, Fresh task) :
    ∀ task ∈ after.traceDumpTaskVec, Fresh task := by
  intro task hmem hstart
  rcases hwritten.started task hmem with hold | hstatus | hstatus
  · exact hall task hold hstart
  · exact nomatch hstatus.symm.trans hstart
  · exact nomatch hstatus.symm.trans hstart

theorem Written.eq_nil (hwritten : Written executor after) :
    after.traceDumpTaskVec = [] ↔ executor.traceDumpTaskVec = [] := by
  rw [← List.map_eq_nil_iff, hwritten.times, List.map_eq_nil_iff]

theorem written_of_update (hprotocol : Protocol executor) {copy : TraceDumpTask}
    (hqueue : after.traceDumpTaskVec = updateTraceDumpTask executor.traceDumpTaskVec copy)
    (hstatus : copy.status = .readDone ∨ copy.status = .writeDone) :
    Written executor after := by
  constructor
  · rw [hqueue, times_updateTraceDumpTask]
  · intro task hmem
    rw [hqueue] at hmem
    rcases mem_updateTraceDumpTask hprotocol.distinct hmem with ⟨hold, _⟩ | ⟨_, _, _, rfl⟩
    · exact .inl hold
    · exact .inr hstatus

theorem readerUpdate_written (hprotocol : Protocol executor) {rootPathEmpty : Bool}
    {source : RawSource} {traceFile : List Char}
    (hupdate : executor.readerUpdate isHm rootPathEmpty source traceFile = some after) :
    Written executor after ∧ after.reader = none ∧ after.writer = executor.writer := by
  have hstep : executor.step isHm (.readerUpdate rootPathEmpty source traceFile) =
    some after := hupdate
  cases executorStep_of_step hstep with
  | readerSkip => exact ⟨.of_queue rfl, rfl, rfl⟩
  | readerUpdate _ _ =>
      exact ⟨written_of_update hprotocol rfl (.inl (doReadRawTrace_status _ _).1), rfl, rfl⟩

theorem writerUpdate_written (hprotocol : Protocol executor) {rootPathEmpty : Bool}
    {contents : TraceContents} {environment : TraceIo} {fileSize : Int}
    (hupdate : executor.writerUpdate isHm rootPathEmpty contents environment fileSize =
      some after) :
    Written executor after ∧ after.writer = none ∧ after.reader = executor.reader := by
  have hstep : executor.step isHm
    (.writerUpdate rootPathEmpty contents environment fileSize) = some after := hupdate
  cases executorStep_of_step hstep with
  | writerSkip => exact ⟨.of_queue rfl, rfl, rfl⟩
  | writerUpdate _ _ =>
      exact ⟨written_of_update hprotocol rfl (.inr (doWriteRawTrace_status _ _ _).1), rfl, rfl⟩

/-- A read that did not succeed has left nothing to the writer. -/
theorem readerUpdate_settled (hprotocol : Protocol executor) {rootPathEmpty : Bool}
    {source : RawSource} {traceFile : List Char}
    (hupdate : executor.readerUpdate isHm rootPathEmpty source traceFile = some after)
    (hfails : readSucceeds executor rootPathEmpty source traceFile = false)
    (hall : ∀ task ∈ executor.traceDumpTaskVec, Settled task) :
    ∀ task ∈ after.traceDumpTaskVec, Settled task := by
  have hstep : executor.step isHm (.readerUpdate rootPathEmpty source traceFile) =
    some after := hupdate
  cases executorStep_of_step hstep with
  | readerSkip => exact hall
  | @readerUpdate copy hreader _ _ ret _ hread =>
      intro task hmem
      obtain ⟨hstatus, htime, hcode, _⟩ := doReadRawTrace_status ret copy
      rcases mem_updateTraceDumpTask hprotocol.distinct hmem with
        ⟨hold, _⟩ | ⟨dumpTask, hold, hsame, rfl⟩
      · exact hall task hold
      · have hfound : (executor.traceDumpTaskVec.any fun dumpTask =>
            dumpTask.time == copy.time) = true :=
          List.any_eq_true.mpr ⟨dumpTask, hold, beq_iff_eq.mpr (hsame.trans htime)⟩
        rw [readSucceeds, hreader] at hfails
        simp only [hread, hfound, Bool.not_false, Bool.true_and, Bool.and_true,
          decide_eq_false_iff_not] at hfails
        exact .inr (.inr ⟨hstatus, fun hsuccess => hfails (hcode ▸ hsuccess)⟩)

/-! The invariant of the threads. -/

def MonitorPoint.keepsReading : MonitorPoint → Bool
  | .pass | .poll | .test | .endRead => true
  | .endWrite | .notifyAll | .done => false

def MonitorPoint.keepsWriting : MonitorPoint → Bool
  | .pass | .poll | .test | .endRead | .endWrite => true
  | .notifyAll | .done => false

/-- The monitor has left its loop. -/
def MonitorPoint.ended : MonitorPoint → Bool
  | .pass | .poll | .test => false
  | .endRead | .endWrite | .notifyAll | .done => true

structure Sound (process : DumpThreads) : Prop where
  protocol : Protocol process.executor
  fresh : ∀ task ∈ process.executor.traceDumpTaskVec, Fresh task
  reader : process.readLoop ≠ .working → process.executor.reader = none
  writer : process.writeLoop ≠ .working → process.executor.writer = none
  readFlag : process.asyncReadFlag = process.monitor.keepsReading
  writeFlag : process.asyncWriteFlag = process.monitor.keepsWriting
  readSleeps : process.readLoop = .asleep → process.monitor ≠ .done ∧
    ∀ task ∈ process.executor.traceDumpTaskVec, task.status ≠ .start
  writeSleeps : process.writeLoop = .asleep → process.monitor ≠ .done ∧
    (process.readLoop ≠ .notifying →
      ∀ task ∈ process.executor.traceDumpTaskVec, Settled task)
  idle : process.monitor = .pass → process.executor.traceDumpTaskVec = [] →
    process.loopCnt < monitorEmptyLoopCount
  ended : process.monitor.ended = true → process.executor.traceDumpTaskVec = []

theorem notified_ne_asleep (point : LoopPoint) : point.notified ≠ .asleep := by
  cases point <;> exact nofun

theorem notified_eq_working {point : LoopPoint} :
    point.notified = .working ↔ point = .working := by
  cases point <;> simp [LoopPoint.notified]

theorem notified_eq_notifying {point : LoopPoint} :
    point.notified = .notifying ↔ point = .notifying := by
  cases point <;> simp [LoopPoint.notified]

theorem sound_init (hinit : (dumpThreads isHm).init process) : Sound process := by
  obtain ⟨hexecutor, hprocess⟩ := hinit
  obtain ⟨_, hsubmitted, hempty⟩ := id hexecutor
  have hprotocol := protocol_init hexecutor
  rw [hprocess]
  refine ⟨hprotocol, fun task hmem _ => (hsubmitted task hmem).2.2.2, ?_, ?_, rfl, rfl,
    nofun, nofun, fun _ _ => Nat.zero_lt_succ 14, nofun⟩
  · intro _
    rw [hempty]
  · intro _
    rw [hempty]

theorem Sound.read_none (hsound : Sound process) (hpoint : process.readLoop = .check)
    (hnone : process.executor.readerTake = none) :
    ∀ task ∈ process.executor.traceDumpTaskVec, task.status ≠ .start := by
  intro task hmem hstart
  have hreader := hsound.reader (by rw [hpoint]; nofun)
  rw [readerTake, hreader] at hnone
  cases hfind : process.executor.traceDumpTaskVec.find? readable with
  | none =>
      exact List.find?_eq_none.mp hfind task hmem
        (decide_eq_true ⟨hstart, hsound.fresh task hmem hstart⟩)
  | some found =>
      rw [hfind] at hnone
      cases hnone

theorem Sound.write_none (hsound : Sound process) (hpoint : process.writeLoop = .check)
    (hnone : process.executor.writerTake = none) :
    ∀ task ∈ process.executor.traceDumpTaskVec, Settled task := by
  intro task hmem
  have hwriter := hsound.writer (by rw [hpoint]; nofun)
  rw [writerTake, hwriter] at hnone
  cases hfind : process.executor.traceDumpTaskVec.find? writable with
  | none =>
      exact settled_of_not_writable (hsound.protocol.bounded task hmem)
        (Bool.eq_false_iff.mpr (List.find?_eq_none.mp hfind task hmem))
  | some found =>
      rw [hfind] at hnone
      cases hnone

theorem readerTake_fields (htake : executor.readerTake = some after) :
    after.traceDumpTaskVec = executor.traceDumpTaskVec ∧ after.writer = executor.writer := by
  rw [readerTake] at htake
  split at htake
  · cases htake
    exact ⟨rfl, rfl⟩
  · cases htake

theorem writerTake_fields (htake : executor.writerTake = some after) :
    after.traceDumpTaskVec = executor.traceDumpTaskVec ∧ after.reader = executor.reader := by
  rw [writerTake] at htake
  split at htake
  · cases htake
    exact ⟨rfl, rfl⟩
  · cases htake

theorem processNewTask_fields (htask : executor.processNewTask task = some after) :
    Submitted task ∧ after.traceDumpTaskVec = executor.traceDumpTaskVec ++ [task] ∧
      after.reader = executor.reader ∧ after.writer = executor.writer := by
  rw [processNewTask] at htask
  obtain ⟨hsubmitted, ⟨⟩⟩ := Option.ite_none_right_eq_some.mp htask
  exact ⟨hsubmitted.1, rfl, rfl, rfl⟩

/-- The reader tests what it waits for, and sleeps, takes a task or goes. -/
theorem Sound.readCheck (isHm : Bool) (hsound : Sound process)
    (hstep : ProcessStep isHm process .readCheck next) (hnext : Protocol next.executor) :
    Sound next := by
  cases hstep with
  | readSleep hpoint hflag hnone =>
      have hrunning : process.monitor ≠ .done := by
        intro hdone
        rw [hsound.readFlag, hdone] at hflag
        exact nomatch hflag
      have hpointed : process.readLoop ≠ .notifying := hpoint ▸ nofun
      exact { hsound with
        reader := fun _ => hsound.reader (hpoint ▸ nofun)
        readSleeps := fun _ => ⟨hrunning, hsound.read_none hpoint hnone⟩
        writeSleeps := fun hasleep =>
          ⟨hrunning, fun _ => (hsound.writeSleeps hasleep).2 hpointed⟩ }
  | readTake hpoint _ htake =>
      obtain ⟨hqueue, hwriter⟩ := readerTake_fields htake
      have hpointed : process.readLoop ≠ .notifying := hpoint ▸ nofun
      refine ⟨hnext, hqueue ▸ hsound.fresh, fun hnot => absurd rfl hnot, ?_, hsound.readFlag,
        hsound.writeFlag, nofun, ?_, hqueue ▸ hsound.idle, hqueue ▸ hsound.ended⟩
      · exact fun hnot => hwriter.trans (hsound.writer hnot)
      · intro hasleep
        obtain ⟨hrunning, hsettled⟩ := hsound.writeSleeps hasleep
        exact ⟨hrunning, fun _ => hqueue ▸ hsettled hpointed⟩
  | readLeave hpoint _ =>
      have hpointed : process.readLoop ≠ .notifying := hpoint ▸ nofun
      exact { hsound with
        reader := fun _ => hsound.reader (hpoint ▸ nofun)
        readSleeps := nofun
        writeSleeps := fun hasleep =>
          ⟨(hsound.writeSleeps hasleep).1, fun _ => (hsound.writeSleeps hasleep).2 hpointed⟩ }

theorem Sound.writeCheck (isHm : Bool) (hsound : Sound process)
    (hstep : ProcessStep isHm process .writeCheck next) (hnext : Protocol next.executor) :
    Sound next := by
  cases hstep with
  | writeSleep hpoint hflag hnone =>
      have hrunning : process.monitor ≠ .done := by
        intro hdone
        rw [hsound.writeFlag, hdone] at hflag
        exact nomatch hflag
      exact { hsound with
        writer := fun _ => hsound.writer (hpoint ▸ nofun)
        writeSleeps := fun _ => ⟨hrunning, fun _ => hsound.write_none hpoint hnone⟩ }
  | writeTake hpoint _ htake =>
      obtain ⟨hqueue, hreader⟩ := writerTake_fields htake
      refine ⟨hnext, hqueue ▸ hsound.fresh, ?_, fun hnot => absurd rfl hnot, hsound.readFlag,
        hsound.writeFlag, hqueue ▸ hsound.readSleeps, nofun, hqueue ▸ hsound.idle,
        hqueue ▸ hsound.ended⟩
      exact fun hnot => hreader.trans (hsound.reader hnot)
  | writeLeave hpoint _ =>
      exact { hsound with
        writer := fun _ => hsound.writer (hpoint ▸ nofun)
        writeSleeps := nofun }

theorem Sound.readWork (hsound : Sound process) (hpoint : process.readLoop = .working)
    {rootPathEmpty : Bool} {source : RawSource} {traceFile : List Char}
    (hupdate : process.executor.readerUpdate isHm rootPathEmpty source traceFile =
      some executor) (hnext : Protocol executor) :
    Sound
      { process with
        executor
        readLoop :=
          if readSucceeds process.executor rootPathEmpty source traceFile then .notifying
          else .top } := by
  obtain ⟨hwritten, hreader, hwriter⟩ := readerUpdate_written hsound.protocol hupdate
  have hpointed : process.readLoop ≠ .notifying := hpoint ▸ nofun
  refine ⟨hnext, hwritten.fresh hsound.fresh, fun _ => hreader, ?_, hsound.readFlag,
    hsound.writeFlag, ?_, ?_, ?_, ?_⟩
  · exact fun hnot => hwriter.trans (hsound.writer hnot)
  · intro hasleep
    dsimp only at hasleep
    split at hasleep <;> exact nomatch hasleep
  · intro hasleep
    obtain ⟨hrunning, hsettled⟩ := hsound.writeSleeps hasleep
    refine ⟨hrunning, fun hnot => ?_⟩
    cases hsucceeds : readSucceeds process.executor rootPathEmpty source traceFile with
    | true => exact absurd (by dsimp only; rw [hsucceeds]; rfl) hnot
    | false =>
        exact readerUpdate_settled hsound.protocol hupdate hsucceeds (hsettled hpointed)
  · exact fun hpass hnil => hsound.idle hpass (hwritten.eq_nil.mp hnil)
  · exact fun hended => hwritten.eq_nil.mpr (hsound.ended hended)

theorem Sound.writeWork (hsound : Sound process) {rootPathEmpty : Bool}
    {contents : TraceContents} {environment : TraceIo} {fileSize : Int}
    (hupdate : process.executor.writerUpdate isHm rootPathEmpty contents environment
      fileSize = some executor) (hnext : Protocol executor) :
    Sound { process with executor, writeLoop := .top } := by
  obtain ⟨hwritten, hwriter, hreader⟩ := writerUpdate_written hsound.protocol hupdate
  refine ⟨hnext, hwritten.fresh hsound.fresh, ?_, fun _ => hwriter, hsound.readFlag,
    hsound.writeFlag, ?_, nofun, ?_, ?_⟩
  · exact fun hnot => hreader.trans (hsound.reader hnot)
  · intro hasleep
    obtain ⟨hrunning, hstarted⟩ := hsound.readSleeps hasleep
    exact ⟨hrunning, hwritten.ne_start hstarted⟩
  · exact fun hpass hnil => hsound.idle hpass (hwritten.eq_nil.mp hnil)
  · exact fun hended => hwritten.eq_nil.mpr (hsound.ended hended)

theorem Sound.monitorPass (isHm : Bool) (hsound : Sound process) (hpoint : process.monitor = .pass)
    (environment : PassEnvironment)
    (hstep : ProcessStep isHm process (.monitorPass environment) next)
    (hnext : Protocol next.executor) : Sound next := by
  cases hstep with
  | monitorPass _ =>
      have hflag := hsound.readFlag
      have hwriteFlag := hsound.writeFlag
      rw [hpoint] at hflag hwriteFlag
      refine ⟨hnext, monitorPass_forall hsound.protocol environment
        (fun _ => process_fresh environment) hsound.fresh, hsound.reader, ?_, hflag, hwriteFlag,
        ?_, ?_, nofun, nofun⟩
      · intro hnot
        refine hsound.writer fun hworking => hnot ?_
        dsimp only
        rw [hworking]
        split <;> rfl
      · intro hasleep
        refine ⟨nofun, ?_⟩
        refine monitorPass_forall hsound.protocol environment ?_ (hsound.readSleeps hasleep).2
        exact fun task hstatus hstart => hstatus (process_start environment hstart)
      · intro hasleep
        refine ⟨nofun, fun hnot => ?_⟩
        have hslept : process.writeLoop = .asleep := by
          dsimp only at hasleep
          split at hasleep
          · exact absurd hasleep (notified_ne_asleep _)
          · exact hasleep
        exact monitorPass_forall hsound.protocol environment
          (fun _ => process_settled environment) ((hsound.writeSleeps hslept).2 hnot)

theorem Sound.pollTask (hsound : Sound process) (hpoint : process.monitor = .poll)
    (htask : process.executor.processNewTask task = some executor)
    (hnext : Protocol executor) :
    Sound
      { process with
        executor
        readLoop := process.readLoop.notified
        loopCnt := 1
        monitor := .test } := by
  obtain ⟨hsubmitted, hqueue, hreader, hwriter⟩ := processNewTask_fields htask
  have hflag := hsound.readFlag
  have hwriteFlag := hsound.writeFlag
  rw [hpoint] at hflag hwriteFlag
  refine ⟨hnext, ?_, ?_, ?_, hflag, hwriteFlag, ?_, ?_, nofun, nofun⟩
  · intro other hmem
    rw [hqueue] at hmem
    rcases List.mem_append.mp hmem with hold | hnew
    · exact hsound.fresh other hold
    · rw [List.mem_singleton.mp hnew]
      exact fun _ => hsubmitted.2.2.2
  · exact fun hnot => hreader.trans
      (hsound.reader fun hworking => hnot (notified_eq_working.mpr hworking))
  · exact fun hnot => hwriter.trans (hsound.writer hnot)
  · exact fun hasleep => absurd hasleep (notified_ne_asleep _)
  · intro hasleep
    refine ⟨nofun, fun hnot other hmem => ?_⟩
    have hpointed : process.readLoop ≠ .notifying :=
      fun hnotifying => hnot (notified_eq_notifying.mpr hnotifying)
    rw [hqueue] at hmem
    rcases List.mem_append.mp hmem with hold | hnew
    · exact (hsound.writeSleeps hasleep).2 hpointed other hold
    · rw [List.mem_singleton.mp hnew]
      exact .inl hsubmitted.2.2.1

/-- A reader that neither works nor is about to notify goes on and does not sleep. -/
theorem Sound.setReadLoop (hsound : Sound process) {before after : LoopPoint}
    (hpoint : process.readLoop = before) (hfree : before ≠ .working)
    (hpointed : before ≠ .notifying) (hawake : after ≠ .asleep) :
    Sound { process with readLoop := after } := by
  have hreader := hsound.reader (hpoint ▸ hfree)
  refine { hsound with reader := fun _ => hreader, readSleeps := ?_, writeSleeps := ?_ }
  · exact fun hasleep => absurd hasleep hawake
  · intro hasleep
    obtain ⟨hrunning, hsettled⟩ := hsound.writeSleeps hasleep
    exact ⟨hrunning, fun _ => hsettled (hpoint ▸ hpointed)⟩

theorem Sound.setWriteLoop (hsound : Sound process) {before after : LoopPoint}
    (hpoint : process.writeLoop = before) (hfree : before ≠ .working)
    (hawake : after ≠ .asleep) : Sound { process with writeLoop := after } := by
  have hwriter := hsound.writer (hpoint ▸ hfree)
  exact { hsound with
    writer := fun _ => hwriter
    writeSleeps := fun hasleep => absurd hasleep hawake }

theorem Sound.readNotify (hsound : Sound process) (hpoint : process.readLoop = .notifying) :
    Sound { process with readLoop := .top, writeLoop := process.writeLoop.notified } := by
  have hreader := hsound.reader (hpoint ▸ nofun)
  exact { hsound with
    reader := fun _ => hreader
    writer := fun hnot => hsound.writer fun hworking =>
      hnot (notified_eq_working.mpr hworking)
    readSleeps := nofun
    writeSleeps := fun hasleep => absurd hasleep (notified_ne_asleep _) }

/-- The monitor goes on without touching the queue, and not behind its notification. -/
theorem Sound.monitorMoves (hsound : Sound process) {monitor : MonitorPoint} {loopCnt : Nat}
    {asyncReadFlag asyncWriteFlag : Bool} (hread : asyncReadFlag = monitor.keepsReading)
    (hwrite : asyncWriteFlag = monitor.keepsWriting) (hrunning : monitor ≠ .done)
    (hidle : monitor = .pass → process.executor.traceDumpTaskVec = [] →
      loopCnt < monitorEmptyLoopCount)
    (hended : monitor.ended = true → process.executor.traceDumpTaskVec = []) :
    Sound { process with asyncReadFlag, asyncWriteFlag, monitor, loopCnt } :=
  { hsound with
    readFlag := hread
    writeFlag := hwrite
    readSleeps := fun hasleep => ⟨hrunning, (hsound.readSleeps hasleep).2⟩
    writeSleeps := fun hasleep => ⟨hrunning, (hsound.writeSleeps hasleep).2⟩
    idle := hidle
    ended := hended }

/-- The flags are those of the point at which the monitor is. -/
theorem Sound.flags (hsound : Sound process) {point : MonitorPoint}
    (hpoint : process.monitor = point) :
    process.asyncReadFlag = point.keepsReading ∧ process.asyncWriteFlag = point.keepsWriting := by
  rw [← hpoint]
  exact ⟨hsound.readFlag, hsound.writeFlag⟩

theorem Sound.pollNone (hsound : Sound process) (hpoint : process.monitor = .poll) :
    Sound { process with loopCnt := process.loopCnt + 1, monitor := .test } := by
  obtain ⟨hread, hwrite⟩ := hsound.flags hpoint
  exact hsound.monitorMoves hread hwrite nofun nofun nofun

theorem Sound.monitorTest (hsound : Sound process) (hpoint : process.monitor = .test) :
    Sound
      { process with
        monitor :=
          if process.loopCnt < monitorEmptyLoopCount ∨
              process.executor.traceDumpTaskVec ≠ [] then .pass
          else .endRead } := by
  obtain ⟨hread, hwrite⟩ := hsound.flags hpoint
  split
  · next hgoes =>
      exact hsound.monitorMoves hread hwrite nofun
        (fun _ hnil => hgoes.resolve_right (not_not_intro hnil)) nofun
  · next hends =>
      have hnil := not_not.mp (not_or.mp hends).2
      exact hsound.monitorMoves hread hwrite nofun nofun fun _ => hnil

theorem Sound.endAsyncRead (hsound : Sound process) (hpoint : process.monitor = .endRead) :
    Sound { process with asyncReadFlag := false, monitor := .endWrite } := by
  have hnil := hsound.ended (by rw [hpoint]; rfl)
  exact hsound.monitorMoves rfl (hsound.flags hpoint).2 nofun nofun fun _ => hnil

theorem Sound.endAsyncWrite (hsound : Sound process) (hpoint : process.monitor = .endWrite) :
    Sound { process with asyncWriteFlag := false, monitor := .notifyAll } := by
  have hnil := hsound.ended (by rw [hpoint]; rfl)
  exact hsound.monitorMoves (hsound.flags hpoint).1 rfl nofun nofun fun _ => hnil

theorem Sound.notifyAll (hsound : Sound process) (hpoint : process.monitor = .notifyAll) :
    Sound
      { process with
        readLoop := process.readLoop.notified
        writeLoop := process.writeLoop.notified
        monitor := .done } := by
  obtain ⟨hread, hwrite⟩ := hsound.flags hpoint
  have hnil := hsound.ended (by rw [hpoint]; rfl)
  exact { hsound with
    reader := fun hnot => hsound.reader fun hworking =>
      hnot (notified_eq_working.mpr hworking)
    writer := fun hnot => hsound.writer fun hworking =>
      hnot (notified_eq_working.mpr hworking)
    readFlag := hread
    writeFlag := hwrite
    readSleeps := fun hasleep => absurd hasleep (notified_ne_asleep _)
    writeSleeps := fun hasleep => absurd hasleep (notified_ne_asleep _)
    idle := nofun
    ended := fun _ => hnil }

theorem top_ne_asleep (flag : Bool) :
    (if flag then LoopPoint.check else LoopPoint.done) ≠ .asleep := by
  cases flag <;> exact nofun

theorem sound_step (hsound : Sound process) (hstep : process.step isHm label = some next) :
    Sound next := by
  have hprocess := processStep_of_step hstep
  have hnext : Protocol next.executor := by
    rcases executor_step hstep with heq | ⟨label, hlabel⟩
    · exact heq ▸ hsound.protocol
    · exact protocol_step hsound.protocol hlabel
  cases hprocess with
  | readTop hpoint => exact hsound.setReadLoop hpoint nofun nofun (top_ne_asleep _)
  | readSleep hpoint hflag hnone =>
      exact hsound.readCheck isHm (.readSleep hpoint hflag hnone) hnext
  | readTake hpoint hflag htake =>
      exact hsound.readCheck isHm (.readTake hpoint hflag htake) hnext
  | readLeave hpoint hflag =>
      exact hsound.readCheck isHm (.readLeave hpoint hflag) hnext
  | readWork hpoint hupdate => exact hsound.readWork hpoint hupdate hnext
  | readNotify hpoint => exact hsound.readNotify hpoint
  | readDrowse hpoint => exact hsound.setReadLoop hpoint nofun nofun nofun
  | writeTop hpoint => exact hsound.setWriteLoop hpoint nofun (top_ne_asleep _)
  | writeSleep hpoint hflag hnone =>
      exact hsound.writeCheck isHm (.writeSleep hpoint hflag hnone) hnext
  | writeTake hpoint hflag htake =>
      exact hsound.writeCheck isHm (.writeTake hpoint hflag htake) hnext
  | writeLeave hpoint hflag =>
      exact hsound.writeCheck isHm (.writeLeave hpoint hflag) hnext
  | writeWork _ hupdate => exact hsound.writeWork hupdate hnext
  | writeDrowse hpoint => exact hsound.setWriteLoop hpoint nofun nofun
  | monitorPass hpoint environment =>
      exact hsound.monitorPass isHm hpoint environment (.monitorPass hpoint _) hnext
  | pollNone hpoint => exact hsound.pollNone hpoint
  | pollTask hpoint htask => exact hsound.pollTask hpoint htask hnext
  | monitorTest hpoint => exact hsound.monitorTest hpoint
  | endAsyncRead hpoint => exact hsound.endAsyncRead hpoint
  | endAsyncWrite hpoint => exact hsound.endAsyncWrite hpoint
  | notifyAll hpoint => exact hsound.notifyAll hpoint

theorem sound_of_reachable (hreach : (dumpThreads isHm).Reachable process) :
    Sound process :=
  (dumpThreads isHm).invariant_of_step (fun _ => sound_init) (fun _ _ _ => sound_step) hreach

end DumpThreads

open DumpThreads in
/-- The threads do with the queue what the process without them can do.  While one of them
sleeps there is nothing for it in the queue, the moment before a notification apart; when
the monitor has left its loop no task is queued, and behind its notification none
sleeps. -/
theorem dump_loops_lose_no_wakeup {isHm : Bool} {process : DumpThreads}
    (hreach : (dumpThreads isHm).Reachable process) :
    (traceDumpExecutor isHm).Reachable process.executor ∧
      (process.readLoop = .asleep →
        ∀ task ∈ process.executor.traceDumpTaskVec, task.status ≠ .start) ∧
      (process.writeLoop = .asleep → process.readLoop ≠ .notifying →
        ∀ task ∈ process.executor.traceDumpTaskVec,
          task.status = .start ∨ AwaitsMonitor task) ∧
      (process.monitor.ended = true → process.executor.traceDumpTaskVec = []) ∧
      (process.monitor = .done →
        process.readLoop ≠ .asleep ∧ process.writeLoop ≠ .asleep) := by
  have hsound := sound_of_reachable hreach
  refine ⟨executor_reachable hreach, fun hread => (hsound.readSleeps hread).2,
    fun hwrite => (hsound.writeSleeps hwrite).2, hsound.ended, fun hdone => ⟨?_, ?_⟩⟩
  · exact fun hread => (hsound.readSleeps hread).1 hdone
  · exact fun hwrite => (hsound.writeSleeps hwrite).1 hdone

open DumpThreads in
/-- A read has succeeded while the writer sleeps: between the two sections of the reader
the task is there and the writer is not yet told. -/
theorem dump_loops_lose_no_wakeup_one_read :
    ∃ process : DumpThreads, (dumpThreads true).Reachable process ∧
      process.writeLoop = .asleep ∧ process.readLoop = .notifying ∧
      process.executor.traceDumpTaskVec.map TraceDumpTask.status = [.readDone] ∧
      ((process.monitor = .done → process.writeLoop ≠ .asleep) ∧
        (traceDumpExecutor true).Reachable process.executor) := by
  let page : RawPage := ⟨List.replicate 8 0, 0, by decide⟩
  let task : TraceDumpTask :=
    { time := 7, traceEndTime := 100, fileSizeLimit := 100000000 }
  let labels : List DumpThreads.Label :=
    [.writeTop, .writeCheck, .monitorPass ⟨fun _ => 0, fun _ => .written⟩,
      .monitorPoll (some task), .readTop, .readCheck,
      .readWork false (.hm ⟨⟨true, [page]⟩, [true]⟩) ['a']]
  have hrun : ((dumpThreads true).run { executor := {} } labels).map (fun process =>
      (process.writeLoop, process.readLoop,
        process.executor.traceDumpTaskVec.map TraceDumpTask.status)) =
        some (.asleep, .notifying, [.readDone]) := by
    decide +kernel
  obtain ⟨process, hprocess, heq⟩ := Option.map_eq_some_iff.mp hrun
  have hreach : (dumpThreads true).Reachable process :=
    ⟨labels, { executor := {} },
      ⟨⟨List.nodup_nil, fun _ hmem => (nomatch hmem), rfl⟩, rfl⟩, hprocess⟩
  refine ⟨process, hreach, congrArg Prod.fst heq, congrArg (Prod.fst ∘ Prod.snd) heq,
    congrArg (Prod.snd ∘ Prod.snd) heq, fun hdone => ?_, ?_⟩
  · exact ((dump_loops_lose_no_wakeup hreach).2.2.2.2 hdone).2
  · exact (dump_loops_lose_no_wakeup hreach).1

end Hitrace
