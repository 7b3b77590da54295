import Hitrace.HitraceDump.LoopControl
import Hitrace.Library.Transition
import Mathlib.Logic.Function.Basic

namespace Hitrace

open Library

/-! `DumpTraceAsync` on the side of the parent.  Calls hold `g_traceMutex`, so at
most one is in progress; the `WaitAsyncDumpRetLoop` threads run beside it and
meet it at the globals and, for a moment, at `g_traceRetAndCallbackMutex`. -/

/-- The arguments of a call with the mode, the clocks and the state of the
service it is made in. -/
structure DumpTraceAsync where
  mode : TraceMode
  boot : BootTrace
  serviceRunning : Bool
  maxDuration : UInt32
  utTraceEndTime : UInt64
  utNow : UInt64
  btNow : UInt64
  asyncCallback : Bool
deriving Repr, DecidableEq

def checkTraceDumpStatus (args : DumpTraceAsync) : TraceErrorCode :=
  if !isTraceOpen args.mode || isRecordOn args.mode then .wrongTraceMode
  else if args.maxDuration = UInt32.ofNat (UInt32.size - 1) then .invalidMaxDuration
  else if !args.serviceRunning then .traceIsOccupied
  else .success

def setTimeIntervalBoundary (args : DumpTraceAsync) : TraceErrorCode :=
  let utTraceEndTime :=
    if args.utTraceEndTime ≥ args.utNow then 0 else args.utTraceEndTime
  let utBootTime := args.utNow - args.btNow
  if utTraceEndTime = 0 ∨ utTraceEndTime > utBootTime then .success
  else .outOfTime

/-- How far `DumpTraceAsync` comes before it has a task: it replies and returns,
it returns without a reply, or it goes on. -/
inductive Admission
  | replied
  | refused (code : TraceErrorCode)
  | admitted
deriving Repr, DecidableEq

def DumpTraceAsync.admission (args : DumpTraceAsync) : Admission :=
  match bootTraceArbShouldReturnLocked args.boot false with
  | some _ => .replied
  | none =>
      if checkTraceDumpStatus args ≠ .success then
        .refused (checkTraceDumpStatus args)
      else if isCacheOn args.mode then .replied
      else if setTimeIntervalBoundary args ≠ .success then
        .refused (setTimeIntervalBoundary args)
      else .admitted

/-! The globals of a session.  Every `InitTraceDumpPipe` begins a new one, and its
number names the fifos and the process made in it. -/

/-- A dump process; `fifo` is the generation of the fifos it has opened. -/
structure DumpProcess where
  session : Nat
  fifo : Option Nat := none
  alive : Bool := true
deriving Repr, DecidableEq

structure SessionTask where
  time : UInt64
  session : Nat
deriving Repr, DecidableEq

/-- Where a `WaitAsyncDumpRetLoop` stands.  The last four are the clean-up behind
its exit test. -/
inductive WaitPc
  | starting
  | testing
  | reading
  | removing (time : UInt64)
  | clearPid
  | clearTask
  | clearPipe
  | storeTid
deriving Repr, DecidableEq

/-- `session` is the generation of the fifo its pipe reads. -/
structure WaitLoop where
  tid : Nat
  session : Nat
  emptyLoopCnt : Nat := 0
  pc : WaitPc := .starting
deriving Repr, DecidableEq

/-- The exit test has come out true. -/
def WaitLoop.leaving (loop : WaitLoop) : Bool :=
  match loop.pc with
  | .starting | .testing | .reading | .removing _ => false
  | .clearPid | .clearTask | .clearPipe | .storeTid => true

/-- `fifo` is the generation the names lead to; a thread id is the number of
threads started before it. -/
structure DumpSession where
  session : Nat := 0
  fifo : Option Nat := none
  processes : List DumpProcess := []
  traceDumpTaskPid : Option Nat := none
  traceDumpTaskVec : List SessionTask := []
  asyncWaitTid : Option Nat := none
  loops : List WaitLoop := []
  spawned : Nat := 0
deriving Repr, DecidableEq

namespace DumpSession

def isProcessExist (dump : DumpSession) (pid : Option Nat) : Bool :=
  match pid with
  | none => false
  | some session =>
      dump.processes.any fun process => process.session == session && process.alive

def kill (dump : DumpSession) (pid : Option Nat) : DumpSession :=
  { dump with
    processes := dump.processes.map fun process =>
      if some process.session = pid then { process with alive := false }
      else process }

def clearTraceDumpTask (dump : DumpSession) : DumpSession :=
  { dump with traceDumpTaskVec := [] }

def clearTraceDumpPipe (dump : DumpSession) : DumpSession :=
  { dump with fifo := none }

def removeTraceDumpTask (dump : DumpSession) (time : UInt64) : DumpSession :=
  { dump with
    traceDumpTaskVec := dump.traceDumpTaskVec.filter fun task => task.time ≠ time }

def setLoop (dump : DumpSession) (tid emptyLoopCnt : Nat) (pc : WaitPc) :
    DumpSession :=
  { dump with
    loops := dump.loops.map fun loop =>
      if loop.tid = tid then { loop with emptyLoopCnt, pc } else loop }

end DumpSession

/-! One call of `HandleDumpTraceAsyncTask`. -/

inductive CallPc
  | register
  | taskCount
  | remainingSpace
  | sigChldHandler
  | processTest
  | clearPipe
  | initPipe
  | fork
  | assignPid
  | addTask
  | openPipe
  | submit
  | waitSync
  | asyncTest
  | answer (code : TraceErrorCode)
deriving Repr, DecidableEq

/-- `server` is the process whose sync reply the call has read. -/
structure AsyncCall where
  number : Nat
  asyncCallback : Bool
  taskid : UInt64
  pc : CallPc := .register
  taskCnt : Nat := 0
  pipe : Option Nat := none
  pid : Option Nat := none
  server : Option Nat := none
deriving Repr, DecidableEq

structure SyncReply where
  server : Nat
  time : UInt64
  code : TraceErrorCode
  status : TraceDumpStatus
  noOutputFiles : Bool
deriving Repr, DecidableEq

/-- `HandleAsyncDumpResult`, as far as the error code goes. -/
def SyncReply.errorCode (reply : SyncReply) : TraceErrorCode :=
  if reply.code = .success then .success
  else if reply.noOutputFiles then reply.code
  else .success

/-- What the system answers to one step of a call. -/
inductive CallOutcome
  | ok
  | failed
  | timeout
  | reply (reply : SyncReply)
deriving Repr, DecidableEq

/-- The reply went through the fifo of this call; no process sends ASYNC_DUMP. -/
def DumpSession.delivers (dump : DumpSession) (call : AsyncCall)
    (reply : SyncReply) : Bool :=
  decide (reply.code ≠ .asyncDump) && call.pipe.isSome &&
    dump.processes.any fun process =>
      process.session == reply.server && process.fifo == call.pipe

/-- The end of `WaitSyncDumpRetLoop` and what `SubmitTaskAndWaitReturn` makes of
it. -/
def waitSyncDumpRet (dump : DumpSession) (call : AsyncCall) (reply : SyncReply) :
    DumpSession × AsyncCall :=
  let call := { call with server := some reply.server }
  if reply.status = .writeDone then
    (dump.removeTraceDumpTask reply.time, { call with pc := .answer reply.errorCode })
  else if reply.status = .finish then
    (dump, { call with pc := .answer reply.errorCode })
  else if reply.code ≠ .traceTaskDumpTimeout then
    (dump, { call with pc := .asyncTest })
  else (dump, { call with pc := .answer .traceTaskDumpTimeout })

/-- `ProcessDumpAsync` with `SubmitTaskAndWaitReturn`, one step. -/
def processDumpAsync (dump : DumpSession) (call : AsyncCall)
    (outcome : CallOutcome) : Option (DumpSession × AsyncCall) :=
  match call.pc, outcome with
  | .taskCount, .ok =>
      some (dump,
        { call with pc := .remainingSpace, taskCnt := dump.traceDumpTaskVec.length })
  | .remainingSpace, .ok => some (dump, { call with pc := .sigChldHandler })
  | .remainingSpace, .failed => some (dump, { call with pc := .answer .fileError })
  | .sigChldHandler, .ok => some (dump, { call with pc := .processTest })
  | .sigChldHandler, .failed => some (dump, { call with pc := .answer .forkError })
  | .processTest, .ok =>
      if dump.isProcessExist dump.traceDumpTaskPid ∧ call.taskCnt > 0 then
        some (dump, { call with pc := .addTask })
      else some (dump, { call with pc := .clearPipe })
  | .clearPipe, .ok =>
      some (dump.clearTraceDumpPipe, { call with pc := .initPipe })
  | .initPipe, .ok =>
      if dump.fifo.isSome then
        some (dump, { call with pc := .answer .pipeCreateError })
      else
        some
          ({ dump with session := dump.session + 1, fifo := some (dump.session + 1) },
            { call with pc := .fork })
  | .initPipe, .failed =>
      some (dump, { call with pc := .answer .pipeCreateError })
  | .fork, .ok =>
      some ({ dump with processes := dump.processes ++ [⟨dump.session, none, true⟩] },
        { call with pc := .assignPid })
  | .fork, .failed => some (dump, { call with pc := .answer .forkError })
  | .assignPid, .ok =>
      some ({ dump with traceDumpTaskPid := some dump.session },
        { call with pc := .addTask })
  | .addTask, .ok =>
      some
        ({ dump with
            traceDumpTaskVec := dump.traceDumpTaskVec ++ [⟨call.taskid, dump.session⟩] },
          { call with pc := .openPipe })
  | .openPipe, .ok => some (dump, { call with pc := .submit, pipe := dump.fifo })
  | .openPipe, .failed => some (dump, { call with pc := .submit, pipe := none })
  | .submit, .ok =>
      if call.pipe.isSome then
        some (dump, { call with pc := .waitSync, pid := dump.traceDumpTaskPid })
      else some (dump, { call with pc := .answer .traceTaskSubmitError })
  | .submit, .failed =>
      some (dump, { call with pc := .answer .traceTaskSubmitError })
  | .waitSync, .timeout =>
      some (dump.clearTraceDumpTask.kill call.pid,
        { call with pc := .answer .traceTaskDumpTimeout })
  | .waitSync, .reply reply =>
      if dump.delivers call reply then some (waitSyncDumpRet dump call reply)
      else none
  | .asyncTest, .ok =>
      match dump.asyncWaitTid, call.pipe with
      | none, some session =>
          some
            ({ dump with
                loops := dump.loops ++ [{ tid := dump.spawned, session }]
                spawned := dump.spawned + 1 },
              { call with pc := .answer .asyncDump })
      | some _, some _ => some (dump, { call with pc := .answer .asyncDump })
      | _, none => none
  | _, _ => none

def asyncWaitEmptyLoopCnt : Nat := 180

/-- The steps of a `WaitAsyncDumpRetLoop` that need no lock. -/
def waitAsyncDumpRetLoop (dump : DumpSession) (loop : WaitLoop)
    (read : Option (UInt64 × TraceDumpStatus)) : DumpSession :=
  match loop.pc with
  | .starting =>
      { dump with asyncWaitTid := some loop.tid }.setLoop loop.tid 0 .testing
  | .testing =>
      if loop.emptyLoopCnt ≥ asyncWaitEmptyLoopCnt ∨
          dump.isProcessExist dump.traceDumpTaskPid = false then
        dump.setLoop loop.tid loop.emptyLoopCnt .clearPid
      else dump.setLoop loop.tid loop.emptyLoopCnt .reading
  | .reading =>
      match read with
      | none => dump.setLoop loop.tid (loop.emptyLoopCnt + 1) .testing
      | some (time, _) => dump.setLoop loop.tid 0 (.removing time)
  | .removing time =>
      (dump.removeTraceDumpTask time).setLoop loop.tid loop.emptyLoopCnt .testing
  | .clearPid =>
      { dump with traceDumpTaskPid := none }.setLoop loop.tid loop.emptyLoopCnt
        .clearTask
  | .clearTask =>
      dump.clearTraceDumpTask.setLoop loop.tid loop.emptyLoopCnt .clearPipe
  | .clearPipe =>
      dump.clearTraceDumpPipe.setLoop loop.tid loop.emptyLoopCnt .storeTid
  | .storeTid =>
      { dump with
        asyncWaitTid := none
        loops := dump.loops.filter fun other => other.tid ≠ loop.tid }

/-! The machine. -/

structure ReturnedCall where
  number : Nat
  asyncCallback : Bool
  taskid : Option UInt64
deriving Repr, DecidableEq

/-- `callbacks` maps a task to its callback, if that is not null, by the number of
the call.  `returned` and `invoked` record the calls that have returned and the
callbacks that were invoked. -/
structure AsyncSession where
  dump : DumpSession := {}
  call : Option AsyncCall := none
  callbacks : UInt64 → Option (Option Nat) := fun _ => none
  traceRetInfos : UInt64 → Bool := fun _ => false
  calls : Nat := 0
  taskids : List UInt64 := []
  returned : List ReturnedCall := []
  invoked : List Nat := []

namespace AsyncSession

inductive Label
  | dumpTraceAsync (args : DumpTraceAsync) (taskid : UInt64)
  | callStep (outcome : CallOutcome)
  | loopStep (tid : Nat) (read : Option (UInt64 × TraceDumpStatus))
  | childOpen (session : Nat)
  | processDies (session : Nat)
  | sigChld
deriving Repr, DecidableEq

/-- `g_traceRetAndCallbackMutex` is not held by the call. -/
def retMutexFree (state : AsyncSession) : Bool :=
  match state.call with
  | none => true
  | some call => decide (call.pc = .register)

def replyIfNeeded (asyncCallback : Bool) (number : Nat) : List Nat :=
  if asyncCallback then [number] else []

def dumpTraceAsync (state : AsyncSession) (args : DumpTraceAsync)
    (taskid : UInt64) : Option AsyncSession :=
  if state.call.isSome then none
  else
    match args.admission with
    | .replied =>
        some
          { state with
            calls := state.calls + 1
            returned := state.returned ++ [⟨state.calls, args.asyncCallback, none⟩]
            invoked := state.invoked ++ replyIfNeeded args.asyncCallback state.calls }
    | .refused _ =>
        some
          { state with
            calls := state.calls + 1
            returned := state.returned ++ [⟨state.calls, args.asyncCallback, none⟩] }
    | .admitted =>
        if taskid ∈ state.taskids then none
        else
          some
            { state with
              call := some
                { number := state.calls, asyncCallback := args.asyncCallback, taskid }
              calls := state.calls + 1
              taskids := state.taskids ++ [taskid] }

/-- The call gets the lock and enters its callback. -/
def register (state : AsyncSession) (call : AsyncCall) : AsyncSession :=
  { state with
    call := some { call with pc := .taskCount }
    callbacks := Function.update state.callbacks call.taskid
      (some (if call.asyncCallback then some call.number else none)) }

/-- The end of `HandleDumpTraceAsyncTask`. -/
def answer (state : AsyncSession) (call : AsyncCall) (code : TraceErrorCode) :
    AsyncSession :=
  let state : AsyncSession :=
    { state with
      call := none
      returned := state.returned ++
        [⟨call.number, call.asyncCallback, some call.taskid⟩] }
  if code = .asyncDump then
    { state with
      traceRetInfos := Function.update state.traceRetInfos call.taskid true }
  else
    { state with
      invoked := state.invoked ++ replyIfNeeded call.asyncCallback call.number
      callbacks := Function.update state.callbacks call.taskid none }

def callStep (state : AsyncSession) (outcome : CallOutcome) : Option AsyncSession :=
  match state.call with
  | none => none
  | some call =>
      match call.pc with
      | .register => some (state.register call)
      | .answer code => some (state.answer call code)
      | _ =>
          (processDumpAsync state.dump call outcome).map fun (dump, call) =>
            { state with dump, call := some call }

/-- The section of the loop under the lock: the callback of a finished task is
invoked, and both entries go. -/
def finishTask (state : AsyncSession) (time : UInt64) : AsyncSession :=
  { state with
    invoked := state.invoked ++
      match state.callbacks time with
      | some (some number) => [number]
      | _ => []
    callbacks := Function.update state.callbacks time none
    traceRetInfos := Function.update state.traceRetInfos time false }

def loopStep (state : AsyncSession) (tid : Nat)
    (read : Option (UInt64 × TraceDumpStatus)) : Option AsyncSession :=
  match state.dump.loops.find? fun loop => loop.tid == tid with
  | none => none
  | some loop =>
      let next := { state with dump := waitAsyncDumpRetLoop state.dump loop read }
      match loop.pc, read with
      | .reading, some (time, .writeDone) =>
          if state.retMutexFree then some (next.finishTask time) else none
      | _, _ => some next

def step (state : AsyncSession) : Label → Option AsyncSession
  | .dumpTraceAsync args taskid => state.dumpTraceAsync args taskid
  | .callStep outcome => state.callStep outcome
  | .loopStep tid read => state.loopStep tid read
  | .childOpen session =>
      some
        { state with
          dump.processes := state.dump.processes.map fun process =>
            if process.session = session ∧ process.fifo = none then
              { process with fifo := state.dump.fifo }
            else process }
  | .processDies session => some { state with dump := state.dump.kill (some session) }
  | .sigChld =>
      some
        (if state.dump.isProcessExist state.dump.traceDumpTaskPid then state
        else { state with dump.traceDumpTaskPid := none })

end AsyncSession

def asyncSession : Machine AsyncSession AsyncSession.Label where
  init := fun state => state = {}
  step := AsyncSession.step

open AsyncSession in
/-- A call that forks a process and comes to the test of `g_asyncWaitTid`. -/
def forkingCall : List Label :=
  Label.dumpTraceAsync ⟨TraceMode.modeOpen, ⟨false, false⟩, true, 0, 0, 9, 3, true⟩ 1 ::
    List.replicate 10 (Label.callStep .ok) ++
      [Label.childOpen 1, .callStep .ok, .callStep .ok,
        .callStep (.reply ⟨1, 1, .success, .readDone, false⟩)]

end Hitrace
