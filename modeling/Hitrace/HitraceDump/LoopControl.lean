import Hitrace.Define
import Hitrace.TracedumpExecutor.DumpState
import Hitrace.Utils.TraceFileUtils

namespace Hitrace

open TraceDumpState

/-! The public calls of `hitrace_dump.cpp` that start and stop the record and
cache loops.  Calls hold `g_traceMutex`, so at most one is in progress; the loop
threads run outside of it and meet the calls only at the word `state_`. -/

def isTraceOpen (mode : TraceMode) : Bool :=
  mode &&& TraceMode.modeOpen != 0

def isRecordOn (mode : TraceMode) : Bool :=
  mode &&& TraceMode.modeRecord != 0

def isCacheOn (mode : TraceMode) : Bool :=
  mode &&& TraceMode.modeCache != 0

structure BootTrace where
  active : Bool
  root : Bool
  deriving DecidableEq, Repr

def bootTraceArbShouldReturnLocked (boot : BootTrace) (closeNoOpOnBlock : Bool) :
    Option TraceErrorCode :=
  if !boot.active || boot.root then none
  else some (if closeNoOpOnBlock then .success else .bootTraceActive)

/-- The overloads of `OpenTrace`, each with the results of the checks it makes
between its test of `g_traceMode` and the assignment of OPEN. -/
inductive OpenTrace
  | tagGroups (isHmKernel allTagsEmpty : Bool) (handled : TraceErrorCode)
  | traceArgs (prepared handled : TraceErrorCode)
  | args (tablesEmpty parsed : Bool) (handled : TraceErrorCode)
  deriving DecidableEq, Repr

def OpenTrace.result : OpenTrace → TraceErrorCode
  | .tagGroups isHmKernel allTagsEmpty handled =>
      if isHmKernel && allTagsEmpty then .tagError else handled
  | .traceArgs prepared handled =>
      if prepared = .success then handled else prepared
  | .args tablesEmpty parsed handled =>
      if tablesEmpty || !parsed then .tagError else handled

def openTrace (boot : BootTrace) (rootPathEmpty : Bool) (overload : OpenTrace)
    (mode : TraceMode) : TraceErrorCode × TraceMode :=
  match bootTraceArbShouldReturnLocked boot false with
  | some code => (code, mode)
  | none =>
      if mode ≠ TraceMode.modeClose then (.wrongTraceMode, mode)
      else if rootPathEmpty then (.traceNotSupported, mode)
      else if overload.result ≠ .success then (overload.result, mode)
      else (.success, TraceMode.modeOpen)

inductive LoopKind
  | record
  | cache
  deriving DecidableEq, Repr

def LoopKind.mode : LoopKind → TraceMode
  | .record => TraceMode.modeRecord
  | .cache => TraceMode.modeCache

/-- `CacheTraceOn` has no output path, and only `RecordTraceOn` checks one. -/
def LoopKind.acceptsPath (kind : LoopKind) (outputPath : List Char) : Bool :=
  match kind with
  | .record => outputPath.isEmpty || isWritable outputPath
  | .cache => true

inductive LoopPc
  | looping
  | ending (pc : EndLoopDumpSelf)
  deriving DecidableEq, Repr

/-- A loop thread between its start and its store of IDLE.  `token` numbers the
`StartLoopDump` it was started for. -/
structure LoopThread where
  kind : LoopKind
  token : Nat
  pc : LoopPc
  deriving DecidableEq, Repr

inductive OnStage
  | preCheck
  | outputPath
  | started
  deriving DecidableEq, Repr

inductive StopCall
  | recordTraceOff
  | cacheTraceOff
  | closeTrace (allTagsEmpty : Bool)
  deriving DecidableEq, Repr

inductive CacheStage
  | interrupt
  | resume
  deriving DecidableEq, Repr

inductive LoopCall
  | loopOn (kind : LoopKind) (outputPath : List Char) (stage : OnStage)
  | endLoopDump (reason : StopCall) (pc : EndLoopDump)
  | getCacheTraceFiles (stage : CacheStage)
  deriving DecidableEq, Repr

/-- The return of a call.  `acquired` records that its `StartLoopDump`
succeeded, the only way in which `RecordTraceOn` or `CacheTraceOn` writes
`state_`. -/
structure LoopReturn where
  onCall : Option LoopKind
  code : TraceErrorCode
  acquired : Bool := false
  deriving DecidableEq, Repr

structure LoopControl where
  mode : TraceMode := TraceMode.modeClose
  state : DumpState := .idle
  starts : Nat := 0
  threads : List LoopThread := []
  call : Option LoopCall := none
  returned : Option LoopReturn := none
  deriving DecidableEq, Repr

namespace LoopControl

inductive Label
  | openTrace (boot : BootTrace) (rootPathEmpty : Bool) (overload : OpenTrace)
  | loopOn (kind : LoopKind) (boot : BootTrace) (outputPath : List Char)
  | recordTraceOff (boot : BootTrace)
  | cacheTraceOff (boot : BootTrace)
  | closeTrace (boot : BootTrace) (allTagsEmpty : Bool)
  | dumpTrace (boot : BootTrace) (searches : Bool) (code : TraceErrorCode)
  | callStep (timeout : Bool)
  | isLoopDumpRunning (thread : Nat)
  | loopFailed (thread : Nat)
  | endLoopDumpSelfLoad (thread : Nat)
  | endLoopDumpSelfStore (thread : Nat)
  deriving DecidableEq, Repr

def finish (control : LoopControl) (onCall : Option LoopKind)
    (code : TraceErrorCode) (acquired : Bool := false) : LoopControl :=
  { control with call := none, returned := some ⟨onCall, code, acquired⟩ }

def enter (control : LoopControl) (call : LoopCall) : LoopControl :=
  { control with call := some call, returned := none }

def loopOn (kind : LoopKind) (boot : BootTrace) (outputPath : List Char)
    (control : LoopControl) : LoopControl :=
  match bootTraceArbShouldReturnLocked boot false with
  | some code => control.finish (some kind) code
  | none =>
      if control.mode ≠ TraceMode.modeOpen then
        control.finish (some kind) .wrongTraceMode
      else control.enter (.loopOn kind outputPath .preCheck)

def recordTraceOff (boot : BootTrace) (control : LoopControl) : LoopControl :=
  match bootTraceArbShouldReturnLocked boot false with
  | some code => control.finish none code
  | none =>
      if !isRecordOn control.mode then control.finish none .wrongTraceMode
      else control.enter (.endLoopDump .recordTraceOff .entered)

def cacheTraceOff (boot : BootTrace) (control : LoopControl) : LoopControl :=
  match bootTraceArbShouldReturnLocked boot false with
  | some code => control.finish none code
  | none =>
      if control.mode ≠ TraceMode.modeOpen ||| TraceMode.modeCache then
        control.finish none .wrongTraceMode
      else control.enter (.endLoopDump .cacheTraceOff .entered)

/-- The code after `EndLoopDump` in the three calls that stop a loop. -/
def stopped (reason : StopCall) (control : LoopControl) : LoopControl :=
  match reason with
  | .recordTraceOff =>
      { control with mode := control.mode &&& ~~~TraceMode.modeRecord }.finish
        none .success
  | .cacheTraceOff =>
      { control with mode := control.mode &&& ~~~TraceMode.modeCache }.finish
        none .success
  | .closeTrace allTagsEmpty =>
      { control with mode := TraceMode.modeClose }.finish none
        (if allTagsEmpty then .tagError else .success)

def closeTrace (boot : BootTrace) (allTagsEmpty : Bool) (control : LoopControl) :
    LoopControl :=
  match bootTraceArbShouldReturnLocked boot true with
  | some code => control.finish none code
  | none =>
      if control.mode = TraceMode.modeClose then control.finish none .success
      else if isRecordOn control.mode || isCacheOn control.mode then
        control.enter (.endLoopDump (.closeTrace allTagsEmpty) .entered)
      else control.stopped (.closeTrace allTagsEmpty)

/-- `DumpTrace` and `DumpTraceAsync` touch `state_` only in the search for cache
files; `searches` says whether the call gets there and `code` what it returns
otherwise. -/
def dumpTrace (boot : BootTrace) (searches : Bool) (code : TraceErrorCode)
    (control : LoopControl) : LoopControl :=
  match bootTraceArbShouldReturnLocked boot false with
  | some code => control.finish none code
  | none =>
      if !isTraceOpen control.mode || isRecordOn control.mode then
        control.finish none .wrongTraceMode
      else if searches then control.enter (.getCacheTraceFiles .interrupt)
      else control.finish none code

/-- The next atomic step of the call in progress. -/
def callStep (timeout : Bool) (control : LoopControl) : LoopCall → LoopControl
  | .loopOn kind outputPath .preCheck =>
      if (startLoopDump control.state).1 then
        { control with
          state := (startLoopDump control.state).2
          starts := control.starts + 1 }.enter (.loopOn kind outputPath .outputPath)
      else control.finish (some kind) .wrongTraceMode
  | .loopOn kind outputPath .outputPath =>
      if kind.acceptsPath outputPath then
        { control with
          threads := control.threads ++
            [LoopThread.mk kind control.starts .looping] }.enter
            (.loopOn kind outputPath .started)
      else control.finish (some kind) .fileError true
  | .loopOn kind _ .started =>
      { control with mode := control.mode ||| kind.mode }.finish
        (some kind) .success true
  | .endLoopDump reason .entered =>
      control.enter (.endLoopDump reason (.load control.state))
  | .endLoopDump reason (.loaded _) =>
      { control with state := .stopping }.enter (.endLoopDump reason .waiting)
  | .endLoopDump reason .waiting =>
      control.enter (.endLoopDump reason (.wait timeout control.state))
  | .endLoopDump reason .returned => control.stopped reason
  | .getCacheTraceFiles .interrupt =>
      { control with state := (interruptCache control.state).2 }.enter
        (.getCacheTraceFiles .resume)
  | .getCacheTraceFiles .resume =>
      { control with state := (continueCache control.state).2 }.finish
        none .success

def setThread (control : LoopControl) (index : Nat) (thread : LoopThread)
    (pc : LoopPc) : LoopControl :=
  { control with
    threads := control.threads.set index { thread with pc }, returned := none }

/-- The steps of the loop thread at `index`. -/
def threadStep (control : LoopControl) (index : Nat) (thread : LoopThread) :
    Label → Option LoopControl
  | .isLoopDumpRunning _ =>
      match thread.pc with
      | .looping =>
          some (control.setThread index thread
            (if isLoopDumpRunning control.state then .looping
              else .ending .entered))
      | _ => none
  | .loopFailed _ =>
      match thread.pc with
      | .looping => some (control.setThread index thread (.ending .entered))
      | _ => none
  | .endLoopDumpSelfLoad _ =>
      match thread.pc with
      | .ending .entered =>
          some (control.setThread index thread (.ending (.loaded control.state)))
      | _ => none
  | .endLoopDumpSelfStore _ =>
      match thread.pc with
      | .ending (.loaded _) =>
          some { control with
            state := .idle
            threads := control.threads.eraseIdx index
            returned := none }
      | _ => none
  | _ => none

def Label.thread? : Label → Option Nat
  | .isLoopDumpRunning thread => some thread
  | .loopFailed thread => some thread
  | .endLoopDumpSelfLoad thread => some thread
  | .endLoopDumpSelfStore thread => some thread
  | _ => none

/-- A call that no other call keeps off `g_traceMutex`. -/
def publicCall (control : LoopControl) : Label → Option LoopControl
  | .openTrace boot rootPathEmpty overload =>
      let result := Hitrace.openTrace boot rootPathEmpty overload control.mode
      some ({ control with mode := result.2 }.finish none result.1)
  | .loopOn kind boot outputPath => some (control.loopOn kind boot outputPath)
  | .recordTraceOff boot => some (control.recordTraceOff boot)
  | .cacheTraceOff boot => some (control.cacheTraceOff boot)
  | .closeTrace boot allTagsEmpty => some (control.closeTrace boot allTagsEmpty)
  | .dumpTrace boot searches code => some (control.dumpTrace boot searches code)
  | _ => none

def step (control : LoopControl) (label : Label) : Option LoopControl :=
  match label.thread? with
  | some index =>
      match control.threads[index]? with
      | some thread => control.threadStep index thread label
      | none => none
  | none =>
      match control.call, label with
      | some call, .callStep timeout => some (control.callStep timeout call)
      | some _, _ => none
      | none, _ => control.publicCall label

end LoopControl

def loopControl : Library.Machine LoopControl LoopControl.Label where
  init control := control = {}
  step := LoopControl.step

end Hitrace
