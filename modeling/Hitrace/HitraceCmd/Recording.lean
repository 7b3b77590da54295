import Hitrace.HitraceCmd.CommandLine
import Hitrace.Utils.OutputPath

namespace Hitrace

open CommandLine

/-! `main` of `hitrace_cmd.cpp`: the commands that record, with the trace collector as a
parameter. -/

namespace Recording

def defaultBufferSize : UInt32 := 18432

def defaultFileSize : UInt32 := 102400

def maxArguments : Nat := 256

/-- `UCollectClient::TraceParam`. -/
structure TraceParam where
  bufferSize : UInt32 := 0
  clockType : List Char := "boot".toList
  isOverWrite : Bool := true
  fileSizeLimit : UInt32 := 0
  totalSize : UInt64 := 0
deriving Repr, DecidableEq

inductive CollectorCall
  | openTrace (tags : List (List Char)) (param : TraceParam)
  | recordingOn (outputPath : Option (List Char))
  | recordingOff
  | close
  | dumpSnapshot (outputPath : List Char)
deriving Repr, DecidableEq

/-- `error` is a `retCode` other than `SUCCESS`. -/
structure Reply where
  error : Option Int := none
  data : List String := []
deriving Repr, DecidableEq

abbrev Collector (σ : Type) := σ → CollectorCall → Reply × σ

inductive CmdErrorCode
  | openRootPathFailure
  | openFilePathFailure
  | tracingOnClosed
deriving Repr, DecidableEq

def CmdErrorCode.value : CmdErrorCode → Int
  | .openRootPathFailure => 2001
  | .openFilePathFailure => 2002
  | .tracingOnClosed => 2003

/-- The members of `TraceSysEventParams` that are assigned. -/
structure TraceSysEventParams where
  opt : String := ""
  caller : String := ""
  fileSize : Int32 := 0
  error : Option CmdErrorCode := none
  errorMessage : String := ""
deriving Repr, DecidableEq

/-- What a command does, in order. -/
inductive Event
  | consoleLog (logInfo : String)
  | output (item : String)
  | showListCategory
  | showHelp
  | call (request : CollectorCall) (success : Bool)
  | sleep (seconds : Int32)
  | markClockSync
  | setTraceTagsEnabled (tags : UInt64)
  | setTracingOn (enabled : Bool)
  | write (written : List UInt8)
  | hiSysEvent (params : TraceSysEventParams)
deriving Repr, DecidableEq

/-- What the system answers during one command. `accepted` is what `write` returns for a
request behind what was written before, nothing for an error; `compressed` is what
`DumpCompressedTrace` writes, `bootTraceControl` what the `boot-trace` subcommand returns. -/
structure Host where
  isDeveloperMode : Bool := true
  traceCollector : Bool := true
  traceRootPath : List Char
  isTracingOn : Bool := true
  traceOpened : Bool := true
  outputOpened : Bool := true
  errno : Int := 0
  reads : List (Option (List UInt8)) := []
  accepted : Nat → Nat → Option Nat := fun _ request => some request
  compressed : List UInt8 := []
  setParameter : Bool := true
  traceLevel : String := ""
  handleBootTraceConfig : Bool := true
  bootTraceControl : Int := 0

structure World (σ : Type) where
  collector : σ
  events : List Event := []
  params : TraceSysEventParams := {}
  needSysEvent : Bool := false

namespace World

variable {σ : Type}

def emit (world : World σ) (event : Event) : World σ :=
  { world with events := world.events ++ [event] }

def consoleLog (world : World σ) (logInfo : String) : World σ :=
  world.emit (.consoleLog logInfo)

def setOpt (world : World σ) (opt : String) : World σ :=
  { world with params.opt := opt }

/-- An error of the command itself is logged and reported. -/
def fail (world : World σ) (code : CmdErrorCode) (message : String) : World σ :=
  { world with params.error := some code, params.errorMessage := message }.consoleLog message

def addFileSize (world : World σ) (bytes : Int32) : World σ :=
  { world with params.fileSize := (world.params.fileSize + bytes) / 1024 }

def setNeedSysEvent (world : World σ) (needSysEvent : Bool) : World σ :=
  { world with needSysEvent }

def call (collector : Collector σ) (world : World σ) (request : CollectorCall) :
    Reply × World σ :=
  let answer := collector world.collector request
  (answer.1, { world with collector := answer.2 }.emit (.call request answer.1.error.isNone))

end World

/-! The text of the trace. -/

/-- The loop over the blocks of the trace, without `-z`: what it writes. -/
def copyBlocks (accepted : Nat → Nat → Option Nat) :
    List UInt8 → List (Option (List UInt8)) → List UInt8
  | written, [] => written
  | written, none :: _ => written
  | written, some block :: rest =>
      if block = [] then written
      else
        match accepted written.length block.length with
        | none => written
        | some 0 => written
        | some (bytes + 1) => copyBlocks accepted (written ++ block.take (bytes + 1)) rest

section Handlers

variable {σ : Type} (collector : Collector σ) (host : Host) (globals : Globals)

def dumpKernelTraceToOutput (world : World σ) : World σ :=
  let output := String.ofList globals.traceArgs.output
  let message (path : String) := "error: opening " ++ path ++ ", errno: " ++ toString host.errno
  if !host.traceOpened then
    world.fail .openRootPathFailure (message (String.ofList host.traceRootPath ++ "trace"))
  else if globals.traceArgs.output ≠ [] ∧ !host.outputOpened then
    world.fail .openFilePathFailure (message output)
  else
    let written := if globals.traceArgs.isCompress then host.compressed
      else copyBlocks host.accepted [] host.reads
    let counted := if globals.traceArgs.isCompress then 0 else Int32.ofNat written.length
    let world := (world.emit (.write written)).addFileSize counted
    if globals.traceArgs.output = [] then world
    else world.consoleLog ("trace read done, output: " ++ output)

def stopTrace (world : World σ) : World σ :=
  (world.emit (.setTraceTagsEnabled 0)).emit (.setTracingOn false)

/-! The parameters. -/

def limitsFileSize (runningState : RunningState) : Bool :=
  runningState = .recordingShortRaw || runningState = .recordingLongBeginRecord

/-- The tags and parameters of the collector, with what is logged. -/
def reloadTraceArgs : List String × List (List Char) × TraceParam :=
  let args := globals.traceArgs
  let state := globals.runningState
  if args.tags = [] then (["error: tag is empty, please add."], [], {})
  else
    let bufferSize := if 0 < args.bufferSize then args.bufferSize.toUInt32 else defaultBufferSize
    let clockType := if args.clockType = [] then "boot".toList else args.clockType
    let fileSizeLimit :=
      if 0 < args.fileSize ∧ limitsFileSize state = true then args.fileSize.toUInt32 else 0
    let totalSize :=
      if 0 < args.totalSize ∧ state = .recordingLongBeginRecord then
        UInt64.ofInt args.totalSize
      else 0
    let warning (refused : Bool) (name value : String) :=
      if refused then
        ["warning: The current state does not support specifying the " ++ name ++ ", " ++
          name ++ ": " ++ value ++ " is invalid."]
      else []
    let text := "args: tags:" ++ String.ofList args.tags ++
      " bufferSize:" ++ toString bufferSize ++
      (if args.clockType = [] then "" else " clockType:" ++ String.ofList args.clockType) ++
      (if args.overwrite then " overwrite:1" else " overwrite:0") ++
      (if fileSizeLimit = 0 then "" else " fileSize:" ++ toString args.fileSize) ++
      (if totalSize = 0 then "" else " totalSize:" ++ toString args.totalSize)
    (warning (0 < args.fileSize ∧ !limitsFileSize state) "file size" (toString args.fileSize) ++
        warning (0 < args.totalSize ∧ state ≠ .recordingLongBeginRecord) "total size"
          (toString args.totalSize) ++
        (if state = .recordingShortText then [] else [text]),
      args.tagsVec,
      { bufferSize, clockType, isOverWrite := args.overwrite, fileSizeLimit, totalSize })

def reload (world : World σ) : World σ :=
  (reloadTraceArgs globals).1.foldl World.consoleLog world

/-- The warning of the states that write to no file of the caller. -/
def warnOutput (world : World σ) : World σ :=
  if globals.traceArgs.output = [] then world
  else
    world.consoleLog ("warning: The current state does not support specifying the output file" ++
      " path, " ++ String.ofList globals.traceArgs.output ++ " is invalid.")

def failed (name : String) (code : Int) (world : World σ) : World σ :=
  world.consoleLog ("error: " ++ name ++ " failed, errorCode(" ++ toString code ++ ")")

def outputFiles (data : List String) (world : World σ) : World σ :=
  data.foldl (fun world item => world.emit (.output item)) world

def startCapture (world : World σ) : World σ :=
  (world.consoleLog ("start capture, please wait " ++ toString globals.traceArgs.duration ++
    "s ...")).emit (.sleep globals.traceArgs.duration)

/-! The handlers of `TASK_TABLE`: whether they succeed, and the world afterwards. -/

def openTrace (tags : List (List Char)) (param : TraceParam) (world : World σ) :
    Option Int × World σ :=
  let openRet := world.call collector (.openTrace tags param)
  (openRet.1.error, openRet.2)

def openReloaded (world : World σ) : Option Int × World σ :=
  openTrace collector (reloadTraceArgs globals).2.1 (reloadTraceArgs globals).2.2 world

/-- The last step of the handlers that end a trace; a failure is logged only. -/
def closeTrace (name done : String) (world : World σ) : Bool × World σ :=
  let closeRet := world.call collector .close
  match closeRet.1.error with
  | some code => (true, failed name code closeRet.2)
  | none => (true, if done = "" then closeRet.2 else closeRet.2.consoleLog done)

def handleRecordingShortRaw (world : World σ) : Bool × World σ :=
  let (openRet, world) := openReloaded collector globals (warnOutput globals (reload globals world))
  match openRet with
  | some code => (false, failed "OpenRecording" code world)
  | none =>
      let (recOnRet, world) := world.call collector (.recordingOn none)
      match recOnRet.error with
      | some code => (false, ((failed "RecordingOn" code world).call collector .close).2)
      | none =>
          let (recOffRet, world) := (startCapture globals world).call collector .recordingOff
          match recOffRet.error with
          | some code => (false, ((failed "RecordingOff" code world).call collector .close).2)
          | none =>
              closeTrace collector "Trace Close" ""
                (outputFiles recOffRet.data (world.consoleLog "capture done, output files:"))

def handleRecordingShortText (world : World σ) : Bool × World σ :=
  let (openRet, world) := openReloaded collector globals (reload globals world)
  match openRet with
  | some code => (false, failed "OpenRecording" code world)
  | none =>
      let world := stopTrace ((startCapture globals world).emit .markClockSync)
      let world := if globals.traceArgs.output = [] then world
        else world.consoleLog "capture done, start to read trace."
      closeTrace collector "TraceFinish" "TraceFinish done."
        (dumpKernelTraceToOutput host globals (world.setOpt "DumpTextTrace"))

def handleRecordingLongBegin (world : World σ) : Bool × World σ :=
  let (openRet, world) := openReloaded collector globals (warnOutput globals (reload globals world))
  match openRet with
  | some code => (false, failed "OpenRecording" code world)
  | none => (true, world.consoleLog "OpenRecording done.")

def tracingClosed (world : World σ) : World σ :=
  world.fail .tracingOnClosed "Warning: tracing on is closed, no trace can be read."

def handleRecordingLongDump (world : World σ) : Bool × World σ :=
  let world := world.setOpt "DumpTextTrace"
  if !host.isTracingOn then (false, tracingClosed world)
  else
    (true, dumpKernelTraceToOutput host globals
      ((world.emit .markClockSync).consoleLog "start to read trace."))

def handleRecordingLongFinish (world : World σ) : Bool × World σ :=
  let world := world.setOpt "DumpTextTrace"
  if !host.isTracingOn then (false, tracingClosed world)
  else
    closeTrace collector "Trace Close" "Trace Closed."
      (dumpKernelTraceToOutput host globals
        ((stopTrace (world.emit .markClockSync)).consoleLog "start to read trace."))

def handleRecordingLongFinishNodump (world : World σ) : Bool × World σ :=
  closeTrace collector "Trace Close" "end capture trace." world

def handleRecordingLongBeginRecord (world : World σ) : Bool × World σ :=
  let world := reload globals world
  let output := globals.traceArgs.output
  if output ≠ [] ∧ !isWritableDir output then (false, world.consoleLog "error: illegal path")
  else
    let (openRet, world) := openReloaded collector globals world
    match openRet with
    | some code => (false, failed "OpenRecording" code world)
    | none =>
        let (recOnRet, world) := world.call collector (.recordingOn (some output))
        match recOnRet.error with
        | some code => (false, ((failed "RecordingOn" code world).call collector .close).2)
        | none => (true, world.consoleLog "trace capturing.")

def handleRecordingLongFinishRecord (world : World σ) : Bool × World σ :=
  let (recOffRet, world) := world.call collector .recordingOff
  match recOffRet.error with
  | some code => (false, failed "RecordingOff" code world)
  | none =>
      closeTrace collector "Trace Close" ""
        (outputFiles recOffRet.data (world.consoleLog "capture done, output files:"))

def snapshotTags : List (List Char) :=
  ["net", "dsched", "graphic", "multimodalinput", "dinput", "ark", "ace", "window", "zaudio",
    "daudio", "zmedia", "dcamera", "zcamera", "dhfwk", "app", "gresource", "ability", "power",
    "samgr", "ffrt", "nweb", "hdf", "virse", "workq", "ipa", "sched", "freq", "disk", "sync",
    "binder", "mmc", "membus", "load"].map String.toList

def handleOpenSnapshot (world : World σ) : Bool × World σ :=
  let (openRet, world) := openTrace collector snapshotTags { fileSizeLimit := defaultFileSize }
    (world.setNeedSysEvent false)
  match openRet with
  | some code => (false, failed "OpenSnapshot" code world)
  | none => (true, world.consoleLog "OpenSnapshot done.")

def handleDumpSnapshot (world : World σ) : Bool × World σ :=
  let world := world.setNeedSysEvent false
  let output := globals.traceArgs.output
  if output ≠ [] ∧ !isWritable output then (false, world.consoleLog "error: illegal path")
  else
    let (dumpRet, world) := world.call collector (.dumpSnapshot output)
    match dumpRet.error with
    | some code => (false, failed "DumpSnapshot" code world)
    | none => (true, outputFiles dumpRet.data (world.consoleLog "DumpSnapshot done, output:"))

def handleCloseSnapshot (world : World σ) : Bool × World σ :=
  let (closeRet, world) := (world.setNeedSysEvent false).call collector .close
  match closeRet.error with
  | some code => (false, failed "CloseSnapshot" code world)
  | none => (true, world.consoleLog "CloseSnapshot done.")

def setTraceLevel (world : World σ) : Bool × World σ :=
  if host.setParameter then (true, world.consoleLog "success to set trace level.")
  else (false, world.consoleLog "error: failed to set trace level.")

def getTraceLevel (world : World σ) : Bool × World σ :=
  let names := [("0", "Debug"), ("1", "Info"), ("2", "Critical"), ("3", "Commercial")]
  match names.lookup host.traceLevel with
  | some name => (true, world.consoleLog ("the current trace level threshold is " ++ name))
  | none =>
      (false, world.consoleLog ("error: get trace level threshold failed, level(" ++
        host.traceLevel ++ ") cannot be parsed."))

def task (world : World σ) : Bool × World σ :=
  match globals.runningState with
  | .recordingShortRaw => handleRecordingShortRaw collector globals world
  | .recordingShortText => handleRecordingShortText collector host globals world
  | .recordingLongBegin => handleRecordingLongBegin collector globals world
  | .recordingLongDump => handleRecordingLongDump host globals world
  | .recordingLongFinish => handleRecordingLongFinish collector host globals world
  | .recordingLongFinishNodump => handleRecordingLongFinishNodump collector world
  | .recordingLongBeginRecord => handleRecordingLongBeginRecord collector globals world
  | .recordingLongFinishRecord => handleRecordingLongFinishRecord collector world
  | .snapshotStart => handleOpenSnapshot collector world
  | .snapshotDump => handleDumpSnapshot collector globals world
  | .snapshotStop => handleCloseSnapshot collector world
  | .setTraceLevel => setTraceLevel host world
  | .getTraceLevel => getTraceLevel host world
  | .configBootTrace => (host.handleBootTraceConfig, world)
  | .showHelp => (true, (world.setOpt "ShowHelp").emit .showHelp)
  | .showListCategory =>
      (true, (world.setOpt "ShowListCategory").emit .showListCategory)
  | .stateNull => (false, (world.setOpt "ShowHelp").emit .showHelp)

end Handlers

/-! The command, and one command after another. -/

/-- A command line, with what the system answers. `subcommand` says that its first word is
`boot-trace`, `interrupt` is the number of events behind which SIGINT comes. -/
structure Invocation where
  argv0 : String := "hitrace"
  subcommand : Bool := false
  argv : Argv
  env : Environment
  host : Host
  interrupt : Option Nat := none

/-- `STATE_INFO`. -/
def stateInfo : RunningState → String
  | .stateNull => "STATE_NULL"
  | .recordingShortText => "RECORDING_SHORT_TEXT"
  | .recordingShortRaw => "RECORDING_SHORT_RAW"
  | .recordingLongBegin => "RECORDING_LONG_BEGIN"
  | .recordingLongDump => "RECORDING_LONG_DUMP"
  | .recordingLongFinish => ""
  | .recordingLongFinishNodump => "RECORDING_LONG_FINISH_NODUMP"
  | .recordingLongBeginRecord => "RECORDING_LONG_BEGIN_RECORD"
  | .recordingLongFinishRecord => "RECORDING_LONG_FINISH_RECORD"
  | .snapshotStart => "SNAPSHOT_START"
  | .snapshotDump => "SNAPSHOT_DUMP"
  | .snapshotStop => "SNAPSHOT_STOP"
  | .showHelp => "SHOW_HELP"
  | .showListCategory => "SHOW_LIST_CATEGORY"
  | .setTraceLevel => "SET_TRACE_LEVEL"
  | .getTraceLevel => "GET_TRACE_LEVEL"
  | .configBootTrace => "CONFIG_BOOT_TRACE"

/-- The globals of a command that goes on, or what it logs. -/
def initAndCheckArgs (invocation : Invocation) : Except (List String) Globals :=
  let host := invocation.host
  let parsed := handleOpt invocation.env invocation.argv
  let args := parsed.1.traceArgs
  if !host.isDeveloperMode then .error ["error: not in developermode, exit"]
  else if maxArguments < invocation.argv.argc then
    .error ["error: the number of input arguments exceeds the upper limit."]
  else if !host.traceCollector then .error ["error: traceCollector create failed, exit."]
  else if host.traceRootPath = [] then .error ["error: trace isn't mounted, exit."]
  -- the messages of `HandleOpt` are left out
  else if !parsed.2 then .error []
  else if args.totalSize ≠ 0 ∧ !isWritableDir args.output then
    .error ["error: can't set totalsize when output path is't /data/local/tmp, exit."]
  else if parsed.1.runningState = .stateNull then
    .ok { parsed.1 with runningState := .recordingShortText }
  else .ok parsed.1

/-- What a command leaves; the running state is that of a command that was parsed. -/
structure Outcome where
  runningState : RunningState := .stateNull
  exitCode : Int
  events : List Event
  interrupted : Bool := false
deriving Repr, DecidableEq

section Main

variable {σ : Type} (collector : Collector σ)

def enter (invocation : Invocation) (globals : Globals) (start : σ) : World σ :=
  let world : World σ := { collector := start, needSysEvent := true, params := { caller := "CMD" } }
  if globals.runningState = .recordingShortText ∨ globals.runningState = .recordingLongDump ∨
      globals.runningState = .recordingLongFinish then world
  else
    world.consoleLog (invocation.argv0 ++ " enter, running_state is " ++
      stateInfo globals.runningState)

def recordSysEvent (world : World σ) : World σ :=
  if world.needSysEvent then world.emit (.hiSysEvent world.params) else world

def runTask (invocation : Invocation) (start : σ) : Outcome × σ :=
  match initAndCheckArgs invocation with
  | .error logs => ({ exitCode := -1, events := logs.map .consoleLog }, start)
  | .ok globals =>
      let (isSuccess, world) :=
        task collector invocation.host globals (enter invocation globals start)
      let world := recordSysEvent world
      ({ runningState := globals.runningState
         exitCode := if isSuccess then 0 else -1
         events := world.events }, world.collector)

def Event.serve (state : σ) : Event → σ
  | .call request _ => (collector state request).2
  | _ => state

/-- Nothing of the trace is taken back. -/
def interruptExit (outcome : Outcome) (count : Nat) (start : σ) : Outcome × σ :=
  let events := outcome.events.take count
  ({ outcome with exitCode := -1, events, interrupted := true },
    events.foldl (Event.serve collector) start)

/-- The `boot-trace` subcommand has no collector. -/
def main (invocation : Invocation) (start : σ) : Outcome × σ :=
  if invocation.subcommand then
    ({ exitCode := invocation.host.bootTraceControl, events := [] }, start)
  else
    match invocation.interrupt with
    | none => runTask collector invocation start
    | some count => interruptExit collector (runTask collector invocation start).1 count start

def commands : σ → List Invocation → List Outcome
  | _, [] => []
  | start, invocation :: rest =>
      let (outcome, next) := main collector invocation start
      outcome :: commands next rest

end Main

/-! What a command asks the collector for. -/

def Event.collectorCall : Event → Option (CollectorCall × Bool)
  | .call request success => some (request, success)
  | _ => none

def Outcome.calls (outcome : Outcome) : List (CollectorCall × Bool) :=
  outcome.events.filterMap Event.collectorCall

/-- The states that open a trace. -/
def begins (runningState : RunningState) : Bool :=
  runningState = .recordingShortRaw || runningState = .recordingShortText ||
    runningState = .recordingLongBegin || runningState = .recordingLongBeginRecord ||
    runningState = .snapshotStart

/-- The states that leave a trace open when they succeed. -/
def opens (runningState : RunningState) : Bool :=
  runningState = .recordingLongBegin || runningState = .recordingLongBeginRecord ||
    runningState = .snapshotStart

/-- The request that a state begins with. -/
def opening (globals : Globals) : CollectorCall :=
  if globals.runningState = .snapshotStart then
    .openTrace snapshotTags { fileSizeLimit := defaultFileSize }
  else .openTrace (reloadTraceArgs globals).2.1 (reloadTraceArgs globals).2.2

/-- The conversations of a command with the collector, each call with whether it
succeeds. -/
inductive Script (globals : Globals) : Bool → List (CollectorCall × Bool) → Prop
  | silent {success : Bool} (hopens : success = true → opens globals.runningState = false) :
      Script globals success []
  | refused (hbegins : begins globals.runningState = true) :
      Script globals false [(opening globals, false)]
  | began (hopens : opens globals.runningState = true) :
      Script globals true [(opening globals, true)]
  | beganRecord (outputPath : Option (List Char)) (hopens : opens globals.runningState = true) :
      Script globals true [(opening globals, true), (.recordingOn outputPath, true)]
  | notStarted (outputPath : Option (List Char)) (closed : Bool)
      (hbegins : begins globals.runningState = true) :
      Script globals false
        [(opening globals, true), (.recordingOn outputPath, false), (.close, closed)]
  | notStopped (outputPath : Option (List Char)) (closed : Bool)
      (hbegins : begins globals.runningState = true) :
      Script globals false
        [(opening globals, true), (.recordingOn outputPath, true), (.recordingOff, false),
          (.close, closed)]
  | recorded (outputPath : Option (List Char)) (closed : Bool)
      (hbegins : begins globals.runningState = true)
      (hopens : opens globals.runningState = false) :
      Script globals true
        [(opening globals, true), (.recordingOn outputPath, true), (.recordingOff, true),
          (.close, closed)]
  | text (closed : Bool) (hbegins : begins globals.runningState = true)
      (hopens : opens globals.runningState = false) :
      Script globals true [(opening globals, true), (.close, closed)]
  | finished (closed : Bool) (hopens : opens globals.runningState = false) :
      Script globals true [(.close, closed)]
  | finishedRecord (closed : Bool) (hopens : opens globals.runningState = false) :
      Script globals true [(.recordingOff, true), (.close, closed)]
  | unfinishedRecord : Script globals false [(.recordingOff, false)]
  | dumped (outputPath : List Char) (success : Bool) (hopens : opens globals.runningState = false) :
      Script globals success [(.dumpSnapshot outputPath, success)]
  | closed (success : Bool) (hopens : opens globals.runningState = false) :
      Script globals success [(.close, success)]

namespace World

variable {σ : Type} (world : World σ)

def calls : List (CollectorCall × Bool) := world.events.filterMap Event.collectorCall

theorem calls_emit (event : Event) :
    (world.emit event).calls = world.calls ++ event.collectorCall.toList := by
  rw [calls, emit, List.filterMap_append, calls]
  cases event <;> rfl

@[simp] theorem calls_consoleLog (logInfo : String) :
    (world.consoleLog logInfo).calls = world.calls := by
  rw [consoleLog, calls_emit]
  exact List.append_nil _

@[simp] theorem calls_setOpt (opt : String) : (world.setOpt opt).calls = world.calls := rfl

@[simp] theorem calls_fail (code : CmdErrorCode) (message : String) :
    (world.fail code message).calls = world.calls :=
  calls_consoleLog _ message

@[simp] theorem calls_addFileSize (bytes : Int32) :
    (world.addFileSize bytes).calls = world.calls := rfl

@[simp] theorem calls_setNeedSysEvent (needSysEvent : Bool) :
    (world.setNeedSysEvent needSysEvent).calls = world.calls := rfl

@[simp] theorem calls_call (collector : Collector σ) (request : CollectorCall) :
    (world.call collector request).2.calls =
      world.calls ++ [(request, (world.call collector request).1.error.isNone)] :=
  calls_emit _ _

end World

section Talks

variable {σ : Type} {collector : Collector σ} {host : Host} {globals : Globals}

@[simp] theorem calls_foldl_consoleLog (logs : List String) (world : World σ) :
    (logs.foldl World.consoleLog world).calls = world.calls := by
  induction logs generalizing world with
  | nil => rfl
  | cons log rest ih => rw [List.foldl_cons, ih, World.calls_consoleLog]

@[simp] theorem calls_reload (world : World σ) : (reload globals world).calls = world.calls :=
  calls_foldl_consoleLog _ world

@[simp] theorem calls_warnOutput (world : World σ) :
    (warnOutput globals world).calls = world.calls := by
  rw [warnOutput]
  split
  · rfl
  · exact world.calls_consoleLog _

@[simp] theorem calls_failed (name : String) (code : Int) (world : World σ) :
    (failed name code world).calls = world.calls :=
  world.calls_consoleLog _

@[simp] theorem calls_outputFiles (data : List String) (world : World σ) :
    (outputFiles data world).calls = world.calls := by
  rw [outputFiles]
  induction data generalizing world with
  | nil => rfl
  | cons item rest ih =>
      rw [List.foldl_cons, ih, World.calls_emit]
      exact List.append_nil _

@[simp] theorem calls_startCapture (world : World σ) :
    (startCapture globals world).calls = world.calls := by
  rw [startCapture, World.calls_emit, World.calls_consoleLog]
  exact List.append_nil _

@[simp] theorem calls_markClockSync (world : World σ) :
    (world.emit .markClockSync).calls = world.calls := by
  rw [World.calls_emit]
  exact List.append_nil _

@[simp] theorem calls_stopTrace (world : World σ) : (stopTrace world).calls = world.calls := by
  rw [stopTrace, World.calls_emit, World.calls_emit]
  simp [Event.collectorCall]

@[simp] theorem calls_tracingClosed (world : World σ) :
    (tracingClosed world).calls = world.calls :=
  world.calls_fail _ _

@[simp] theorem calls_dumpKernelTraceToOutput (world : World σ) :
    (dumpKernelTraceToOutput host globals world).calls = world.calls := by
  unfold dumpKernelTraceToOutput
  dsimp only
  split
  · exact world.calls_fail _ _
  split
  · exact world.calls_fail _ _
  split
  · rw [World.calls_addFileSize, World.calls_emit]
    exact List.append_nil _
  · rw [World.calls_consoleLog, World.calls_addFileSize, World.calls_emit]
    exact List.append_nil _

/-- What a handler says to the collector is one of the conversations. -/
def Talks (globals : Globals) (world : World σ) (result : Bool × World σ) : Prop :=
  ∃ calls, result.2.calls = world.calls ++ calls ∧ Script globals result.1 calls

theorem openReloaded_calls (hstate : globals.runningState ≠ .snapshotStart) {world opened : World σ}
    {openRet : Option Int} (hopen : openReloaded collector globals world = (openRet, opened)) :
    opened.calls = world.calls ++ [(opening globals, openRet.isNone)] := by
  cases hopen
  rw [opening, if_neg hstate]
  exact world.calls_call collector _

theorem call_calls {request : CollectorCall} {reply : Reply} {world next : World σ}
    (hcall : world.call collector request = (reply, next)) :
    next.calls = world.calls ++ [(request, reply.error.isNone)] := by
  have hcalls := world.calls_call collector request
  rwa [hcall] at hcalls

theorem closeTrace_calls (name done : String) (world : World σ) :
    (closeTrace collector name done world).1 = true ∧
      ∃ closed, (closeTrace collector name done world).2.calls =
        world.calls ++ [(CollectorCall.close, closed)] := by
  rw [closeTrace]
  cases hclose : world.call collector .close with
  | mk closeRet next =>
      have hcalls := call_calls hclose
      dsimp only
      cases closeRet.error with
      | some code => exact ⟨rfl, _, (next.calls_consoleLog _).trans hcalls⟩
      | none =>
          refine ⟨rfl, closeRet.error.isNone, ?_⟩
          dsimp only
          split
          · exact hcalls
          · exact (next.calls_consoleLog _).trans hcalls

theorem talks_closeTrace {name done : String} {world before : World σ}
    {calls : List (CollectorCall × Bool)} (hcalls : world.calls = before.calls ++ calls)
    (hscript : ∀ closed, Script globals true (calls ++ [(CollectorCall.close, closed)])) :
    Talks globals before (closeTrace collector name done world) := by
  obtain ⟨hdone, closed, hclosed⟩ := @closeTrace_calls _ collector name done world
  refine ⟨calls ++ [(CollectorCall.close, closed)], ?_, hdone ▸ hscript closed⟩
  rw [hclosed, hcalls, List.append_assoc]

/-- A handler that closes the trace because a call has failed. -/
theorem talks_call_close {world before : World σ} {calls : List (CollectorCall × Bool)}
    (hcalls : world.calls = before.calls ++ calls)
    (hscript : ∀ closed, Script globals false (calls ++ [(CollectorCall.close, closed)])) :
    Talks globals before (false, (world.call collector .close).2) := by
  refine ⟨calls ++ [(CollectorCall.close, (world.call collector .close).1.error.isNone)], ?_,
    hscript _⟩
  rw [World.calls_call, hcalls, List.append_assoc]

theorem talks_shortRaw (hstate : globals.runningState = .recordingShortRaw) (world : World σ) :
    Talks globals world (handleRecordingShortRaw collector globals world) := by
  have hopens : opens globals.runningState = false := by rw [hstate]; rfl
  have hbegins : begins globals.runningState = true := by rw [hstate]; rfl
  rw [handleRecordingShortRaw]
  cases hopen : openReloaded collector globals (warnOutput globals (reload globals world)) with
  | mk openRet opened =>
      have hopened := openReloaded_calls (by rw [hstate]; decide) hopen
      rw [calls_warnOutput, calls_reload] at hopened
      cases openRet with
      | some code => exact ⟨_, (calls_failed _ _ opened).trans hopened, .refused hbegins⟩
      | none =>
          dsimp only
          cases hon : opened.call collector (.recordingOn none) with
          | mk recOnRet started =>
              have hstarted := call_calls hon
              rw [hopened, List.append_assoc] at hstarted
              dsimp only
              cases herror : recOnRet.error with
              | some code =>
                  rw [herror] at hstarted
                  exact talks_call_close ((calls_failed _ _ started).trans hstarted)
                    fun closed => .notStarted none closed hbegins
              | none =>
                  rw [herror] at hstarted
                  dsimp only
                  cases hoff : (startCapture globals started).call collector .recordingOff with
                  | mk recOffRet stopped =>
                      have hstopped := call_calls hoff
                      rw [calls_startCapture, hstarted, List.append_assoc] at hstopped
                      dsimp only
                      cases herrorOff : recOffRet.error with
                      | some code =>
                          rw [herrorOff] at hstopped
                          exact talks_call_close ((calls_failed _ _ stopped).trans hstopped)
                            fun closed => .notStopped none closed hbegins
                      | none =>
                          rw [herrorOff] at hstopped
                          refine talks_closeTrace (Eq.trans ?_ hstopped)
                            fun closed => .recorded none closed hbegins hopens
                          rw [calls_outputFiles, World.calls_consoleLog]

theorem talks_shortText (hstate : globals.runningState = .recordingShortText)
    (world : World σ) :
    Talks globals world (handleRecordingShortText collector host globals world) := by
  have hopens : opens globals.runningState = false := by rw [hstate]; rfl
  have hbegins : begins globals.runningState = true := by rw [hstate]; rfl
  rw [handleRecordingShortText]
  cases hopen : openReloaded collector globals (reload globals world) with
  | mk openRet opened =>
      have hopened := openReloaded_calls (by rw [hstate]; decide) hopen
      rw [calls_reload] at hopened
      cases openRet with
      | some code => exact ⟨_, (calls_failed _ _ opened).trans hopened, .refused hbegins⟩
      | none =>
          refine talks_closeTrace (Eq.trans ?_ hopened) fun closed => .text closed hbegins hopens
          rw [calls_dumpKernelTraceToOutput, World.calls_setOpt]
          split
          · simp
          · simp

theorem talks_longBegin (hstate : globals.runningState = .recordingLongBegin)
    (world : World σ) :
    Talks globals world (handleRecordingLongBegin collector globals world) := by
  have hbegins : begins globals.runningState = true := by rw [hstate]; rfl
  rw [handleRecordingLongBegin]
  cases hopen : openReloaded collector globals (warnOutput globals (reload globals world)) with
  | mk openRet opened =>
      have hopened := openReloaded_calls (by rw [hstate]; decide) hopen
      rw [calls_warnOutput, calls_reload] at hopened
      cases openRet with
      | some code => exact ⟨_, (calls_failed _ _ opened).trans hopened, .refused hbegins⟩
      | none =>
          exact ⟨_, (opened.calls_consoleLog _).trans hopened, .began (by rw [hstate]; rfl)⟩

theorem talks_longDump (hstate : globals.runningState = .recordingLongDump) (world : World σ) :
    Talks globals world (handleRecordingLongDump host globals world) := by
  have hopens : opens globals.runningState = false := by rw [hstate]; rfl
  rw [handleRecordingLongDump]
  split
  · exact ⟨[], by simp, .silent fun _ => hopens⟩
  · exact ⟨[], by simp, .silent fun _ => hopens⟩

theorem talks_longFinish (hstate : globals.runningState = .recordingLongFinish)
    (world : World σ) :
    Talks globals world (handleRecordingLongFinish collector host globals world) := by
  have hopens : opens globals.runningState = false := by rw [hstate]; rfl
  rw [handleRecordingLongFinish]
  split
  · exact ⟨[], by simp, .silent fun _ => hopens⟩
  · refine talks_closeTrace (Eq.trans ?_ (List.append_nil _).symm)
      fun closed => .finished closed hopens
    simp

theorem talks_longFinishNodump (hstate : globals.runningState = .recordingLongFinishNodump)
    (world : World σ) :
    Talks globals world (handleRecordingLongFinishNodump collector world) := by
  have hopens : opens globals.runningState = false := by rw [hstate]; rfl
  exact talks_closeTrace (List.append_nil _).symm fun closed => .finished closed hopens

theorem talks_longBeginRecord (hstate : globals.runningState = .recordingLongBeginRecord)
    (world : World σ) :
    Talks globals world (handleRecordingLongBeginRecord collector globals world) := by
  have hbegins : begins globals.runningState = true := by rw [hstate]; rfl
  rw [handleRecordingLongBeginRecord]
  dsimp only
  split
  · exact ⟨[], by simp, .silent nofun⟩
  cases hopen : openReloaded collector globals (reload globals world) with
  | mk openRet opened =>
      have hopened := openReloaded_calls (by rw [hstate]; decide) hopen
      rw [calls_reload] at hopened
      cases openRet with
      | some code => exact ⟨_, (calls_failed _ _ opened).trans hopened, .refused hbegins⟩
      | none =>
          dsimp only
          cases hon : opened.call collector (.recordingOn (some globals.traceArgs.output)) with
          | mk recOnRet started =>
              have hstarted := call_calls hon
              rw [hopened, List.append_assoc] at hstarted
              dsimp only
              cases herror : recOnRet.error with
              | some code =>
                  rw [herror] at hstarted
                  exact talks_call_close ((calls_failed _ _ started).trans hstarted)
                    fun closed => .notStarted _ closed hbegins
              | none =>
                  rw [herror] at hstarted
                  exact ⟨_, (started.calls_consoleLog _).trans hstarted,
                    .beganRecord _ (by rw [hstate]; rfl)⟩

theorem talks_longFinishRecord (hstate : globals.runningState = .recordingLongFinishRecord)
    (world : World σ) :
    Talks globals world (handleRecordingLongFinishRecord collector world) := by
  have hopens : opens globals.runningState = false := by rw [hstate]; rfl
  rw [handleRecordingLongFinishRecord]
  cases hoff : world.call collector .recordingOff with
  | mk recOffRet stopped =>
      have hstopped := call_calls hoff
      dsimp only
      cases herror : recOffRet.error with
      | some code =>
          rw [herror] at hstopped
          exact ⟨_, (calls_failed _ _ stopped).trans hstopped, .unfinishedRecord⟩
      | none =>
          rw [herror] at hstopped
          refine talks_closeTrace (Eq.trans ?_ hstopped)
            fun closed => .finishedRecord closed hopens
          rw [calls_outputFiles, World.calls_consoleLog]

theorem talks_openSnapshot (hstate : globals.runningState = .snapshotStart) (world : World σ) :
    Talks globals world (handleOpenSnapshot collector world) := by
  have hbegins : begins globals.runningState = true := by rw [hstate]; rfl
  rw [handleOpenSnapshot, openTrace]
  dsimp only
  cases hopen : (world.setNeedSysEvent false).call collector
      (.openTrace snapshotTags { fileSizeLimit := defaultFileSize }) with
  | mk openRet opened =>
      have hopened := call_calls hopen
      rw [World.calls_setNeedSysEvent, ← show opening globals = _ from if_pos hstate] at hopened
      dsimp only
      cases herror : openRet.error with
      | some code =>
          rw [herror] at hopened
          exact ⟨_, (calls_failed _ _ opened).trans hopened, .refused hbegins⟩
      | none =>
          rw [herror] at hopened
          exact ⟨_, (opened.calls_consoleLog _).trans hopened, .began (by rw [hstate]; rfl)⟩

theorem talks_dumpSnapshot (hstate : globals.runningState = .snapshotDump) (world : World σ) :
    Talks globals world (handleDumpSnapshot collector globals world) := by
  have hopens : opens globals.runningState = false := by rw [hstate]; rfl
  rw [handleDumpSnapshot]
  dsimp only
  split
  · exact ⟨[], by simp, .silent fun _ => hopens⟩
  cases hdump : (world.setNeedSysEvent false).call collector
      (.dumpSnapshot globals.traceArgs.output) with
  | mk dumpRet dumped =>
      have hdumped := call_calls hdump
      dsimp only
      cases herror : dumpRet.error with
      | some code =>
          rw [herror] at hdumped
          exact ⟨_, (calls_failed _ _ dumped).trans hdumped, .dumped _ false hopens⟩
      | none =>
          rw [herror] at hdumped
          refine ⟨_, Eq.trans ?_ hdumped, .dumped _ true hopens⟩
          rw [calls_outputFiles, World.calls_consoleLog]

theorem talks_closeSnapshot (hstate : globals.runningState = .snapshotStop) (world : World σ) :
    Talks globals world (handleCloseSnapshot collector world) := by
  have hopens : opens globals.runningState = false := by rw [hstate]; rfl
  rw [handleCloseSnapshot]
  cases hclose : (world.setNeedSysEvent false).call collector .close with
  | mk closeRet closed =>
      have hclosed := call_calls hclose
      dsimp only
      cases herror : closeRet.error with
      | some code =>
          rw [herror] at hclosed
          exact ⟨_, (calls_failed _ _ closed).trans hclosed, .closed false hopens⟩
      | none =>
          rw [herror] at hclosed
          exact ⟨_, (closed.calls_consoleLog _).trans hclosed, .closed true hopens⟩

theorem talks_silent {world : World σ} {result : Bool × World σ}
    (hopens : opens globals.runningState = false) (hcalls : result.2.calls = world.calls) :
    Talks globals world result :=
  ⟨[], by rw [hcalls, List.append_nil], .silent fun _ => hopens⟩

theorem talks_task (world : World σ) : Talks globals world (task collector host globals world) := by
  rw [task]
  split
  · next hstate => exact talks_shortRaw hstate world
  · next hstate => exact talks_shortText hstate world
  · next hstate => exact talks_longBegin hstate world
  · next hstate => exact talks_longDump hstate world
  · next hstate => exact talks_longFinish hstate world
  · next hstate => exact talks_longFinishNodump hstate world
  · next hstate => exact talks_longBeginRecord hstate world
  · next hstate => exact talks_longFinishRecord hstate world
  · next hstate => exact talks_openSnapshot hstate world
  · next hstate => exact talks_dumpSnapshot hstate world
  · next hstate => exact talks_closeSnapshot hstate world
  · next hstate =>
      refine talks_silent (by rw [hstate]; rfl) ?_
      rw [setTraceLevel]
      split
      · exact world.calls_consoleLog _
      · exact world.calls_consoleLog _
  · next hstate =>
      refine talks_silent (by rw [hstate]; rfl) ?_
      rw [getTraceLevel]
      split
      · exact world.calls_consoleLog _
      · exact world.calls_consoleLog _
  · next hstate => exact talks_silent (by rw [hstate]; rfl) rfl
  · next hstate =>
      refine talks_silent (by rw [hstate]; rfl) ?_
      rw [World.calls_emit]
      exact List.append_nil _
  · next hstate =>
      refine talks_silent (by rw [hstate]; rfl) ?_
      rw [World.calls_emit]
      exact List.append_nil _
  · next hstate =>
      refine talks_silent (by rw [hstate]; rfl) ?_
      rw [World.calls_emit]
      exact List.append_nil _

end Talks

section Main

variable {σ : Type} {collector : Collector σ} {invocation : Invocation} {globals : Globals}

theorem calls_enter (start : σ) : (enter invocation globals start).calls = [] := by
  unfold enter
  dsimp only
  split
  · rfl
  · exact World.calls_consoleLog _ _

theorem calls_recordSysEvent (world : World σ) : (recordSysEvent world).calls = world.calls := by
  rw [recordSysEvent]
  split
  · rw [World.calls_emit]
    exact List.append_nil _
  · rfl

/-- A command that is refused says nothing, another one follows the script of its state. -/
theorem runTask_cases (collector : Collector σ) (invocation : Invocation) (start : σ) :
    (∃ logs, initAndCheckArgs invocation = .error logs ∧
        (runTask collector invocation start).1.exitCode = -1 ∧
        (runTask collector invocation start).1.calls = []) ∨
      ∃ globals success, initAndCheckArgs invocation = .ok globals ∧
        (runTask collector invocation start).1.runningState = globals.runningState ∧
        (runTask collector invocation start).1.exitCode = (if success then 0 else -1) ∧
        Script globals success (runTask collector invocation start).1.calls := by
  cases hinit : initAndCheckArgs invocation with
  | error logs =>
      refine .inl ⟨logs, rfl, by rw [runTask, hinit], ?_⟩
      rw [runTask, hinit, Outcome.calls]
      dsimp only
      rw [List.filterMap_eq_nil_iff]
      intro event hevent
      obtain ⟨log, _, rfl⟩ := List.mem_map.mp hevent
      rfl
  | ok globals =>
      obtain ⟨calls, hcalls, hscript⟩ :=
        @talks_task _ collector invocation.host globals (enter invocation globals start)
      refine .inr ⟨globals,
        (task collector invocation.host globals (enter invocation globals start)).1, rfl,
        ?_, ?_, ?_⟩
      · rw [runTask, hinit]
      · rw [runTask, hinit]
      · rw [calls_enter, List.nil_append] at hcalls
        have hall : (runTask collector invocation start).1.calls = calls := by
          rw [runTask, hinit]
          exact (calls_recordSysEvent _).trans hcalls
        rw [hall]
        exact hscript

/-- A command says what its task says, or the beginning of it when it is interrupted. -/
theorem main_cases (collector : Collector σ) (invocation : Invocation) (start : σ) :
    (main collector invocation start).1 = (runTask collector invocation start).1 ∨
      (main collector invocation start).1.calls = [] ∧
          (main collector invocation start).1.runningState = .stateNull ∨
        (main collector invocation start).1.interrupted = true ∧
          (main collector invocation start).1.exitCode = -1 ∧
          (main collector invocation start).1.calls <+:
            (runTask collector invocation start).1.calls := by
  rw [main]
  split
  · exact .inr (.inl ⟨rfl, rfl⟩)
  · split
    · exact .inl rfl
    · exact .inr (.inr ⟨rfl, rfl, (List.take_prefix _ _).filterMap _⟩)

end Main

/-! Traces that stay open. -/

def staysOpen (left : Bool) : CollectorCall × Bool → Bool
  | (.openTrace _ _, true) => true
  | (.close, true) => false
  | _ => left

/-- Whether a trace is open as far as the collector has granted the requests. -/
def leftOpen (start : Bool) (calls : List (CollectorCall × Bool)) : Bool :=
  calls.foldl staysOpen start

def Granted (calls : List (CollectorCall × Bool)) : Prop :=
  ∃ tags param, (CollectorCall.openTrace tags param, true) ∈ calls

/-- No trace is opened behind a request to close. -/
def Ordered (calls : List (CollectorCall × Bool)) : Prop :=
  calls.Pairwise fun first second => first.1 = .close → ∀ tags param,
    second.1 ≠ .openTrace tags param

theorem opening_eq (globals : Globals) :
    ∃ tags param, opening globals = .openTrace tags param := by
  rw [opening]
  split
  · exact ⟨_, _, rfl⟩
  · exact ⟨_, _, rfl⟩

theorem leftOpen_append (start : Bool) (first second : List (CollectorCall × Bool)) :
    leftOpen start (first ++ second) = leftOpen (leftOpen start first) second :=
  List.foldl_append

theorem leftOpen_iff {calls : List (CollectorCall × Bool)} (hordered : Ordered calls)
    (start : Bool) :
    leftOpen start calls = true ↔
      (CollectorCall.close, true) ∉ calls ∧ (Granted calls ∨ start = true) := by
  induction calls using List.reverseRecOn with
  | nil => simp [leftOpen, Granted]
  | append_singleton calls last ih =>
      obtain ⟨hcalls, _, hlast⟩ := List.pairwise_append.mp hordered
      have hbefore := ih hcalls
      rw [leftOpen_append, leftOpen, List.foldl_cons, List.foldl_nil]
      obtain ⟨request, success⟩ := last
      cases request with
      | openTrace tags param =>
          cases success with
          | false => simpa [staysOpen, Granted] using hbefore
          | true =>
              have hopen : (CollectorCall.close, true) ∉ calls := fun hclose =>
                hlast _ hclose _ List.mem_cons_self rfl tags param rfl
              have hgranted : Granted (calls ++ [(CollectorCall.openTrace tags param, true)]) :=
                ⟨tags, param, List.mem_append_right _ List.mem_cons_self⟩
              simp [staysOpen, hopen, hgranted]
      | recordingOn outputPath => simpa [staysOpen, Granted] using hbefore
      | recordingOff => simpa [staysOpen, Granted] using hbefore
      | close =>
          cases success with
          | false => simpa [staysOpen, Granted] using hbefore
          | true => simp [staysOpen]
      | dumpSnapshot outputPath => simpa [staysOpen, Granted] using hbefore

section Script

variable {globals : Globals} {success : Bool} {calls : List (CollectorCall × Bool)}

theorem Script.ordered (hscript : Script globals success calls) : Ordered calls := by
  obtain ⟨tags, param, hopening⟩ := opening_eq globals
  cases hscript
  all_goals simp [Ordered, hopening]

theorem Script.granted_of_opens (hscript : Script globals success calls)
    (hsuccess : success = true) (hopens : opens globals.runningState = true) :
    Granted calls ∧ (CollectorCall.close, true) ∉ calls := by
  obtain ⟨tags, param, hopening⟩ := opening_eq globals
  cases hscript with
  | silent hnot => exact absurd hopens (by rw [hnot hsuccess]; decide)
  | refused _ => cases hsuccess
  | began _ => exact ⟨⟨tags, param, by simp [hopening]⟩, by simp [hopening]⟩
  | beganRecord outputPath _ => exact ⟨⟨tags, param, by simp [hopening]⟩, by simp [hopening]⟩
  | notStarted outputPath closed _ => cases hsuccess
  | notStopped outputPath closed _ => cases hsuccess
  | recorded outputPath closed _ hnot => exact absurd hopens (by rw [hnot]; decide)
  | text closed _ hnot => exact absurd hopens (by rw [hnot]; decide)
  | finished closed hnot => exact absurd hopens (by rw [hnot]; decide)
  | finishedRecord closed hnot => exact absurd hopens (by rw [hnot]; decide)
  | unfinishedRecord => cases hsuccess
  | dumped outputPath _ hnot => exact absurd hopens (by rw [hnot]; decide)
  | closed _ hnot => exact absurd hopens (by rw [hnot]; decide)

/-- A command that has opened a trace leaves it open only as its purpose, or because its own
request to close it is refused. -/
theorem Script.opens_of_granted (hscript : Script globals success calls)
    (hgranted : Granted calls) (hclose : (CollectorCall.close, true) ∉ calls) :
    success = true ∧ opens globals.runningState = true ∨ (CollectorCall.close, false) ∈ calls := by
  obtain ⟨tags, param, hopening⟩ := opening_eq globals
  cases hscript with
  | began hopens => exact .inl ⟨rfl, hopens⟩
  | beganRecord outputPath hopens => exact .inl ⟨rfl, hopens⟩
  | notStarted outputPath closed _ => cases closed <;> simp at hclose ⊢
  | notStopped outputPath closed _ => cases closed <;> simp at hclose ⊢
  | recorded outputPath closed _ _ => cases closed <;> simp at hclose ⊢
  | text closed _ _ => cases closed <;> simp at hclose ⊢
  | silent _ => simp [Granted] at hgranted
  | refused _ => simp [Granted] at hgranted
  | finished closed _ => simp [Granted] at hgranted
  | finishedRecord closed _ => simp [Granted] at hgranted
  | unfinishedRecord => simp [Granted] at hgranted
  | dumped outputPath success _ => simp [Granted] at hgranted
  | closed success _ => simp [Granted] at hgranted

/-- A command asks at most once to close. -/
theorem Script.not_closed (hscript : Script globals success calls)
    (hrefused : (CollectorCall.close, false) ∈ calls) : (CollectorCall.close, true) ∉ calls := by
  obtain ⟨tags, param, hopening⟩ := opening_eq globals
  cases hscript
  all_goals simp_all

end Script

/-- What leaves a trace open: a command that begins one and succeeds, one whose own request to
close it is refused, and one that is interrupted before the trace is closed. -/
inductive Outcome.LeavesOpen (outcome : Outcome) : Prop
  | begun (hexit : outcome.exitCode = 0) (hopens : opens outcome.runningState = true)
  | refused (hgranted : Granted outcome.calls)
      (hrefused : (CollectorCall.close, false) ∈ outcome.calls)
  | interrupted (hinterrupted : outcome.interrupted = true) (hgranted : Granted outcome.calls)
      (hclose : (CollectorCall.close, true) ∉ outcome.calls)

structure Settled (outcome : Outcome) : Prop where
  ordered : Ordered outcome.calls
  leaves : outcome.LeavesOpen ↔ Granted outcome.calls ∧ (CollectorCall.close, true) ∉ outcome.calls

theorem settled_of_script {outcome : Outcome} {globals : Globals} {success : Bool}
    (hstate : outcome.runningState = globals.runningState)
    (hexit : outcome.exitCode = if success then 0 else -1)
    (hscript : Script globals success outcome.calls) : Settled outcome := by
  have hzero : outcome.exitCode = 0 ↔ success = true := by
    rw [hexit]
    cases success <;> decide
  refine ⟨hscript.ordered, fun hleaves => ?_, fun ⟨hgranted, hclose⟩ => ?_⟩
  · cases hleaves with
    | begun hdone hopens => exact hscript.granted_of_opens (hzero.mp hdone) (hstate ▸ hopens)
    | refused hgranted hrefused => exact ⟨hgranted, hscript.not_closed hrefused⟩
    | interrupted _ hgranted hclose => exact ⟨hgranted, hclose⟩
  · rcases hscript.opens_of_granted hgranted hclose with ⟨hsuccess, hopens⟩ | hrefused
    · exact .begun (hzero.mpr hsuccess) (hstate ▸ hopens)
    · exact .refused hgranted hrefused

theorem settled_of_silent {outcome : Outcome} (hcalls : outcome.calls = [])
    (hopens : outcome.exitCode = 0 → opens outcome.runningState = false) : Settled outcome := by
  have hnever : ¬ Granted outcome.calls := by
    rw [hcalls]
    rintro ⟨_, _, hmem⟩
    cases hmem
  refine ⟨by rw [hcalls]; exact .nil, fun hleaves => ?_, fun hgranted => absurd hgranted.1 hnever⟩
  cases hleaves with
  | begun hexit hbegun => exact absurd hbegun (by rw [hopens hexit]; decide)
  | refused hgranted _ => exact absurd hgranted hnever
  | interrupted _ hgranted _ => exact absurd hgranted hnever

/-- The beginning of what a settled command says. -/
theorem settled_of_interrupted {whole outcome : Outcome} (hwhole : Settled whole)
    (hrefused : (CollectorCall.close, false) ∈ whole.calls →
      (CollectorCall.close, true) ∉ whole.calls)
    (hinterrupted : outcome.interrupted = true) (hexit : outcome.exitCode = -1)
    (hbegin : outcome.calls <+: whole.calls) : Settled outcome := by
  refine ⟨hwhole.ordered.sublist hbegin.sublist, fun hleaves => ?_, fun ⟨hgranted, hclose⟩ => ?_⟩
  · cases hleaves with
    | begun hdone _ => exact absurd hdone (by rw [hexit]; decide)
    | refused hgranted hmem =>
        exact ⟨hgranted, fun hclose => hrefused (hbegin.subset hmem) (hbegin.subset hclose)⟩
    | interrupted _ hgranted hclose => exact ⟨hgranted, hclose⟩
  · exact .interrupted hinterrupted hgranted hclose

theorem settled_main {σ : Type} (collector : Collector σ) (invocation : Invocation)
    (start : σ) : Settled (main collector invocation start).1 := by
  have htask : Settled (runTask collector invocation start).1 ∧
      ((CollectorCall.close, false) ∈ (runTask collector invocation start).1.calls →
        (CollectorCall.close, true) ∉ (runTask collector invocation start).1.calls) := by
    rcases runTask_cases collector invocation start with ⟨logs, _, hexit, hcalls⟩ |
      ⟨globals, success, _, hstate, hexit, hscript⟩
    · refine ⟨settled_of_silent hcalls fun hzero => absurd hzero (by rw [hexit]; decide), ?_⟩
      rw [hcalls]
      nofun
    · exact ⟨settled_of_script hstate hexit hscript, hscript.not_closed⟩
  rcases main_cases collector invocation start with heq | ⟨hcalls, hstate⟩ |
    ⟨hinterrupted, hexit, hbegin⟩
  · rw [heq]
    exact htask.1
  · exact settled_of_silent hcalls fun _ => by rw [hstate]; rfl
  · exact settled_of_interrupted htask.1 htask.2 hinterrupted hexit hbegin

theorem settled_commands {σ : Type} (collector : Collector σ) (start : σ)
    (invocations : List Invocation) :
    ∀ outcome ∈ commands collector start invocations, Settled outcome := by
  induction invocations generalizing start with
  | nil => nofun
  | cons invocation rest ih =>
      rw [commands]
      dsimp only
      rw [List.forall_mem_cons]
      exact ⟨settled_main collector invocation start, ih _⟩

theorem leftOpen_iff_of_settled {outcomes : List Outcome}
    (hsettled : ∀ outcome ∈ outcomes, Settled outcome) :
    leftOpen false (outcomes.flatMap Outcome.calls) = true ↔
      ∃ (before : List Outcome) (outcome : Outcome) (after : List Outcome),
        outcomes = before ++ outcome :: after ∧ outcome.LeavesOpen ∧
          ∀ later ∈ after, (CollectorCall.close, true) ∉ later.calls := by
  induction outcomes using List.reverseRecOn with
  | nil => exact iff_of_false Bool.false_ne_true (by simp)
  | append_singleton outcomes last ih =>
      have hlast := hsettled last (List.mem_append_right _ List.mem_cons_self)
      have hbefore := ih fun outcome hmem => hsettled outcome (List.mem_append_left _ hmem)
      rw [List.flatMap_append, leftOpen_append, List.flatMap_singleton,
        leftOpen_iff hlast.ordered, hbefore]
      constructor
      · rintro ⟨hclose, hgranted | ⟨before, outcome, after, rfl, hleaves, hafter⟩⟩
        · exact ⟨outcomes, last, [], rfl, hlast.leaves.mpr ⟨hgranted, hclose⟩, nofun⟩
        · refine ⟨before, outcome, after ++ [last], ?_, hleaves, ?_⟩
          · rw [List.append_assoc, List.cons_append]
          · rw [List.forall_mem_append, List.forall_mem_singleton]
            exact ⟨hafter, hclose⟩
      · rintro ⟨before, outcome, after, heq, hleaves, hafter⟩
        induction after using List.reverseRecOn with
        | nil =>
            obtain ⟨rfl, hsame⟩ := List.append_inj' heq rfl
            cases hsame
            obtain ⟨hgranted, hclose⟩ := hlast.leaves.mp hleaves
            exact ⟨hclose, .inl hgranted⟩
        | append_singleton after final _ =>
            rw [← List.cons_append, ← List.append_assoc] at heq
            obtain ⟨rfl, hsame⟩ := List.append_inj' heq rfl
            cases hsame
            rw [List.forall_mem_append, List.forall_mem_singleton] at hafter
            exact ⟨hafter.2, .inr ⟨before, outcome, after, rfl, hleaves, hafter.1⟩⟩

/-- After commands one after another a trace is open exactly when one of them leaves its trace
open and no later request to close is granted: whatever the collector answers, a command that
runs to its end and whose request to close is not refused leaves a trace open only if it is one
of those that begin a trace. -/
theorem trace_left_open_iff {σ : Type} (collector : Collector σ) (start : σ)
    (invocations : List Invocation) :
    leftOpen false ((commands collector start invocations).flatMap Outcome.calls) = true ↔
      ∃ (before : List Outcome) (outcome : Outcome) (after : List Outcome),
        commands collector start invocations = before ++ outcome :: after ∧
          outcome.LeavesOpen ∧ ∀ later ∈ after, (CollectorCall.close, true) ∉ later.calls :=
  leftOpen_iff_of_settled (settled_commands collector start invocations)

end Recording

end Hitrace
