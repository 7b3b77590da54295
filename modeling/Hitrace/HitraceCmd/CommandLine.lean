import Hitrace.HitraceDump.OpenTrace
import Hitrace.Utils.TraceDirectory

namespace Hitrace

/-! `HandleOpt` of `hitrace_cmd.cpp`: the options of the command line, one after another. -/

namespace CommandLine

inductive RunningState
  | stateNull
  | recordingShortText
  | recordingShortRaw
  | recordingLongBegin
  | recordingLongDump
  | recordingLongFinish
  | recordingLongFinishNodump
  | recordingLongBeginRecord
  | recordingLongFinishRecord
  | snapshotStart
  | snapshotDump
  | snapshotStop
  | showHelp
  | showListCategory
  | setTraceLevel
  | getTraceLevel
  | configBootTrace
deriving Repr, DecidableEq

structure TraceArgs where
  tags : List Char := []
  tagsVec : List (List Char) := []
  clockType : List Char := []
  level : List Char := []
  bufferSize : Int32 := 0
  fileSize : Int32 := 0
  totalSize : Int := 0
  overwrite : Bool := true
  output : List Char := []
  duration : Int32 := 0
  isCompress : Bool := false
  remainingCount : Int32 := 1
  bootFilePrefix : List Char := []
  bootTraceOverwrite : Bool := false
  bootTraceIncrement : Bool := false
deriving Repr, DecidableEq

/-- `g_traceArgs` and `g_runningState`. -/
structure Globals where
  traceArgs : TraceArgs := {}
  runningState : RunningState := .stateNull
deriving Repr, DecidableEq

/-- What the handlers ask the system for. -/
structure Environment where
  isHmKernel : Bool
  isBootTraceEuidRoot : Bool
  isDirectory : List Char → Bool
  allTagInfos : List (List Char × TraceTag)
  tagGroups : List (List Char)

/-- `LONG_OPTIONS`. -/
inductive LongOption
  | bufferSize
  | traceClock
  | help
  | output
  | time
  | text
  | raw
  | traceBegin
  | traceFinish
  | traceFinishNodump
  | record
  | traceDump
  | listCategories
  | overwrite
  | startBgsrv
  | dumpBgsrv
  | stopBgsrv
  | fileSize
  | totalSize
  | traceLevel
  | getLevel
  | bootTrace
  | repeatCount
  | filePrefix
  | increment
deriving Repr, DecidableEq

/-- `shortOption`. -/
inductive ShortOption
  | b
  | c
  | h
  | l
  | o
  | t
  | z
deriving Repr, DecidableEq

/-- What `getopt_long` returns for an option; `unknown` is its `?`. -/
inductive Opt
  | short (option : ShortOption)
  | long (option : LongOption)
  | unknown
deriving Repr, DecidableEq

/-- `OPT_MAP`. -/
def LongOption.setValue : LongOption → RunningState
  | .help => .showHelp
  | .listCategories => .showListCategory
  | .traceBegin => .recordingLongBegin
  | .traceFinish => .recordingLongFinish
  | .traceFinishNodump => .recordingLongFinishNodump
  | .traceDump => .recordingLongDump
  | .startBgsrv => .snapshotStart
  | .dumpBgsrv => .snapshotDump
  | .stopBgsrv => .snapshotStop
  | .text => .recordingShortText
  | .raw => .recordingShortRaw
  | .traceLevel => .setTraceLevel
  | .getLevel => .getTraceLevel
  | .bootTrace | .repeatCount | .filePrefix | .increment => .configBootTrace
  | .bufferSize | .traceClock | .time | .output | .overwrite | .record | .fileSize
  | .totalSize => .stateNull

def Opt.requiresArgument : Opt → Bool
  | .short .b | .short .c | .short .o | .short .t => true
  | .long .bufferSize | .long .traceClock | .long .output | .long .time | .long .fileSize
  | .long .totalSize | .long .traceLevel | .long .repeatCount | .long .filePrefix => true
  | _ => false

/-- An option with its `optarg`. -/
structure Occurrence where
  opt : Opt
  optarg : List Char := []
deriving Repr, DecidableEq

/-- How an option is written: `joined` says that its argument is in the same word, `grouped` that
it is itself in the word of the short option before it. -/
structure Written extends Occurrence where
  joined : Bool := false
  grouped : Bool := false
deriving Repr, DecidableEq

def Opt.isShort : Opt → Bool
  | .long _ => false
  | .short _ | .unknown => true

/-- The word of an option goes on when the option is short and takes no argument. -/
def Opt.groups (opt : Opt) : Bool :=
  opt.isShort && !opt.requiresArgument

def Written.words (option : Written) : Nat :=
  (if option.grouped then 0 else 1) +
    if option.opt.requiresArgument && !option.joined then 1 else 0

def groupable : Bool → List Written → Bool
  | _, [] => true
  | opened, option :: rest =>
      (!option.grouped || opened && option.opt.isShort) && groupable option.opt.groups rest

/-- The words behind the name of the command, as `getopt_long` takes them apart; `dashes` says
that the word `--` is among them. -/
structure Argv where
  options : List Written
  dashes : Bool := false
  tags : List (List Char)
  groupable : groupable false options = true := by decide

/-- The number of words, that of the command included. -/
def Argv.argc (argv : Argv) : Nat :=
  1 + (argv.options.map Written.words).sum + argv.dashes.toNat + argv.tags.length

def Argv.occurrences (argv : Argv) : List Occurrence :=
  argv.options.map Written.toOccurrence

/-! The values. -/

/-- `StrToNum<int>`, with what is in the variable afterwards. -/
def strToNum (tX : Int32) (text : List Char) : Int32 × Bool :=
  match text.dropWhile isSpace with
  | [] => (tX, false)
  | char :: rest =>
      let signed := if char = '-' ∨ char = '+' then rest else char :: rest
      let digits := signed.takeWhile Char.isDigit
      let value : Int :=
        if char = '-' then -(digitsValue digits : Int) else digitsValue digits
      if digits.isEmpty then (0, false)
      else if value < Int32.minValue.toInt then (Int32.minValue, false)
      else if Int32.maxValue.toInt < value then (Int32.maxValue, false)
      else (Int32.ofInt value, (signed.dropWhile Char.isDigit).isEmpty)

def clockTypes : List (List Char) :=
  ["boot".toList, "mono".toList, "global".toList, "perf".toList, "uptime".toList]

def traceLevels : List (List Char × List Char) :=
  [("D".toList, "0".toList), ("Debug".toList, "0".toList), ("I".toList, "1".toList),
    ("Info".toList, "1".toList), ("C".toList, "2".toList), ("Critical".toList, "2".toList),
    ("M".toList, "3".toList), ("Commercial".toList, "3".toList)]

def maxOutputLen : Nat := 255

def pageSizeKb : Int32 := 4

def minBufferSize : Int32 := 256

def maxBufferSize : Int32 := 307200

def hmMaxBufferSize : Int32 := 1048576

def minFileSize : Int32 := 51200

def maxFileSize : Int32 := 512000

def maxTotalSize : Int32 := 5120000

/-! The handlers: the globals afterwards and whether the option is accepted. -/

section Handlers

variable (env : Environment) (globals : Globals) (optarg : List Char)

def setRunningState (setValue : RunningState) : Globals × Bool :=
  if globals.runningState = .stateNull then ({ globals with runningState := setValue }, true)
  else (globals, false)

/-- A number that has to be in a range. -/
def inRange (low high : Int32) : Int32 × Bool :=
  let number := strToNum 0 optarg
  (number.1, number.2 && low ≤ number.1 && number.1 ≤ high)

/-- `HandleOptBuffersize` and `SetBufferSize`. -/
def setBufferSize : Globals × Bool :=
  let high := if env.isHmKernel then hmMaxBufferSize else maxBufferSize
  let number := inRange optarg minBufferSize high
  ({ globals with traceArgs.bufferSize := number.1 / pageSizeKb * pageSizeKb }, number.2)

def handleOptTraceclock : Globals × Bool :=
  if clockTypes.contains optarg then ({ globals with traceArgs.clockType := optarg }, true)
  else (globals, false)

/-- `HandleOptTime` and the short option. -/
def handleOptTime : Globals × Bool :=
  let number := strToNum globals.traceArgs.duration optarg
  ({ globals with traceArgs.duration := number.1 }, number.2 && 1 ≤ number.1)

def checkOutputFile : Globals × Bool :=
  if maxOutputLen ≤ optarg.length ∨ optarg.length < 1 ∨
      env.isDirectory optarg = true ∧ globals.runningState ≠ .recordingLongBeginRecord ∧
        globals.runningState ≠ .snapshotDump then
    (globals, false)
  else ({ globals with traceArgs.output := optarg }, true)

def handleOptOverwrite : Globals × Bool :=
  if globals.runningState = .configBootTrace then
    ({ globals with traceArgs.bootTraceOverwrite := true }, true)
  else ({ globals with traceArgs.overwrite := false }, true)

def handleOptRecord : Globals × Bool :=
  if globals.runningState = .recordingLongBegin then
    ({ globals with runningState := .recordingLongBeginRecord }, true)
  else if globals.runningState = .recordingLongFinish then
    ({ globals with runningState := .recordingLongFinishRecord }, true)
  else (globals, false)

def handleOptFilesize : Globals × Bool :=
  let number := inRange optarg minFileSize maxFileSize
  ({ globals with traceArgs.fileSize := number.1 }, number.2)

def handleOptTotalsize : Globals × Bool :=
  let number := inRange optarg maxFileSize maxTotalSize
  ({ globals with traceArgs.totalSize := number.1.toInt }, number.2)

def checkTraceLevel : Globals × Bool :=
  match traceLevels.lookup optarg with
  | some level => ({ globals with traceArgs.level := level }, true)
  | none => (globals, false)

/-- The level is set even if another command was given. -/
def handleOptTracelevel (setValue : RunningState) : Globals × Bool :=
  let state := setRunningState globals setValue
  let level := checkTraceLevel state.1 optarg
  (level.1, state.2 && level.2)

def handleOptBootTrace (setValue : RunningState) : Globals × Bool :=
  if env.isBootTraceEuidRoot then setRunningState globals setValue else (globals, false)

def handleOptRepeat : Globals × Bool :=
  let number := inRange optarg 1 100
  if number.2 then ({ globals with traceArgs.remainingCount := number.1 }, true)
  else (globals, false)

def handleOptBootFilePrefix (setValue : RunningState) : Globals × Bool :=
  if setValue ≠ .configBootTrace ∨ optarg.length = 0 then (globals, false)
  else ({ globals with traceArgs.bootFilePrefix := optarg }, true)

def handleOptBootIncrement : Globals × Bool :=
  if globals.runningState = .configBootTrace then
    ({ globals with traceArgs.bootTraceIncrement := true }, true)
  else (globals, false)

/-- `COMMAND_TABLE`. -/
def parseLongOpt (option : LongOption) : Globals × Bool :=
  match option with
  | .bufferSize => setBufferSize env globals optarg
  | .traceClock => handleOptTraceclock globals optarg
  | .time => handleOptTime globals optarg
  | .output => checkOutputFile env globals optarg
  | .overwrite => handleOptOverwrite globals
  | .record => handleOptRecord globals
  | .fileSize => handleOptFilesize globals optarg
  | .totalSize => handleOptTotalsize globals optarg
  | .traceLevel => handleOptTracelevel globals optarg option.setValue
  | .bootTrace => handleOptBootTrace env globals option.setValue
  | .repeatCount => handleOptRepeat globals optarg
  | .filePrefix => handleOptBootFilePrefix globals optarg option.setValue
  | .increment => handleOptBootIncrement globals
  | .help | .listCategories | .traceBegin | .traceFinish | .traceFinishNodump | .traceDump
  | .startBgsrv | .dumpBgsrv | .stopBgsrv | .text | .raw | .getLevel =>
      setRunningState globals option.setValue

/-- `-c` is an option that nothing is done for. -/
def parseOpt (opt : Opt) : Globals × Bool :=
  match opt with
  | .short .b => setBufferSize env globals optarg
  | .short .c => (globals, true)
  | .short .h => setRunningState globals .showHelp
  | .short .l => setRunningState globals .showListCategory
  | .short .o => checkOutputFile env globals optarg
  | .short .t => handleOptTime globals optarg
  | .short .z => ({ globals with traceArgs.isCompress := true }, true)
  | .long option => parseLongOpt env globals optarg option
  | .unknown => (globals, false)

end Handlers

theorem inRange_bounds {optarg : List Char} {low high : Int32}
    (hrange : (inRange optarg low high).2 = true) :
    low.toInt ≤ (inRange optarg low high).1.toInt ∧
      (inRange optarg low high).1.toInt ≤ high.toInt := by
  simp only [inRange, Bool.and_eq_true, decide_eq_true_eq, Int32.le_iff_toInt_le] at hrange ⊢
  exact ⟨hrange.1.2, hrange.2⟩

/-- A size is rounded down to pages. -/
theorem toInt_pages {size : Int32} (hlow : 0 ≤ size.toInt) :
    (size / pageSizeKb * pageSizeKb).toInt = size.toInt / 4 * 4 := by
  have hhigh := Int32.toInt_lt size
  rw [Int32.toInt_mul, pageSizeKb, Int32.toInt_div_of_ne_right _ _ (by decide),
    show Int32.toInt 4 = 4 from rfl, Int.tdiv_eq_ediv_of_nonneg hlow]
  rw [Int.bmod_eq_of_le (by omega) (by omega)]

/-! The words that are no options. -/

def addTag (env : Environment) (first : Bool) (globals : Globals) (tag : List Char) :
    Globals × Bool :=
  if globals.runningState = .configBootTrace ∧ env.tagGroups.contains tag then (globals, false)
  else if (env.allTagInfos.lookup tag).isNone then (globals, false)
  else
    let args := globals.traceArgs
    let args :=
      if first then { args with tagsVec := [tag], tags := tag }
      else { args with tagsVec := args.tagsVec ++ [tag], tags := args.tags ++ ',' :: tag }
    ({ globals with traceArgs := args }, true)

def addTags (env : Environment) : Bool → Globals → List (List Char) → Globals × Bool
  | _, globals, [] => (globals, true)
  | first, globals, tag :: rest =>
      let added := addTag env first globals tag
      if added.2 then addTags env false added.1 rest else added

def addTagItems (env : Environment) (globals : Globals) (tags : List (List Char)) :
    Globals × Bool :=
  if globals.runningState = .configBootTrace ∧ tags = ["off".toList] then
    ({ globals with traceArgs.tagsVec := ["off".toList], traceArgs.tags := [] }, true)
  else addTags env true globals tags

/-! The loop. -/

/-- `getopt_long` hands out the options and then -1, for which the tags are looked at; the loop
ends when the words are counted down. -/
def handleOptLoop (env : Environment) (tags : List (List Char)) :
    Nat → Globals → List Occurrence → Globals × Bool
  | 0, globals, _ => (globals, true)
  | argcSize + 1, globals, [] =>
      let added := addTagItems env globals tags
      if added.2 then handleOptLoop env tags argcSize added.1 [] else added
  | argcSize + 1, globals, occurrence :: rest =>
      let parsed := parseOpt env globals occurrence.optarg occurrence.opt
      if parsed.2 then handleOptLoop env tags argcSize parsed.1 rest else parsed

def handleOpt (env : Environment) (argv : Argv) : Globals × Bool :=
  handleOptLoop env argv.tags argv.argc {} argv.occurrences

end CommandLine

end Hitrace
