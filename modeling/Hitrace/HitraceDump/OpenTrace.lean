import Hitrace.HitraceDump.LoopControl
import Hitrace.Utils.TraceDirectory
import Mathlib.Algebra.Ring.Int.Defs

namespace Hitrace

/-! The three overloads of `OpenTrace` in `hitrace_dump.cpp`, with the globals
and system parameters they read and write.  The kernel's trace nodes and the
files of the cache are left out. -/

def defaultFileSize : Int := 100 * 1024

structure TraceParams where
  tags : List (List Char) := []
  tagGroups : List (List Char) := []
  filterPids : List (List Char) := []
  bufferSize : List Char := []
  clockType : List Char := []
  isOverWrite : List Char := []
  outputFile : List Char := []
  fileLimit : Int := 0
  fileSize : Int := 0
  appPid : Int := 0
  totalSize : Int := 0
deriving Repr, DecidableEq

structure TraceArgs where
  tags : List (List Char) := []
  clockType : List Char := "boot".toList
  isOverWrite : Bool := true
  bufferSize : UInt32 := 0
  fileSizeLimit : UInt32 := 0
  appPid : Int32 := 0
  totalSize : Int64 := 0
  filterPids : List Int32 := []
deriving Repr, DecidableEq

inductive TraceType
  | user
  | kernel
  deriving DecidableEq, Repr

structure TraceTag where
  tag : UInt64
  type : TraceType
deriving Repr, DecidableEq

/-- `TraceFilterContext`; `originTGids` gives the process of each thread. -/
structure FilterContext where
  standInTid : Int
  originTGids : List (List Char × List Char) := []
deriving Repr, DecidableEq

/-- The globals of the process, and below `traceFileVec` the parameters
`debug.hitrace.telemetry.app`, `debug.hitrace.app_pid` and
`debug.hitrace.tags.enableflags`, which outlive it. -/
structure TraceGlobals where
  traceMode : TraceMode := TraceMode.modeClose
  currentTraceParams : TraceParams := {}
  sysInitParamTags : UInt64 := 0
  filterContext : Option FilterContext := none
  traceFileVec : List TraceFileInfo := []
  telemetryApp : List Char := []
  appPid : List Char := "-1".toList
  enableFlags : UInt64 := 0
deriving Repr, DecidableEq

/-- What an opening finds.  `allTags` and `tagGroupTable` are those of the JSON
parser, `tasks` lists `/proc/<pid>/task`, `writesEventPid` says which texts the
node `set_event_pid` takes, and `uninitialized` holds the numbers found in a
`TraceParams` that is declared without a value. -/
structure OpenEnvironment where
  boot : BootTrace := ⟨false, false⟩
  rootPathEmpty : Bool := false
  isHmKernel : Bool := false
  allTags : List (List Char × TraceTag) := []
  tagGroupTable : List (List Char × List (List Char)) := []
  snapshotBufSzKb : Int := 0
  savedCmdlinesSize : List Char := []
  standInTid : Int := 0
  tasks : List Char → Option (List (List Char)) := fun _ => none
  writesEventPid : List Char → Bool := fun _ => true
  uninitialized : TraceParams := {}
  directory : List DirEntry := []
  mktime : BrokenTime → Option Int := fun _ => none

def intToString (number : Int) : List Char :=
  (toString number).toList

/-! Strings. -/

def splitFrom (delimiter : Char) : List Char → List Char → List (List Char)
  | [], current => if current.isEmpty then [] else [current]
  | char :: rest, current =>
      if char = delimiter then current :: splitFrom delimiter rest []
      else splitFrom delimiter rest (current ++ [char])

def split (text : List Char) (delimiter : Char) : List (List Char) :=
  splitFrom delimiter text []

def removeUnSpaceRounds (symbol : Char) : Nat → List Char → List Char
  | 0, args => args
  | rounds + 1, args =>
      match findWord [symbol, ' '] args with
      | none => args
      | some index =>
          removeUnSpaceRounds symbol rounds
            (args.take index ++ symbol :: args.drop (index + 2))

def removeUnSpace (symbol : Char) (args : List Char) : List Char :=
  removeUnSpaceRounds symbol 30 args

/-- `strtol` must take the whole C string, and the value must be an `int`. -/
def stringToInt (text : List Char) : Option Int := do
  let (negative, value, rest) ← scanNumber text.length text
  let number : Int := if negative then -(value : Int) else value
  if (rest.isEmpty || rest.head? == some '\x00') &&
      decide (-2 ^ 31 ≤ number ∧ number < 2 ^ 31) then some number
  else none

def setCmdTraceIntParams (text : List Char) : Int :=
  match stringToInt text with
  | none => 0
  | some number => if number ≤ 0 then 0 else number

/-! Tags. -/

section Tags

variable (environment : OpenEnvironment)

def findTag (name : List Char) : Option TraceTag :=
  environment.allTags.lookup name

def findTagGroup (name : List Char) : Option (List (List Char)) :=
  environment.tagGroupTable.lookup name

def checkTags (tags : List (List Char)) : Bool :=
  tags.all fun tag => (findTag environment tag).isSome

def checkTagGroup (tagGroups : List (List Char)) : Bool :=
  tagGroups.all fun group => (findTagGroup environment group).isSome

def readyEnableTagList (traceParams : TraceParams) : List (List Char) :=
  let isSchedltExisting := traceParams.tags.contains "schedlt".toList
  let isSchedExisting := traceParams.tags.contains "sched".toList
  let sched :=
    if isSchedltExisting && !isSchedExisting &&
        (findWord "10240".toList environment.savedCmdlinesSize).isNone then
      ["sched".toList]
    else []
  traceParams.tags ++ sched ++
    traceParams.tagGroups.flatMap fun group =>
      (findTagGroup environment group).getD []

/-- The flags `SetAllTags` writes to the parameter. -/
def enabledUserTags (traceParams : TraceParams) : UInt64 :=
  (readyEnableTagList environment traceParams).foldl
    (fun flags name =>
      match findTag environment name with
      | some ⟨tag, .user⟩ => flags ||| tag
      | _ => flags) 0

end Tags

/-! The filter context. -/

def FilterContext.record (context : FilterContext) (tid pid : List Char) :
    FilterContext :=
  { context with
    originTGids := (tid, pid) :: context.originTGids.filter fun entry => entry.1 != tid }

/-- The threads of one process, up to the first that the node does not take. -/
def FilterContext.addTasks (environment : OpenEnvironment) (pid : List Char) :
    List (List Char) → FilterContext → Bool × FilterContext
  | [], context => (true, context)
  | tid :: rest, context =>
      let context := context.record tid pid
      if environment.writesEventPid tid then addTasks environment pid rest context
      else (false, context)

def FilterContext.addProcesses (environment : OpenEnvironment) :
    List (List Char) → FilterContext → Bool × FilterContext
  | [], context => (true, context)
  | pid :: rest, context =>
      match environment.tasks pid with
      | none => addProcesses environment rest context
      | some tids =>
          match context.addTasks environment pid tids with
          | (false, context) => (false, context)
          | (true, context) => addProcesses environment rest context

def FilterContext.addFilterPids (environment : OpenEnvironment)
    (filterPids : List (List Char)) (context : FilterContext) : Bool × FilterContext :=
  if filterPids.isEmpty then (false, context)
  else
    let initContent := intToString context.standInTid ++
      filterPids.flatMap fun pid => ' ' :: pid
    if environment.writesEventPid initContent then
      context.addProcesses environment filterPids
    else (false, context)

namespace TraceGlobals

variable (environment : OpenEnvironment) (globals : TraceGlobals)

def getTraceFilterContext : FilterContext :=
  globals.filterContext.getD { standInTid := environment.standInTid }

def addFilterPids (filterPids : List (List Char)) : TraceGlobals :=
  let context := globals.getTraceFilterContext environment
  { globals with filterContext := some (context.addFilterPids environment filterPids).2 }

def clearFilterParam : TraceGlobals :=
  { globals with telemetryApp := [], filterContext := none }

/-- No failure inside of `SetTraceSetting` is reported, so the result is always
SUCCESS and only the globals are of interest. -/
def handleTraceOpen (traceParams : TraceParams) : TraceGlobals :=
  let filtered :=
    if traceParams.filterPids.isEmpty then globals
    else globals.addFilterPids environment traceParams.filterPids
  { filtered with
    enableFlags := enabledUserTags environment traceParams
    currentTraceParams := traceParams }

def finalizeOpenTrace : TraceGlobals :=
  { globals with
    sysInitParamTags := globals.enableFlags
    traceMode := TraceMode.modeOpen }

def refresh : TraceGlobals :=
  { globals with
    traceFileVec := refreshTraceVec environment.mktime environment.directory }

def defaultTraceParams (tagGroups : List (List Char)) : TraceParams :=
  { tagGroups
    bufferSize := intToString environment.snapshotBufSzKb
    clockType := "boot".toList
    isOverWrite := "1".toList
    fileLimit := environment.uninitialized.fileLimit
    fileSize := defaultFileSize
    appPid := environment.uninitialized.appPid
    totalSize := environment.uninitialized.totalSize }

/-- `OpenTrace(const std::vector<std::string>& tagGroups)`. -/
def openTagGroups (tagGroups : List (List Char)) : TraceErrorCode × TraceGlobals :=
  match bootTraceArbShouldReturnLocked environment.boot false with
  | some bootGate => (bootGate, globals)
  | none =>
      let globals := globals.clearFilterParam
      if globals.traceMode ≠ TraceMode.modeClose then (.wrongTraceMode, globals)
      else if environment.rootPathEmpty then (.traceNotSupported, globals)
      else if environment.isHmKernel && environment.allTags.isEmpty then
        (.tagError, globals)
      else if tagGroups.isEmpty || !checkTagGroup environment tagGroups then
        (.tagError, globals)
      else
        (.success,
          ((globals.handleTraceOpen environment
            (defaultTraceParams environment tagGroups)).refresh
              environment).finalizeOpenTrace)

def buildTraceParamsFromArgs (traceArgs : TraceArgs) : TraceParams :=
  { tags := traceArgs.tags
    filterPids := traceArgs.filterPids.map fun pid => intToString pid.toInt
    bufferSize :=
      if traceArgs.bufferSize = 0 then
        intToString (UInt32.ofInt environment.snapshotBufSzKb).toNat
      else intToString traceArgs.bufferSize.toNat
    clockType := traceArgs.clockType
    isOverWrite := if traceArgs.isOverWrite then "1".toList else "0".toList
    fileSize := traceArgs.fileSizeLimit.toInt32.toInt
    totalSize := traceArgs.totalSize.toInt }

def prepareOpenTraceByArgs (traceArgs : TraceArgs) : TraceErrorCode :=
  if environment.allTags.isEmpty || environment.tagGroupTable.isEmpty ||
      !checkTags environment traceArgs.tags then .tagError
  else .success

/-- `OpenTrace(const TraceArgs& traceArgs)`. -/
def openTraceArgs (traceArgs : TraceArgs) : TraceErrorCode × TraceGlobals :=
  match bootTraceArbShouldReturnLocked environment.boot false with
  | some bootGate => (bootGate, globals)
  | none =>
      let globals := globals.clearFilterParam
      if globals.traceMode ≠ TraceMode.modeClose then (.wrongTraceMode, globals)
      else if environment.rootPathEmpty then (.traceNotSupported, globals)
      else if prepareOpenTraceByArgs environment traceArgs ≠ .success then
        (prepareOpenTraceByArgs environment traceArgs, globals)
      else
        let globals :=
          if traceArgs.appPid > 0 then
            { globals with appPid := intToString traceArgs.appPid.toInt }
          else globals
        (.success,
          ((globals.handleTraceOpen environment
            (buildTraceParamsFromArgs environment traceArgs)).refresh
              environment).finalizeOpenTrace)

end TraceGlobals

/-! The argument string. -/

inductive ArgName
  | tags
  | tagGroups
  | clockType
  | bufferSize
  | overwrite
  | output
  | fileSize
  | fileLimit
  | appPid
  | filterPids
  deriving DecidableEq, Repr

def ArgName.all : List (List Char × ArgName) :=
  [("tags".toList, .tags), ("tagGroups".toList, .tagGroups),
    ("clockType".toList, .clockType), ("bufferSize".toList, .bufferSize),
    ("overwrite".toList, .overwrite), ("output".toList, .output),
    ("fileSize".toList, .fileSize), ("fileLimit".toList, .fileLimit),
    ("appPid".toList, .appPid), ("filterPids".toList, .filterPids)]

/-- The parts of an item before and behind its first colon. -/
def splitItem (item : List Char) : Option (List Char × List Char) :=
  (findWord [':'] item).map fun pos => (item.take pos, item.drop (pos + 1))

def setArg (name : ArgName) (value : List Char) (traceParams : TraceParams) :
    TraceParams :=
  match name with
  | .tags => { traceParams with tags := split value ',' }
  | .tagGroups => { traceParams with tagGroups := split value ',' }
  | .clockType => { traceParams with clockType := value }
  | .bufferSize => { traceParams with bufferSize := value }
  | .overwrite => { traceParams with isOverWrite := value }
  | .output => { traceParams with outputFile := value }
  | .fileSize => { traceParams with fileSize := setCmdTraceIntParams value }
  | .fileLimit => { traceParams with fileLimit := setCmdTraceIntParams value }
  | .appPid => { traceParams with appPid := setCmdTraceIntParams value }
  | .filterPids => { traceParams with filterPids := split value ',' }

/-- The parameters and the app pid parameter after one item; an unknown name and
an app pid that is not a positive number are rejected. -/
def parseItem (item : List Char) (traceParams : TraceParams) (appPid : List Char) :
    Option (TraceParams × List Char) :=
  match splitItem item with
  | none => some (traceParams, appPid)
  | some (itemName, value) =>
      match ArgName.all.lookup itemName with
      | none => none
      | some .appPid =>
          if setCmdTraceIntParams value = 0 then none
          else some (setArg .appPid value traceParams, value)
      | some name => some (setArg name value traceParams, appPid)

/-- What the items before a rejected one wrote to the app pid parameter stays. -/
def parseItems : List (List Char) → TraceParams → List Char →
    Option TraceParams × List Char
  | [], traceParams, appPid => (some traceParams, appPid)
  | item :: rest, traceParams, appPid =>
      match parseItem item traceParams appPid with
      | none => (none, appPid)
      | some (traceParams, appPid) => parseItems rest traceParams appPid

def argList (args : List Char) : List (List Char) :=
  split (removeUnSpace ',' (removeUnSpace ':' args)) ' '

def parseArgs (environment : OpenEnvironment) (args : List Char)
    (traceParams : TraceParams) (appPid : List Char) :
    Option TraceParams × List Char :=
  match parseItems (argList args) traceParams appPid with
  | (none, appPid) => (none, appPid)
  | (some traceParams, appPid) =>
      if checkTags environment traceParams.tags &&
          checkTagGroup environment traceParams.tagGroups then
        (some traceParams, appPid)
      else (none, appPid)

namespace TraceGlobals

variable (environment : OpenEnvironment) (globals : TraceGlobals)

def uninitializedParams : TraceParams :=
  { fileLimit := environment.uninitialized.fileLimit
    fileSize := environment.uninitialized.fileSize
    appPid := environment.uninitialized.appPid
    totalSize := environment.uninitialized.totalSize }

/-- `OpenTrace(const std::string& args)`. -/
def openArgs (args : List Char) : TraceErrorCode × TraceGlobals :=
  match bootTraceArbShouldReturnLocked environment.boot false with
  | some bootGate => (bootGate, globals)
  | none =>
      if globals.traceMode ≠ TraceMode.modeClose then (.wrongTraceMode, globals)
      else if environment.rootPathEmpty then (.traceNotSupported, globals)
      else if environment.allTags.isEmpty || environment.tagGroupTable.isEmpty then
        (.tagError, globals)
      else
        match parseArgs environment args (uninitializedParams environment)
            globals.appPid with
        | (none, appPid) => (.tagError, { globals with appPid })
        | (some traceParams, appPid) =>
            (.success,
              (({ globals with appPid }).handleTraceOpen environment
                traceParams).finalizeOpenTrace)

end TraceGlobals

/-- A call of one of the overloads. -/
inductive OpenCall
  | tagGroups (tagGroups : List (List Char))
  | traceArgs (traceArgs : TraceArgs)
  | args (args : List Char)
  deriving DecidableEq, Repr

def TraceGlobals.openTrace (environment : OpenEnvironment) (globals : TraceGlobals) :
    OpenCall → TraceErrorCode × TraceGlobals
  | .tagGroups tagGroups => globals.openTagGroups environment tagGroups
  | .traceArgs traceArgs => globals.openTraceArgs environment traceArgs
  | .args args => globals.openArgs environment args

/-! What a refused call leaves. -/

/-- An item that `ParseArgs` goes past. -/
def itemAccepted (item : List Char) : Bool :=
  match splitItem item with
  | none => true
  | some (itemName, value) =>
      match ArgName.all.lookup itemName with
      | none => false
      | some .appPid => setCmdTraceIntParams value != 0
      | some _ => true

def itemAppPid (item : List Char) : Option (List Char) :=
  match splitItem item with
  | none => none
  | some (itemName, value) =>
      match ArgName.all.lookup itemName with
      | some .appPid => some value
      | _ => none

/-- The app pids among the items before the first that is rejected. -/
def acceptedAppPids (args : List Char) : List (List Char) :=
  ((argList args).takeWhile itemAccepted).filterMap itemAppPid

theorem parseItem_eq_none {item : List Char} (haccepted : itemAccepted item = false)
    (traceParams : TraceParams) (appPid : List Char) :
    parseItem item traceParams appPid = none := by
  unfold itemAccepted at haccepted
  unfold parseItem
  cases hsplit : splitItem item with
  | none => simp [hsplit] at haccepted
  | some parts =>
      cases hname : ArgName.all.lookup parts.1 with
      | none => simp only [hname]
      | some name => cases name <;> simp_all

theorem parseItem_eq_some {item : List Char} (haccepted : itemAccepted item = true)
    (traceParams : TraceParams) (appPid : List Char) :
    ∃ next, parseItem item traceParams appPid =
      some (next, (itemAppPid item).getD appPid) := by
  unfold itemAccepted at haccepted
  unfold parseItem itemAppPid
  cases hsplit : splitItem item with
  | none => exact ⟨traceParams, rfl⟩
  | some parts =>
      cases hname : ArgName.all.lookup parts.1 with
      | none => simp [hsplit, hname] at haccepted
      | some name => cases name <;> simp_all

theorem parseItems_appPid (items : List (List Char)) (traceParams : TraceParams)
    (appPid : List Char) :
    (parseItems items traceParams appPid).2 =
      (((items.takeWhile itemAccepted).filterMap itemAppPid).getLast?).getD appPid := by
  induction items generalizing traceParams appPid with
  | nil => rfl
  | cons item rest ih =>
      cases haccepted : itemAccepted item with
      | false =>
          rw [parseItems, parseItem_eq_none haccepted]
          simp [haccepted]
      | true =>
          obtain ⟨next, hitem⟩ := parseItem_eq_some haccepted traceParams appPid
          rw [parseItems, hitem, List.takeWhile_cons_of_pos haccepted]
          simp only [ih]
          cases happ : itemAppPid item with
          | none => simp [happ]
          | some value => simp [happ, List.getLast?_cons]

theorem parseArgs_appPid (environment : OpenEnvironment) (args : List Char)
    (traceParams : TraceParams) (appPid : List Char) :
    (parseArgs environment args traceParams appPid).2 =
      (acceptedAppPids args).getLast?.getD appPid := by
  rw [acceptedAppPids, ← parseItems_appPid (argList args) traceParams appPid, parseArgs]
  cases parseItems (argList args) traceParams appPid with
  | mk parsed written =>
      cases parsed with
      | none => rfl
      | some parsed =>
          dsimp only
          split <;> rfl

theorem boot_ne_success {boot : BootTrace} {bootGate : TraceErrorCode}
    (hboot : bootTraceArbShouldReturnLocked boot false = some bootGate) :
    bootGate ≠ .success := by
  unfold bootTraceArbShouldReturnLocked at hboot
  split at hboot
  · cases hboot
  · cases hboot
    exact nofun

namespace TraceGlobals

/-- The argument string gets to its parser. -/
def parsesArgs (environment : OpenEnvironment) (globals : TraceGlobals) : Bool :=
  globals.traceMode == TraceMode.modeClose && !environment.rootPathEmpty &&
    !(environment.allTags.isEmpty || environment.tagGroupTable.isEmpty)

/-- The globals after a call that fails behind the gate of the boot trace. -/
def refused (environment : OpenEnvironment) (globals : TraceGlobals) :
    OpenCall → TraceGlobals
  | .tagGroups _ => globals.clearFilterParam
  | .traceArgs _ => globals.clearFilterParam
  | .args args =>
      if parsesArgs environment globals then
        { globals with appPid := (acceptedAppPids args).getLast?.getD globals.appPid }
      else globals

variable {environment : OpenEnvironment} {globals : TraceGlobals}

theorem openTrace_of_boot {bootGate : TraceErrorCode}
    (hboot : bootTraceArbShouldReturnLocked environment.boot false = some bootGate)
    (call : OpenCall) : globals.openTrace environment call = (bootGate, globals) := by
  cases call with
  | tagGroups tagGroups => simp only [openTrace, openTagGroups, hboot]
  | traceArgs traceArgs => simp only [openTrace, openTraceArgs, hboot]
  | args args => simp only [openTrace, openArgs, hboot]

/-- Each overload has one way to fail. -/
theorem openTrace_refused {call : OpenCall}
    (hboot : bootTraceArbShouldReturnLocked environment.boot false = none)
    (hfailed : (globals.openTrace environment call).1 ≠ .success) :
    (globals.openTrace environment call).2 = refused environment globals call := by
  revert hfailed
  cases call with
  | tagGroups tagGroups =>
      simp only [openTrace, openTagGroups, hboot, refused]
      split
      · exact fun _ => rfl
      · split
        · exact fun _ => rfl
        · split
          · exact fun _ => rfl
          · split
            · exact fun _ => rfl
            · exact fun hfailed => absurd rfl hfailed
  | traceArgs traceArgs =>
      simp only [openTrace, openTraceArgs, hboot, refused]
      split
      · exact fun _ => rfl
      · split
        · exact fun _ => rfl
        · split
          · exact fun _ => rfl
          · exact fun hfailed => absurd rfl hfailed
  | args args =>
      simp only [openTrace, openArgs, hboot, refused, parsesArgs]
      split
      · rename_i hmode
        simp [hmode]
      · rename_i hmode
        split
        · rename_i hroot
          simp [hroot]
        · rename_i hroot
          split
          · rename_i htables
            simp [htables]
          · rename_i htables
            have happPid := parseArgs_appPid environment args
              (uninitializedParams environment) globals.appPid
            split
            · rename_i appPid hparse
              simp_all
            · exact fun hfailed => absurd rfl hfailed

end TraceGlobals

end Hitrace
