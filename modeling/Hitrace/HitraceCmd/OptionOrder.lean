import Hitrace.HitraceCmd.CommandLine
import Mathlib.Data.List.Basic
import Mathlib.Data.List.Pairwise
import Mathlib.Data.List.Perm.Basic
import Mathlib.Tactic.Common

namespace Hitrace

/-! What the order of the options changes. -/

namespace CommandLine

inductive Field
  | clockType
  | level
  | bufferSize
  | fileSize
  | totalSize
  | overwrite
  | output
  | duration
  | isCompress
  | remainingCount
  | bootFilePrefix
  | bootTraceOverwrite
  | bootTraceIncrement
  | runningState
deriving Repr, DecidableEq

/-- The fields that an option can set. -/
def LongOption.fields : LongOption → List Field
  | .bufferSize => [.bufferSize]
  | .traceClock => [.clockType]
  | .time => [.duration]
  | .output => [.output]
  | .overwrite => [.overwrite, .bootTraceOverwrite]
  | .fileSize => [.fileSize]
  | .totalSize => [.totalSize]
  | .traceLevel => [.runningState, .level]
  | .repeatCount => [.remainingCount]
  | .filePrefix => [.bootFilePrefix]
  | .increment => [.bootTraceIncrement]
  | .record | .bootTrace | .help | .listCategories | .traceBegin | .traceFinish
  | .traceFinishNodump | .traceDump | .startBgsrv | .dumpBgsrv | .stopBgsrv | .text | .raw
  | .getLevel => [.runningState]

def Opt.fields : Opt → List Field
  | .short .b => [.bufferSize]
  | .short .h | .short .l => [.runningState]
  | .short .o => [.output]
  | .short .t => [.duration]
  | .short .z => [.isCompress]
  | .short .c | .unknown => []
  | .long option => option.fields

/-- No option occurs twice and no two options set the same field. -/
def Distinct (options : List Occurrence) : Prop :=
  options.Pairwise fun first second =>
    first.opt ≠ second.opt ∧ first.opt.fields.Disjoint second.opt.fields

/-- `--overwrite` stands behind `--boot_trace`. -/
def overwritesBootTrace (options : List Occurrence) : Bool :=
  (options.dropWhile fun occurrence => occurrence.opt != .long .bootTrace).any fun occurrence =>
    occurrence.opt == .long .overwrite

/-! An accepted option is a list of writes. -/

inductive Write
  | clockType (clockType : List Char)
  | level (level : List Char)
  | bufferSize (bufferSize : Int32)
  | fileSize (fileSize : Int32)
  | totalSize (totalSize : Int)
  | overwrite
  | output (output : List Char)
  | duration (duration : Int32)
  | isCompress
  | remainingCount (remainingCount : Int32)
  | bootFilePrefix (bootFilePrefix : List Char)
  | bootTraceOverwrite
  | bootTraceIncrement
  | runningState (runningState : RunningState)

def Write.field : Write → Field
  | .clockType _ => .clockType
  | .level _ => .level
  | .bufferSize _ => .bufferSize
  | .fileSize _ => .fileSize
  | .totalSize _ => .totalSize
  | .overwrite => .overwrite
  | .output _ => .output
  | .duration _ => .duration
  | .isCompress => .isCompress
  | .remainingCount _ => .remainingCount
  | .bootFilePrefix _ => .bootFilePrefix
  | .bootTraceOverwrite => .bootTraceOverwrite
  | .bootTraceIncrement => .bootTraceIncrement
  | .runningState _ => .runningState

def Globals.write (globals : Globals) : Write → Globals
  | .clockType clockType => { globals with traceArgs.clockType := clockType }
  | .level level => { globals with traceArgs.level := level }
  | .bufferSize bufferSize => { globals with traceArgs.bufferSize := bufferSize }
  | .fileSize fileSize => { globals with traceArgs.fileSize := fileSize }
  | .totalSize totalSize => { globals with traceArgs.totalSize := totalSize }
  | .overwrite => { globals with traceArgs.overwrite := false }
  | .output output => { globals with traceArgs.output := output }
  | .duration duration => { globals with traceArgs.duration := duration }
  | .isCompress => { globals with traceArgs.isCompress := true }
  | .remainingCount remainingCount => { globals with traceArgs.remainingCount := remainingCount }
  | .bootFilePrefix bootFilePrefix => { globals with traceArgs.bootFilePrefix := bootFilePrefix }
  | .bootTraceOverwrite => { globals with traceArgs.bootTraceOverwrite := true }
  | .bootTraceIncrement => { globals with traceArgs.bootTraceIncrement := true }
  | .runningState runningState => { globals with runningState := runningState }

theorem write_comm {first second : Write} (hfield : first.field ≠ second.field)
    (globals : Globals) :
    (globals.write first).write second = (globals.write second).write first := by
  cases first
  all_goals
    cases second
    all_goals first
      | rfl
      | exact absurd rfl hfield

/-- What an accepted option writes; `late` says whether `--overwrite` comes in a boot trace. -/
def LongOption.writes (late : Bool) (optarg : List Char) (option : LongOption) : List Write :=
  match option with
  | .bufferSize => [.bufferSize ((strToNum 0 optarg).1 / pageSizeKb * pageSizeKb)]
  | .traceClock => [.clockType optarg]
  | .time => [.duration (strToNum 0 optarg).1]
  | .output => [.output optarg]
  | .overwrite => if late then [.bootTraceOverwrite] else [.overwrite]
  | .record => []
  | .fileSize => [.fileSize (strToNum 0 optarg).1]
  | .totalSize => [.totalSize (strToNum 0 optarg).1.toInt]
  | .traceLevel => [.runningState .setTraceLevel, .level ((traceLevels.lookup optarg).getD [])]
  | .repeatCount => [.remainingCount (strToNum 0 optarg).1]
  | .filePrefix => [.bootFilePrefix optarg]
  | .increment => [.bootTraceIncrement]
  | .bootTrace | .help | .listCategories | .traceBegin | .traceFinish | .traceFinishNodump
  | .traceDump | .startBgsrv | .dumpBgsrv | .stopBgsrv | .text | .raw | .getLevel =>
      [.runningState option.setValue]

def Occurrence.writes (late : Bool) (occurrence : Occurrence) : List Write :=
  match occurrence.opt with
  | .short .b => [.bufferSize ((strToNum 0 occurrence.optarg).1 / pageSizeKb * pageSizeKb)]
  | .short .h => [.runningState .showHelp]
  | .short .l => [.runningState .showListCategory]
  | .short .o => [.output occurrence.optarg]
  | .short .t => [.duration (strToNum 0 occurrence.optarg).1]
  | .short .z => [.isCompress]
  | .short .c | .unknown => []
  | .long option => option.writes late occurrence.optarg

section Writes

variable {env : Environment} {globals next : Globals} {occurrence : Occurrence}
  {optarg : List Char} {late : Bool}

theorem field_mem_of_writes {write : Write} (hwrite : write ∈ occurrence.writes late) :
    write.field ∈ occurrence.opt.fields := by
  obtain ⟨opt, optarg⟩ := occurrence
  cases opt with
  | unknown => cases hwrite
  | short option =>
      cases option
      case c => cases hwrite
      all_goals
        rw [List.mem_singleton.mp hwrite]
        exact List.mem_singleton_self _
  | long option =>
      cases option
      case overwrite =>
        cases late with
        | false =>
            rw [List.mem_singleton.mp hwrite]
            exact List.mem_cons_self
        | true =>
            rw [List.mem_singleton.mp hwrite]
            exact List.mem_cons_of_mem _ List.mem_cons_self
      case record => cases hwrite
      case traceLevel =>
        rcases List.mem_cons.mp hwrite with rfl | hwrite
        · exact List.mem_cons_self
        · rw [List.mem_singleton.mp hwrite]
          exact List.mem_cons_of_mem _ List.mem_cons_self
      all_goals
        rw [List.mem_singleton.mp hwrite]
        exact List.mem_singleton_self _

theorem writes_eq_of_ne (hopt : occurrence.opt ≠ .long .overwrite) (other : Bool) :
    occurrence.writes late = occurrence.writes other := by
  obtain ⟨opt, optarg⟩ := occurrence
  cases opt with
  | unknown => rfl
  | short option =>
      cases option
      all_goals rfl
  | long option =>
      cases option
      case overwrite => exact absurd rfl hopt
      all_goals rfl

theorem strToNum_of_true {tX : Int32} (hnumber : (strToNum tX optarg).2 = true) :
    (strToNum tX optarg).1 = (strToNum 0 optarg).1 := by
  rw [strToNum] at hnumber ⊢
  rw [strToNum]
  split
  · next hnone =>
      rw [hnone] at hnumber
      cases hnumber
  · rfl

theorem setRunningState_eq {setValue : RunningState}
    (hset : setRunningState globals setValue = (next, true)) :
    globals.runningState = .stateNull ∧ next = globals.write (.runningState setValue) := by
  rw [setRunningState] at hset
  split at hset
  · next hnull =>
      cases hset
      exact ⟨hnull, rfl⟩
  · cases hset

theorem setBufferSize_eq (hset : setBufferSize env globals optarg = (next, true)) :
    next = globals.write (.bufferSize ((strToNum 0 optarg).1 / pageSizeKb * pageSizeKb)) :=
  (congrArg Prod.fst hset).symm

theorem handleOptTime_eq (hset : handleOptTime globals optarg = (next, true)) :
    next = globals.write (.duration (strToNum 0 optarg).1) := by
  have haccepted := congrArg Prod.snd hset
  rw [handleOptTime, Bool.and_eq_true] at haccepted
  have hnext : (handleOptTime globals optarg).1 = next := congrArg Prod.fst hset
  rw [← hnext, handleOptTime]
  dsimp only
  rw [strToNum_of_true haccepted.1]
  rfl

theorem checkOutputFile_eq (hset : checkOutputFile env globals optarg = (next, true)) :
    next = globals.write (.output optarg) := by
  rw [checkOutputFile] at hset
  split at hset
  · cases hset
  · cases hset
    rfl

theorem handleOptTraceclock_eq (hset : handleOptTraceclock globals optarg = (next, true)) :
    next = globals.write (.clockType optarg) := by
  rw [handleOptTraceclock] at hset
  split at hset
  · cases hset
    rfl
  · cases hset

theorem handleOptRepeat_eq (hset : handleOptRepeat globals optarg = (next, true)) :
    next = globals.write (.remainingCount (strToNum 0 optarg).1) := by
  rw [handleOptRepeat] at hset
  dsimp only at hset
  split at hset
  · cases hset
    rfl
  · cases hset

theorem handleOptBootFilePrefix_eq {setValue : RunningState}
    (hset : handleOptBootFilePrefix globals optarg setValue = (next, true)) :
    next = globals.write (.bootFilePrefix optarg) := by
  rw [handleOptBootFilePrefix] at hset
  split at hset
  · cases hset
  · cases hset
    rfl

theorem handleOptBootIncrement_eq (hset : handleOptBootIncrement globals = (next, true)) :
    next = globals.write .bootTraceIncrement := by
  rw [handleOptBootIncrement] at hset
  split at hset
  · cases hset
    rfl
  · cases hset

theorem handleOptTracelevel_eq {setValue : RunningState}
    (hset : handleOptTracelevel globals optarg setValue = (next, true)) :
    globals.runningState = .stateNull ∧
      next = (globals.write (.runningState setValue)).write
        (.level ((traceLevels.lookup optarg).getD [])) := by
  have haccepted := congrArg Prod.snd hset
  rw [handleOptTracelevel, Bool.and_eq_true] at haccepted
  have hnext : (handleOptTracelevel globals optarg setValue).1 = next := congrArg Prod.fst hset
  rw [handleOptTracelevel] at hnext
  obtain ⟨hnull, hstate⟩ := setRunningState_eq (Prod.ext rfl haccepted.1 :
    setRunningState globals setValue = ((setRunningState globals setValue).1, true))
  refine ⟨hnull, ?_⟩
  have hlevel := haccepted.2
  dsimp only at hnext hlevel
  rw [hstate] at hnext hlevel
  rw [← hnext]
  rw [checkTraceLevel] at hlevel ⊢
  split at hlevel
  · next level hlookup =>
      rw [hlookup]
      rfl
  · cases hlevel

theorem handleOptBootTrace_eq {setValue : RunningState}
    (hset : handleOptBootTrace env globals setValue = (next, true)) :
    globals.runningState = .stateNull ∧ next = globals.write (.runningState setValue) := by
  rw [handleOptBootTrace] at hset
  split at hset
  · exact setRunningState_eq hset
  · cases hset

/-- A command is only accepted as the first one. -/
theorem parseLongOpt_eq {option : LongOption}
    (hfree : globals.runningState ≠ .stateNull → Field.runningState ∉ option.fields)
    (hparse : parseLongOpt env globals optarg option = (next, true)) :
    next = (option.writes (decide (globals.runningState = .configBootTrace)) optarg).foldl
        Globals.write globals ∧
      (Field.runningState ∈ option.fields → globals.runningState = .stateNull) := by
  have hnull : Field.runningState ∈ option.fields → globals.runningState = .stateNull :=
    fun hmem => by_contra fun hne => hfree hne hmem
  refine ⟨?_, hnull⟩
  cases option
  case bufferSize => exact setBufferSize_eq hparse
  case traceClock => exact handleOptTraceclock_eq hparse
  case time => exact handleOptTime_eq hparse
  case output => exact checkOutputFile_eq hparse
  case overwrite =>
    rw [parseLongOpt, handleOptOverwrite] at hparse
    split at hparse
    · next hboot =>
        cases hparse
        rw [decide_eq_true hboot]
        rfl
    · next hboot =>
        cases hparse
        rw [decide_eq_false hboot]
        rfl
  case record =>
    rw [parseLongOpt, handleOptRecord, hnull (by decide)] at hparse
    cases hparse
  case fileSize => exact (congrArg Prod.fst hparse).symm
  case totalSize => exact (congrArg Prod.fst hparse).symm
  case traceLevel => exact (handleOptTracelevel_eq hparse).2
  case bootTrace => exact (handleOptBootTrace_eq hparse).2
  case repeatCount => exact handleOptRepeat_eq hparse
  case filePrefix => exact handleOptBootFilePrefix_eq hparse
  case increment => exact handleOptBootIncrement_eq hparse
  all_goals exact (setRunningState_eq hparse).2

theorem parseOpt_eq
    (hfree : globals.runningState ≠ .stateNull → Field.runningState ∉ occurrence.opt.fields)
    (hparse : parseOpt env globals occurrence.optarg occurrence.opt = (next, true)) :
    next = (occurrence.writes (decide (globals.runningState = .configBootTrace))).foldl
        Globals.write globals ∧
      (Field.runningState ∈ occurrence.opt.fields → globals.runningState = .stateNull) := by
  obtain ⟨opt, optarg⟩ := occurrence
  cases opt with
  | unknown => cases hparse
  | long option => exact parseLongOpt_eq hfree hparse
  | short option =>
      refine ⟨?_, fun hmem => by_contra fun hne => hfree hne hmem⟩
      cases option
      case b => exact setBufferSize_eq hparse
      case h => exact (setRunningState_eq hparse).2
      case l => exact (setRunningState_eq hparse).2
      case o => exact checkOutputFile_eq hparse
      case t => exact handleOptTime_eq hparse
      all_goals
        cases hparse
        rfl

/-- An option that is no command leaves the running state. -/
theorem runningState_of_writes {writes : List Write}
    (hfields : ∀ write ∈ writes, write.field ≠ .runningState) (globals : Globals) :
    (writes.foldl Globals.write globals).runningState = globals.runningState := by
  induction writes generalizing globals with
  | nil => rfl
  | cons write rest ih =>
      obtain ⟨hwrite, hrest⟩ := List.forall_mem_cons.mp hfields
      rw [List.foldl_cons, ih hrest]
      cases write
      case runningState => exact absurd rfl hwrite
      all_goals rfl

/-- The running state that a command sets. -/
def Opt.setValue : Opt → RunningState
  | .short .h => .showHelp
  | .short .l => .showListCategory
  | .long option => option.setValue
  | _ => .stateNull

theorem setValue_eq_configBootTrace {opt : Opt} (hcommand : Field.runningState ∈ opt.fields) :
    opt.setValue = .configBootTrace ↔ opt = .long .bootTrace := by
  cases opt with
  | unknown => cases hcommand
  | short option =>
      cases option
      all_goals decide
  | long option =>
      cases option
      case repeatCount => simp [Opt.fields, LongOption.fields] at hcommand
      case filePrefix => simp [Opt.fields, LongOption.fields] at hcommand
      case increment => simp [Opt.fields, LongOption.fields] at hcommand
      all_goals decide

theorem writes_of_command (hcommand : Field.runningState ∈ occurrence.opt.fields)
    (hrecord : occurrence.opt ≠ .long .record) :
    ∃ others, occurrence.writes late = .runningState occurrence.opt.setValue :: others ∧
      ∀ write ∈ others, write.field ≠ .runningState := by
  obtain ⟨opt, optarg⟩ := occurrence
  cases opt with
  | unknown => cases hcommand
  | short option =>
      cases option
      case h => exact ⟨[], rfl, List.forall_mem_nil _⟩
      case l => exact ⟨[], rfl, List.forall_mem_nil _⟩
      all_goals simp [Opt.fields] at hcommand
  | long option =>
      cases option
      case record => exact absurd rfl hrecord
      case traceLevel =>
        refine ⟨[.level _], rfl, fun write hwrite => ?_⟩
        rw [List.mem_singleton.mp hwrite]
        exact fun hfield => by cases hfield
      all_goals first
        | exact ⟨[], rfl, List.forall_mem_nil _⟩
        | simp [Opt.fields, LongOption.fields] at hcommand

end Writes

/-! All options. -/

/-- The options are accepted one after another. -/
inductive Parsed (env : Environment) : Globals → List Occurrence → Globals → Prop
  | nil {globals : Globals} : Parsed env globals [] globals
  | cons {globals next final : Globals} {occurrence : Occurrence} {rest : List Occurrence}
      (hparse : parseOpt env globals occurrence.optarg occurrence.opt = (next, true))
      (hrest : Parsed env next rest final) : Parsed env globals (occurrence :: rest) final

def isOverwrite (occurrence : Occurrence) : Bool :=
  occurrence.opt == .long .overwrite

/-- Whether `--overwrite` comes in a boot trace, if one has begun or not. -/
def lateIn (begun : Bool) (options : List Occurrence) : Bool :=
  if begun then options.any isOverwrite else overwritesBootTrace options

section Options

variable {env : Environment} {globals next final : Globals} {occurrence : Occurrence}
  {options other rest : List Occurrence} {tags : List (List Char)} {late begun : Bool}

theorem flatMap_writes_eq (hoverwrite : ∀ occurrence ∈ options, isOverwrite occurrence = false)
    (other : Bool) : options.flatMap (Occurrence.writes late) =
      options.flatMap (Occurrence.writes other) := by
  refine List.flatMap_congr fun occurrence hmem => writes_eq_of_ne ?_ other
  exact beq_eq_false_iff_ne.mp (hoverwrite occurrence hmem)

theorem overwritesBootTrace_cons (occurrence : Occurrence) (rest : List Occurrence) :
    overwritesBootTrace (occurrence :: rest) =
      lateIn (occurrence.opt == .long .bootTrace) rest := by
  rw [overwritesBootTrace, lateIn]
  by_cases hboot : occurrence.opt = .long .bootTrace
  · rw [List.dropWhile_cons_of_neg (by simp [hboot]), if_pos (by simp [hboot]), List.any_cons,
      hboot]
    rfl
  · rw [List.dropWhile_cons_of_pos (by simpa using hboot), if_neg (by simpa using hboot)]
    rfl

theorem lateIn_eq_false (hoverwrite : ∀ occurrence ∈ options, isOverwrite occurrence = false) :
    lateIn begun options = false := by
  rw [lateIn]
  split
  · exact List.any_eq_false.mpr fun occurrence hmem => by simp [hoverwrite occurrence hmem]
  · refine List.any_eq_false.mpr fun occurrence hmem => ?_
    have hfalse := hoverwrite occurrence (List.dropWhile_subset _ hmem)
    rw [isOverwrite] at hfalse
    simp [hfalse]

/-- The flag for the rest is that for the whole, as far as it matters. -/
theorem lateIn_cons (hdistinct : Distinct (occurrence :: rest)) :
    (occurrence :: rest).flatMap (Occurrence.writes (lateIn begun (occurrence :: rest))) =
      occurrence.writes begun ++ rest.flatMap (Occurrence.writes
        (lateIn (begun || occurrence.opt == .long .bootTrace) rest)) := by
  obtain ⟨hfirst, _⟩ := List.pairwise_cons.mp hdistinct
  rw [List.flatMap_cons]
  by_cases hopt : occurrence.opt = .long .overwrite
  · have hnone : ∀ other ∈ rest, isOverwrite other = false := by
      intro other hmem
      refine beq_eq_false_iff_ne.mpr fun hother => (hfirst other hmem).1 ?_
      rw [hopt, hother]
    have hbegun : lateIn begun (occurrence :: rest) = begun := by
      cases begun with
      | true =>
          rw [lateIn, if_pos rfl, List.any_cons, isOverwrite, hopt]
          rfl
      | false =>
          rw [lateIn, if_neg (by decide), overwritesBootTrace_cons]
          exact lateIn_eq_false hnone
    rw [hbegun, flatMap_writes_eq hnone]
  · have hlate : lateIn begun (occurrence :: rest) =
        lateIn (begun || occurrence.opt == .long .bootTrace) rest := by
      cases begun with
      | true =>
          rw [lateIn, if_pos rfl, Bool.true_or, lateIn, if_pos rfl, List.any_cons, isOverwrite,
            beq_eq_false_iff_ne.mpr hopt, Bool.false_or]
      | false =>
          rw [lateIn, if_neg (by decide), overwritesBootTrace_cons, Bool.false_or]
    rw [hlate, writes_eq_of_ne hopt]

/-- A command is only accepted as the first one, so the options behind it are none. -/
theorem free_cons (hdistinct : Distinct (occurrence :: rest))
    (hfree : globals.runningState ≠ .stateNull →
      ∀ other ∈ occurrence :: rest, Field.runningState ∉ other.opt.fields)
    (hparse : parseOpt env globals occurrence.optarg occurrence.opt = (next, true)) :
    next.runningState ≠ .stateNull →
      ∀ other ∈ rest, Field.runningState ∉ other.opt.fields := by
  intro hne other hmem hother
  obtain ⟨hfirst, _⟩ := List.pairwise_cons.mp hdistinct
  obtain ⟨hnext, _⟩ := parseOpt_eq (fun hne => hfree hne occurrence List.mem_cons_self) hparse
  have hcommand : Field.runningState ∉ occurrence.opt.fields :=
    fun hcommand => (hfirst other hmem).2 hcommand hother
  have hstate : next.runningState = globals.runningState := by
    rw [hnext]
    exact runningState_of_writes
      (fun write hwrite hfield => hcommand (hfield ▸ field_mem_of_writes hwrite)) globals
  rw [hstate] at hne
  exact hfree hne other (List.mem_cons_of_mem _ hmem) hother

/-- An accepted list is the list of its writes. -/
theorem Parsed.writes (hparsed : Parsed env globals options final)
    (hdistinct : Distinct options)
    (hfree : globals.runningState ≠ .stateNull →
      ∀ occurrence ∈ options, Field.runningState ∉ occurrence.opt.fields) :
    final = (options.flatMap (Occurrence.writes
      (lateIn (decide (globals.runningState = .configBootTrace)) options))).foldl
        Globals.write globals := by
  induction hparsed with
  | nil => rfl
  | @cons globals next final occurrence rest hparse hrest ih =>
      obtain ⟨_, hrestDistinct⟩ := List.pairwise_cons.mp hdistinct
      have hrestFree := free_cons hdistinct hfree hparse
      obtain ⟨hnext, hnull⟩ :=
        parseOpt_eq (fun hne => hfree hne occurrence List.mem_cons_self) hparse
      rw [lateIn_cons hdistinct, List.foldl_append, ← hnext]
      by_cases hcommand : Field.runningState ∈ occurrence.opt.fields
      · have hstart := hnull hcommand
        have hrecord : occurrence.opt ≠ .long .record := by
          intro hopt
          rw [hopt, parseOpt, parseLongOpt, handleOptRecord, hstart] at hparse
          cases hparse
        obtain ⟨others, hwrites, hfields⟩ := @writes_of_command occurrence
          (decide (globals.runningState = .configBootTrace)) hcommand hrecord
        have hstate : next.runningState = occurrence.opt.setValue := by
          rw [hnext, hwrites, List.foldl_cons, runningState_of_writes hfields]
          rfl
        have hflag : decide (occurrence.opt.setValue = .configBootTrace) =
            (decide (RunningState.stateNull = .configBootTrace) ||
              occurrence.opt == .long .bootTrace) := by
          rw [Bool.eq_iff_iff]
          simp [setValue_eq_configBootTrace hcommand]
        rw [hstart, ← hflag, ← hstate]
        exact ih hrestDistinct hrestFree
      · have hfields : ∀ write ∈ occurrence.writes
            (decide (globals.runningState = .configBootTrace)), write.field ≠ .runningState :=
          fun write hwrite hfield => hcommand (hfield ▸ field_mem_of_writes hwrite)
        have hstate : next.runningState = globals.runningState := by
          rw [hnext]
          exact runningState_of_writes hfields globals
        have hboot : (occurrence.opt == .long .bootTrace) = false := by
          refine beq_eq_false_iff_ne.mpr fun hopt => hcommand ?_
          rw [hopt]
          decide
        rw [hboot, Bool.or_false]
        rw [← hstate]
        exact ih hrestDistinct hrestFree

/-- Every option of an accepted list is accepted where it stands, a command before any other. -/
theorem Parsed.accepted (hparsed : Parsed env globals options final)
    (hdistinct : Distinct options)
    (hfree : globals.runningState ≠ .stateNull →
      ∀ occurrence ∈ options, Field.runningState ∉ occurrence.opt.fields) :
    ∀ occurrence ∈ options, ∃ before after : Globals,
      (before.runningState ≠ .stateNull → Field.runningState ∉ occurrence.opt.fields) ∧
        parseOpt env before occurrence.optarg occurrence.opt = (after, true) := by
  induction hparsed with
  | nil => exact List.forall_mem_nil _
  | @cons globals next final occurrence rest hparse hrest ih =>
      rw [List.forall_mem_cons]
      refine ⟨⟨globals, next, fun hne => hfree hne occurrence List.mem_cons_self, hparse⟩, ?_⟩
      exact ih hdistinct.of_cons (free_cons hdistinct hfree hparse)

/-- The loop takes the options that it has words for before it looks at the tags. -/
theorem parsed_of_loop {argcSize : Nat} {result : Globals × Bool}
    (hloop : handleOptLoop env tags argcSize globals options = result)
    (hresult : result.2 = true) :
    ∃ parsed, Parsed env globals (options.take argcSize) parsed ∧
      handleOptLoop env tags (argcSize - options.length) parsed [] = result := by
  induction options generalizing globals argcSize with
  | nil =>
      rw [List.take_nil]
      exact ⟨globals, .nil, hloop⟩
  | cons occurrence rest ih =>
      cases argcSize with
      | zero => exact ⟨globals, .nil, by rw [Nat.zero_sub, ← hloop, handleOptLoop, handleOptLoop]⟩
      | succ count =>
          rw [handleOptLoop] at hloop
          split at hloop
          · next haccepted =>
              obtain ⟨parsed, hparsed, hrest⟩ := ih hloop
              refine ⟨parsed, .cons (Prod.ext rfl haccepted) hparsed, ?_⟩
              rw [List.length_cons, Nat.succ_sub_succ]
              exact hrest
          · next hrejected =>
              rw [← hloop] at hresult
              exact absurd hresult hrejected

theorem writes_eq_or_field_ne {first second : Write} (hfirst : first ∈ occurrence.writes late)
    (hsecond : second ∈ occurrence.writes late) :
    first = second ∨ first.field ≠ second.field := by
  obtain ⟨opt, optarg⟩ := occurrence
  cases opt with
  | unknown => cases hfirst
  | short option =>
      cases option
      case c => cases hfirst
      all_goals
        rw [List.mem_singleton.mp hfirst, List.mem_singleton.mp hsecond]
        exact .inl rfl
  | long option =>
      cases option
      case record => cases hfirst
      case overwrite =>
        cases late
        all_goals
          rw [List.mem_singleton.mp hfirst, List.mem_singleton.mp hsecond]
          exact .inl rfl
      case traceLevel =>
        rcases List.mem_cons.mp hfirst with rfl | hfirst
        · rcases List.mem_cons.mp hsecond with rfl | hsecond
          · exact .inl rfl
          · rw [List.mem_singleton.mp hsecond]
            exact .inr fun hfield => by cases hfield
        · rw [List.mem_singleton.mp hfirst]
          rcases List.mem_cons.mp hsecond with rfl | hsecond
          · exact .inr fun hfield => by cases hfield
          · rw [List.mem_singleton.mp hsecond]
            exact .inl rfl
      all_goals
        rw [List.mem_singleton.mp hfirst, List.mem_singleton.mp hsecond]
        exact .inl rfl

theorem disjoint_of_distinct (hdistinct : Distinct options) {left right : Occurrence}
    (hleft : left ∈ options) (hright : right ∈ options) (hne : left ≠ right) :
    left.opt.fields.Disjoint right.opt.fields := by
  have hsymm : Std.Symm fun first second : Occurrence =>
      first.opt ≠ second.opt ∧ first.opt.fields.Disjoint second.opt.fields :=
    ⟨fun first second hpair => ⟨hpair.1.symm, fun field hsecond hfirst => hpair.2 hfirst hsecond⟩⟩
  exact (hdistinct.forall hleft hright hne).2

theorem writes_eq_or_ne_of_distinct (hdistinct : Distinct options) {left right : Occurrence}
    (hleft : left ∈ options) (hright : right ∈ options) {first second : Write}
    (hfirst : first ∈ left.writes late) (hsecond : second ∈ right.writes late) :
    first = second ∨ first.field ≠ second.field := by
  by_cases heq : left = right
  · subst heq
    exact writes_eq_or_field_ne hfirst hsecond
  · have hdisjoint := disjoint_of_distinct hdistinct hleft hright heq
    refine .inr fun hfield => hdisjoint (field_mem_of_writes hfirst) ?_
    rw [hfield]
    exact field_mem_of_writes hsecond

/-- The writes of different options commute. -/
theorem foldl_writes_perm (hdistinct : Distinct options) (hperm : options.Perm other)
    (globals : Globals) :
    (options.flatMap (Occurrence.writes late)).foldl Globals.write globals =
      (other.flatMap (Occurrence.writes late)).foldl Globals.write globals := by
  refine (hperm.flatMap_right _).foldl_eq' (fun first hfirst second hsecond current => ?_) globals
  obtain ⟨left, hleft, hfirst⟩ := List.mem_flatMap.mp hfirst
  obtain ⟨right, hright, hsecond⟩ := List.mem_flatMap.mp hsecond
  rcases writes_eq_or_ne_of_distinct hdistinct hleft hright hfirst hsecond with rfl | hfields
  · rfl
  · exact write_comm hfields current

/-! What the globals show of a write. -/

def Globals.Holds (globals : Globals) : Write → Prop
  | .clockType clockType => globals.traceArgs.clockType = clockType
  | .level level => globals.traceArgs.level = level
  | .bufferSize bufferSize => globals.traceArgs.bufferSize = bufferSize
  | .fileSize fileSize => globals.traceArgs.fileSize = fileSize
  | .totalSize totalSize => globals.traceArgs.totalSize = totalSize
  | .overwrite => globals.traceArgs.overwrite = false
  | .output output => globals.traceArgs.output = output
  | .duration duration => globals.traceArgs.duration = duration
  | .isCompress => globals.traceArgs.isCompress = true
  | .remainingCount remainingCount => globals.traceArgs.remainingCount = remainingCount
  | .bootFilePrefix bootFilePrefix => globals.traceArgs.bootFilePrefix = bootFilePrefix
  | .bootTraceOverwrite => globals.traceArgs.bootTraceOverwrite = true
  | .bootTraceIncrement => globals.traceArgs.bootTraceIncrement = true
  | .runningState runningState => globals.runningState = runningState

theorem holds_write (globals : Globals) (write : Write) : (globals.write write).Holds write := by
  cases write
  all_goals rfl

theorem holds_write_iff_of_ne {first second : Write} (hfield : first.field ≠ second.field)
    (globals : Globals) : (globals.write first).Holds second ↔ globals.Holds second := by
  cases first
  all_goals
    cases second
    all_goals first
      | exact Iff.rfl
      | exact absurd rfl hfield

theorem holds_foldl_iff {writes : List Write} {write : Write}
    (hfields : ∀ other ∈ writes, other = write ∨ other.field ≠ write.field) (globals : Globals) :
    (writes.foldl Globals.write globals).Holds write ↔ globals.Holds write ∨ write ∈ writes := by
  induction writes generalizing globals with
  | nil => simp
  | cons other rest ih =>
      obtain ⟨hother, hrest⟩ := List.forall_mem_cons.mp hfields
      rw [List.foldl_cons, ih hrest, List.mem_cons]
      rcases hother with rfl | hne
      · simp [holds_write]
      · rw [holds_write_iff_of_ne hne]
        have hdifferent : write ≠ other := fun heq => hne (heq ▸ rfl)
        simp [hdifferent]

theorem tagsVec_foldl_write (writes : List Write) (globals : Globals) :
    (writes.foldl Globals.write globals).traceArgs.tagsVec = globals.traceArgs.tagsVec := by
  induction writes generalizing globals with
  | nil => rfl
  | cons write rest ih =>
      rw [List.foldl_cons, ih]
      cases write
      all_goals rfl

theorem write_of_holds {write : Write} (hholds : globals.Holds write) :
    globals.write write = globals := by
  obtain ⟨⟨_, _, _, _, _, _, _, _, _, _, _, _, _, _, _⟩, _⟩ := globals
  cases write
  all_goals
    cases hholds
    rfl

theorem foldl_write_fixed {writes : List Write}
    (hfixed : ∀ write ∈ writes, globals.write write = globals) :
    writes.foldl Globals.write globals = globals := by
  induction writes with
  | nil => rfl
  | cons write rest ih =>
      obtain ⟨hwrite, hrest⟩ := List.forall_mem_cons.mp hfixed
      rw [List.foldl_cons, hwrite, ih hrest]

/-- An option that sets what is set already. -/
def Occurrence.Idle (occurrence : Occurrence) : Prop :=
  occurrence.opt = .short .c ∨
    occurrence.opt = .long .repeatCount ∧ (strToNum 0 occurrence.optarg).1 = 1

instance : DecidablePred Occurrence.Idle := fun occurrence =>
  inferInstanceAs (Decidable (occurrence.opt = .short .c ∨
    occurrence.opt = .long .repeatCount ∧ (strToNum 0 occurrence.optarg).1 = 1))

theorem Occurrence.Idle.holds (hidle : occurrence.Idle) :
    ∀ write ∈ occurrence.writes late, ({} : Globals).Holds write := by
  obtain ⟨opt, optarg⟩ := occurrence
  rcases hidle with hopt | ⟨hopt, hone⟩
  · cases hopt
    exact List.forall_mem_nil _
  · cases hopt
    intro write hwrite
    rw [List.mem_singleton.mp hwrite]
    exact hone.symm

/-- A size that is in its range is not the default. -/
theorem inRange_ne_zero {low high : Int32} (hlow : 0 < low.toInt)
    (hrange : (inRange optarg low high).2 = true) : (strToNum 0 optarg).1 ≠ 0 := by
  intro hzero
  have hbound := (inRange_bounds hrange).1
  have htoInt : (inRange optarg low high).1.toInt = 0 := congrArg Int32.toInt hzero
  omega

theorem setBufferSize_ne_zero (hset : setBufferSize env globals optarg = (next, true)) :
    (strToNum 0 optarg).1 / pageSizeKb * pageSizeKb ≠ 0 := by
  intro hzero
  have hlow := (inRange_bounds (congrArg Prod.snd hset)).1
  have hmin : minBufferSize.toInt = 256 := rfl
  have hpages := congrArg Int32.toInt hzero
  have hnumber : ∀ high, (inRange optarg minBufferSize high).1 = (strToNum 0 optarg).1 :=
    fun _ => rfl
  rw [hnumber] at hlow
  rw [toInt_pages (by omega), show Int32.toInt 0 = 0 from rfl] at hpages
  omega

theorem handleOptTime_ne_zero (hset : handleOptTime globals optarg = (next, true)) :
    (strToNum 0 optarg).1 ≠ 0 := by
  have haccepted := congrArg Prod.snd hset
  rw [handleOptTime, Bool.and_eq_true, decide_eq_true_eq] at haccepted
  intro hzero
  have hpositive := haccepted.2
  rw [strToNum_of_true haccepted.1, hzero] at hpositive
  exact absurd hpositive (by decide)

theorem checkOutputFile_ne_nil (hset : checkOutputFile env globals optarg = (next, true)) :
    optarg ≠ [] := by
  rintro rfl
  rw [checkOutputFile, if_pos (.inr (.inl Nat.one_pos))] at hset
  cases hset

theorem handleOptTraceclock_ne_nil
    (hset : handleOptTraceclock globals optarg = (next, true)) : optarg ≠ [] := by
  rintro rfl
  cases hset

theorem handleOptBootFilePrefix_ne_nil {setValue : RunningState}
    (hset : handleOptBootFilePrefix globals optarg setValue = (next, true)) : optarg ≠ [] := by
  rintro rfl
  rw [handleOptBootFilePrefix, if_pos (.inr rfl)] at hset
  cases hset

/-- An accepted option that leaves the defaults as they are is idle. -/
theorem idle_of_holds
    (hfree : globals.runningState ≠ .stateNull → Field.runningState ∉ occurrence.opt.fields)
    (hparse : parseOpt env globals occurrence.optarg occurrence.opt = (next, true))
    (hholds : ∀ write ∈ occurrence.writes late, ({} : Globals).Holds write) :
    occurrence.Idle := by
  obtain ⟨opt, optarg⟩ := occurrence
  cases opt with
  | unknown => cases hparse
  | short option =>
      cases option
      case b =>
        exact absurd (hholds _ (List.mem_singleton_self _)).symm (setBufferSize_ne_zero hparse)
      case c => exact .inl rfl
      case o =>
        exact absurd (hholds _ (List.mem_singleton_self _)).symm (checkOutputFile_ne_nil hparse)
      case t =>
        exact absurd (hholds _ (List.mem_singleton_self _)).symm (handleOptTime_ne_zero hparse)
      all_goals cases hholds _ (List.mem_singleton_self _)
  | long option =>
      cases option
      case bufferSize =>
        exact absurd (hholds _ (List.mem_singleton_self _)).symm (setBufferSize_ne_zero hparse)
      case traceClock =>
        exact absurd (hholds _ (List.mem_singleton_self _)).symm
          (handleOptTraceclock_ne_nil hparse)
      case time =>
        exact absurd (hholds _ (List.mem_singleton_self _)).symm (handleOptTime_ne_zero hparse)
      case output =>
        exact absurd (hholds _ (List.mem_singleton_self _)).symm (checkOutputFile_ne_nil hparse)
      case overwrite =>
        cases late
        all_goals cases hholds _ (List.mem_singleton_self _)
      case record =>
        have hnull : globals.runningState = .stateNull :=
          by_contra fun hne => hfree hne List.mem_cons_self
        rw [parseOpt, parseLongOpt, handleOptRecord, hnull] at hparse
        cases hparse
      case fileSize =>
        exact absurd (hholds _ (List.mem_singleton_self _)).symm
          (inRange_ne_zero (by decide) (congrArg Prod.snd hparse))
      case totalSize =>
        have hzero : (0 : Int) = (strToNum 0 optarg).1.toInt :=
          hholds _ (List.mem_singleton_self _)
        exact absurd (Int32.toInt_inj.mp hzero.symm)
          (inRange_ne_zero (by decide) (congrArg Prod.snd hparse))
      case traceLevel => cases hholds _ List.mem_cons_self
      case repeatCount => exact .inr ⟨rfl, (hholds _ (List.mem_singleton_self _)).symm⟩
      case filePrefix =>
        exact absurd (hholds _ (List.mem_singleton_self _)).symm
          (handleOptBootFilePrefix_ne_nil hparse)
      all_goals cases hholds _ (List.mem_singleton_self _)

theorem bootTraceOverwrite_mem_writes :
    .bootTraceOverwrite ∈ options.flatMap (Occurrence.writes (overwritesBootTrace options)) ↔
      overwritesBootTrace options = true := by
  rw [List.mem_flatMap]
  constructor
  · rintro ⟨occurrence, _, hwrite⟩
    by_contra hlate
    rw [Bool.not_eq_true] at hlate
    rw [hlate] at hwrite
    have hfield := field_mem_of_writes hwrite
    obtain ⟨opt, optarg⟩ := occurrence
    cases opt with
    | unknown => cases hwrite
    | short option =>
        cases option
        case c => cases hwrite
        all_goals cases List.mem_singleton.mp hwrite
    | long option =>
        cases option
        case record => cases hwrite
        case traceLevel =>
          rcases List.mem_cons.mp hwrite with heq | hwrite
          · cases heq
          · cases List.mem_singleton.mp hwrite
        all_goals cases List.mem_singleton.mp hwrite
  · intro hlate
    obtain ⟨occurrence, hmem, hopt⟩ := List.any_eq_true.mp hlate
    refine ⟨occurrence, List.dropWhile_subset _ hmem, ?_⟩
    rw [hlate, Occurrence.writes, beq_iff_eq.mp hopt]
    exact List.mem_singleton_self _

/-! The tags. -/

def Globals.tagged (globals : Globals) (tags : List (List Char)) : Globals :=
  match tags with
  | [] => globals
  | first :: rest =>
      if globals.runningState = .configBootTrace ∧ first :: rest = ["off".toList] then
        { globals with traceArgs.tagsVec := ["off".toList], traceArgs.tags := [] }
      else
        { globals with
          traceArgs.tagsVec := first :: rest
          traceArgs.tags := rest.foldl (fun text tag => text ++ ',' :: tag) first }

theorem tagged_tagged (globals : Globals) (tags : List (List Char)) :
    (globals.tagged tags).tagged tags = globals.tagged tags := by
  cases tags with
  | nil => rfl
  | cons first rest =>
      by_cases hoff : globals.runningState = .configBootTrace ∧ first :: rest = ["off".toList]
      · simp only [Globals.tagged, if_pos hoff]
      · simp only [Globals.tagged, if_neg hoff]

theorem holds_tagged_iff (globals : Globals) (tags : List (List Char)) (write : Write) :
    (globals.tagged tags).Holds write ↔ globals.Holds write := by
  cases tags with
  | nil => exact Iff.rfl
  | cons first rest =>
      rw [Globals.tagged]
      split
      all_goals
        cases write
        all_goals exact Iff.rfl

theorem tagsVec_tagged_ne (globals : Globals) (htags : tags ≠ []) :
    (globals.tagged tags).traceArgs.tagsVec ≠ [] := by
  cases tags with
  | nil => exact absurd rfl htags
  | cons first rest =>
      rw [Globals.tagged]
      split
      all_goals exact List.cons_ne_nil _ _

theorem addTag_eq {first : Bool} {tag : List Char}
    (hadd : addTag env first globals tag = (next, true)) :
    next = { globals with
      traceArgs.tagsVec := (if first then [] else globals.traceArgs.tagsVec) ++ [tag]
      traceArgs.tags := if first then tag else globals.traceArgs.tags ++ ',' :: tag } := by
  rw [addTag] at hadd
  split at hadd
  · cases hadd
  · split at hadd
    · cases hadd
    · cases first with
      | false =>
          cases hadd
          rfl
      | true =>
          cases hadd
          rfl

/-- The tags behind the first one. -/
theorem addTags_eq (hadd : addTags env false globals tags = (next, true)) :
    next = { globals with
      traceArgs.tagsVec := globals.traceArgs.tagsVec ++ tags
      traceArgs.tags :=
        tags.foldl (fun text tag => text ++ ',' :: tag) globals.traceArgs.tags } := by
  induction tags generalizing globals with
  | nil =>
      rw [List.append_nil, List.foldl_nil]
      exact (congrArg Prod.fst hadd).symm
  | cons tag rest ih =>
      rw [addTags] at hadd
      cases hfirst : addTag env false globals tag with
      | mk added success =>
          rw [hfirst] at hadd
          cases success with
          | false => cases hadd
          | true =>
              rw [ih hadd, addTag_eq hfirst]
              simp

theorem addTagItems_eq (hadd : addTagItems env globals tags = (next, true)) :
    next = globals.tagged tags := by
  rw [addTagItems] at hadd
  split at hadd
  · next hoff =>
      obtain ⟨hboot, rfl⟩ := hoff
      rw [Globals.tagged, if_pos ⟨hboot, rfl⟩]
      exact (congrArg Prod.fst hadd).symm
  · next hoff =>
      cases tags with
      | nil => exact (congrArg Prod.fst hadd).symm
      | cons first rest =>
          rw [addTags] at hadd
          cases hfirst : addTag env true globals first with
          | mk added success =>
              rw [hfirst] at hadd
              cases success with
              | false => cases hadd
              | true =>
                  rw [addTags_eq hadd, addTag_eq hfirst, Globals.tagged, if_neg hoff]
                  simp

/-- The tags are taken again with every word that is left. -/
theorem loop_tags {argcSize : Nat}
    (hloop : handleOptLoop env tags argcSize globals [] = (next, true)) :
    next = if 0 < argcSize then globals.tagged tags else globals := by
  induction argcSize generalizing globals with
  | zero => exact (congrArg Prod.fst hloop).symm
  | succ count ih =>
      rw [handleOptLoop] at hloop
      cases hadd : addTagItems env globals tags with
      | mk added success =>
          rw [hadd] at hloop
          cases success with
          | false => cases hloop
          | true =>
              have hrest := ih hloop
              rw [addTagItems_eq hadd, tagged_tagged, ite_self] at hrest
              rw [if_pos (Nat.succ_pos count)]
              exact hrest

theorem nodup_of_distinct (hdistinct : Distinct options) : options.Nodup :=
  hdistinct.imp fun hpair heq => hpair.1 (congrArg Occurrence.opt heq)

/-- The idle options can be left out. -/
theorem foldl_writes_active (hdistinct : Distinct options) :
    (options.flatMap (Occurrence.writes late)).foldl Globals.write {} =
      ((options.filter fun occurrence => !decide occurrence.Idle).flatMap
        (Occurrence.writes late)).foldl Globals.write {} := by
  have hidle : ((options.filter fun occurrence => decide occurrence.Idle).flatMap
      (Occurrence.writes late)).foldl Globals.write {} = {} := by
    refine foldl_write_fixed fun write hwrite => ?_
    obtain ⟨occurrence, hmem, hwrite⟩ := List.mem_flatMap.mp hwrite
    have hoccurrence := of_decide_eq_true (List.mem_filter.mp hmem).2
    exact write_of_holds (hoccurrence.holds write hwrite)
  have hperm := List.filter_append_perm (fun occurrence => decide (Occurrence.Idle occurrence))
    options
  rw [foldl_writes_perm hdistinct hperm.symm, List.flatMap_append, List.foldl_append, hidle]

end Options

/-! What is read of a command line: `argcSize` counts words, and options that share a word take
more turns than there are words. -/

/-- The options that the count reaches. -/
def Argv.reached (argv : Argv) : List Occurrence :=
  argv.occurrences.take argv.argc

/-- The count also reaches the tags. -/
def Argv.ReachesTags (argv : Argv) : Prop :=
  argv.occurrences.length < argv.argc

instance : DecidablePred Argv.ReachesTags := fun argv =>
  inferInstanceAs (Decidable (argv.occurrences.length < argv.argc))

/-- The globals of the options and the tags that are reached. -/
def Argv.settings (argv : Argv) : Globals :=
  (argv.reached.flatMap (Occurrence.writes (overwritesBootTrace argv.reached))).foldl
    Globals.write {}

/-- Of two orders the same is read: the options that set something, `--overwrite` for the boot
trace or for the recording, and the tags. -/
structure ReadAlike (first second : Argv) : Prop where
  options : ∀ occurrence ∈ first.occurrences,
    occurrence.Idle ∨ (occurrence ∈ first.reached ↔ occurrence ∈ second.reached)
  overwrite : overwritesBootTrace first.reached = overwritesBootTrace second.reached
  tags : first.tags = [] ∨ (first.ReachesTags ↔ second.ReachesTags)

section Orders

variable {env : Environment} {argv first second : Argv} {globals one two : Globals}

theorem distinct_reached (hdistinct : Distinct argv.occurrences) : Distinct argv.reached :=
  hdistinct.sublist (List.take_sublist _ _)

theorem parsed_settings (hdistinct : Distinct argv.occurrences)
    (hhandle : handleOpt env argv = (globals, true)) :
    Parsed env {} argv.reached argv.settings ∧
      globals = if argv.ReachesTags then argv.settings.tagged argv.tags else argv.settings := by
  obtain ⟨parsed, hparsed, hrest⟩ := parsed_of_loop hhandle rfl
  have hsettings := hparsed.writes (distinct_reached hdistinct) fun hne => absurd rfl hne
  have htags := loop_tags hrest
  simp only [Nat.sub_pos_iff_lt] at htags
  rw [hsettings] at hparsed htags
  exact ⟨hparsed, htags⟩

theorem holds_meaning_iff {write : Write}
    (hmeaning : globals =
      if argv.ReachesTags then argv.settings.tagged argv.tags else argv.settings) :
    globals.Holds write ↔ argv.settings.Holds write := by
  rw [hmeaning]
  split
  · exact holds_tagged_iff _ _ _
  · exact Iff.rfl

theorem tagsVec_settings (argv : Argv) : argv.settings.traceArgs.tagsVec = [] := by
  rw [Argv.settings]
  exact tagsVec_foldl_write _ {}

theorem tagsVec_ne_iff
    (hmeaning : globals =
      if argv.ReachesTags then argv.settings.tagged argv.tags else argv.settings)
    (htags : argv.tags ≠ []) : globals.traceArgs.tagsVec ≠ [] ↔ argv.ReachesTags := by
  rw [hmeaning]
  split
  · next hreaches => exact iff_of_true (tagsVec_tagged_ne _ htags) hreaches
  · next hreaches => exact iff_of_false (not_not.mpr (tagsVec_settings argv)) hreaches

/-- The flag of the boot trace is set by nothing else. -/
theorem holds_bootTraceOverwrite_iff :
    argv.settings.Holds .bootTraceOverwrite ↔ overwritesBootTrace argv.reached = true := by
  rw [Argv.settings, holds_foldl_iff, bootTraceOverwrite_mem_writes]
  · exact or_iff_right Bool.false_ne_true
  · intro write _
    cases write
    case bootTraceOverwrite => exact .inl rfl
    all_goals exact .inr nofun

/-- What an option writes shows only if it is reached, or is the default. -/
theorem reached_of_holds (hdistinct : Distinct argv.occurrences) {occurrence : Occurrence}
    (hmem : occurrence ∈ argv.occurrences) {write : Write}
    (hwrite : write ∈ occurrence.writes (overwritesBootTrace argv.reached))
    (hholds : argv.settings.Holds write) :
    ({} : Globals).Holds write ∨ occurrence ∈ argv.reached := by
  have hsame : ∀ other ∈ argv.reached, ∀ written ∈
      other.writes (overwritesBootTrace argv.reached), written.field = write.field →
        other = occurrence := by
    intro other hother written hwritten hfield
    by_contra hne
    have hdisjoint := disjoint_of_distinct hdistinct (List.mem_of_mem_take hother) hmem hne
    exact hdisjoint (field_mem_of_writes hwritten) (hfield ▸ field_mem_of_writes hwrite)
  rw [Argv.settings, holds_foldl_iff] at hholds
  · refine hholds.imp_right fun hwritten => ?_
    obtain ⟨other, hother, hwritten⟩ := List.mem_flatMap.mp hwritten
    exact hsame other hother write hwritten rfl ▸ hother
  · intro written hwritten
    obtain ⟨other, hother, hwritten⟩ := List.mem_flatMap.mp hwritten
    by_cases hfield : written.field = write.field
    · have heq := hsame other hother written hwritten hfield
      subst heq
      exact writes_eq_or_field_ne hwritten hwrite
    · exact .inr hfield

theorem holds_of_reached (hdistinct : Distinct argv.occurrences) {occurrence : Occurrence}
    (hmem : occurrence ∈ argv.reached) {write : Write}
    (hwrite : write ∈ occurrence.writes (overwritesBootTrace argv.reached)) :
    argv.settings.Holds write := by
  rw [Argv.settings, holds_foldl_iff]
  · exact .inr (List.mem_flatMap.mpr ⟨occurrence, hmem, hwrite⟩)
  · intro written hwritten
    obtain ⟨other, hother, hwritten⟩ := List.mem_flatMap.mp hwritten
    exact writes_eq_or_ne_of_distinct (distinct_reached hdistinct) hother hmem hwritten hwrite

/-- An option of the first order that sets something is reached in the second as well. -/
theorem reached_of_settings (hfirst : Distinct first.occurrences)
    (hsecond : Distinct second.occurrences)
    (hhandle : handleOpt env first = (one, true))
    (hlate : overwritesBootTrace first.reached = overwritesBootTrace second.reached)
    (hholds : ∀ write, first.settings.Holds write → second.settings.Holds write)
    {occurrence : Occurrence} (hreached : occurrence ∈ first.reached)
    (hmem : occurrence ∈ second.occurrences) :
    occurrence.Idle ∨ occurrence ∈ second.reached := by
  by_contra hneither
  obtain ⟨hactive, hunread⟩ := not_or.mp hneither
  obtain ⟨before, after, hfree, hparse⟩ := (parsed_settings hfirst hhandle).1.accepted
    (distinct_reached hfirst) (fun hne => absurd rfl hne) occurrence hreached
  have hdefault : ∀ write ∈ occurrence.writes (overwritesBootTrace first.reached),
      ({} : Globals).Holds write := by
    intro write hwrite
    have hshown := hholds write (holds_of_reached hfirst hreached hwrite)
    rw [hlate] at hwrite
    exact (reached_of_holds hsecond hmem hwrite hshown).resolve_right hunread
  exact hactive (idle_of_holds hfree hparse hdefault)

/-- Two orders that are both accepted mean the same exactly if the same is read of them. -/
theorem option_order_iff (hdistinct : Distinct first.occurrences)
    (hperm : first.occurrences.Perm second.occurrences) (htags : first.tags = second.tags)
    (hfirst : handleOpt env first = (one, true))
    (hsecond : handleOpt env second = (two, true)) :
    one = two ↔ ReadAlike first second := by
  have hother : Distinct second.occurrences :=
    hperm.pairwise hdistinct fun hpair =>
      ⟨hpair.1.symm, fun field hright hleft => hpair.2 hleft hright⟩
  have hone := (parsed_settings hdistinct hfirst).2
  have htwo := (parsed_settings hother hsecond).2
  constructor
  · intro hsame
    have hholds : ∀ write, first.settings.Holds write ↔ second.settings.Holds write := by
      intro write
      rw [← holds_meaning_iff hone, hsame, holds_meaning_iff htwo]
    have hlate : overwritesBootTrace first.reached = overwritesBootTrace second.reached := by
      rw [Bool.eq_iff_iff, ← holds_bootTraceOverwrite_iff, hholds, holds_bootTraceOverwrite_iff]
    refine ⟨fun occurrence hmem => ?_, hlate, ?_⟩
    · by_cases hidle : occurrence.Idle
      · exact .inl hidle
      · refine .inr ⟨fun hreached => ?_, fun hreached => ?_⟩
        · exact (reached_of_settings hdistinct hother hfirst hlate (fun write => (hholds write).mp)
            hreached (hperm.mem_iff.mp hmem)).resolve_left hidle
        · exact (reached_of_settings hother hdistinct hsecond hlate.symm
            (fun write => (hholds write).mpr) hreached hmem).resolve_left hidle
    · by_cases hnone : first.tags = []
      · exact .inl hnone
      · refine .inr ?_
        rw [← tagsVec_ne_iff hone hnone, hsame, tagsVec_ne_iff htwo (htags ▸ hnone)]
  · intro halike
    have hsettings : first.settings = second.settings := by
      rw [Argv.settings, Argv.settings, halike.overwrite,
        foldl_writes_active (distinct_reached hdistinct),
        foldl_writes_active (distinct_reached hother)]
      refine foldl_writes_perm ((distinct_reached hdistinct).sublist List.filter_sublist) ?_ {}
      refine (List.perm_ext_iff_of_nodup
        ((nodup_of_distinct (distinct_reached hdistinct)).filter _)
        ((nodup_of_distinct (distinct_reached hother)).filter _)).mpr fun occurrence => ?_
      rw [List.mem_filter, List.mem_filter, Bool.not_eq_true', decide_eq_false_iff_not]
      refine and_congr_left fun hactive => ?_
      by_cases hmem : occurrence ∈ first.occurrences
      · exact (halike.options occurrence hmem).resolve_left hactive
      · have hneither : occurrence ∉ second.occurrences := fun hin => hmem (hperm.mem_iff.mpr hin)
        exact iff_of_false (fun hin => hmem (List.mem_of_mem_take hin))
          fun hin => hneither (List.mem_of_mem_take hin)
    rw [hone, htwo, hsettings, ← htags]
    rcases halike.tags with hnone | hreaches
    · rw [hnone]
      simp only [Globals.tagged, ite_self]
    · simp only [hreaches]

end Orders

def rootEnvironment : Environment where
  isHmKernel := false
  isBootTraceEuidRoot := true
  isDirectory _ := false
  allTagInfos := [("sched".toList, { tag := 0, type := .kernel })]
  tagGroups := []

/-- `hitrace -zt5 --boot_trace --overwrite sched`. -/
def groupedFirst : Argv where
  options := [{ opt := .short .z },
    { opt := .short .t, optarg := "5".toList, joined := true, grouped := true },
    { opt := .long .bootTrace }, { opt := .long .overwrite }]
  tags := ["sched".toList]

/-- `hitrace --boot_trace -t 5 -z --overwrite sched`. -/
def groupedNowhere : Argv where
  options := [{ opt := .long .bootTrace }, { opt := .short .t, optarg := "5".toList },
    { opt := .short .z }, { opt := .long .overwrite }]
  tags := ["sched".toList]

theorem distinct_groupedFirst : Distinct groupedFirst.occurrences := by
  simp [Distinct, Argv.occurrences, groupedFirst, Opt.fields, LongOption.fields]

theorem perm_groupedNowhere : groupedFirst.occurrences.Perm groupedNowhere.occurrences := by
  decide

/-- Four options in three words and a tag: the count reaches everything. -/
theorem option_order_iff_grouped :
    (handleOpt rootEnvironment groupedFirst).1 =
      (handleOpt rootEnvironment groupedNowhere).1 := by
  have hfirst : handleOpt rootEnvironment groupedFirst =
      ((handleOpt rootEnvironment groupedFirst).1, true) := rfl
  have hsecond : handleOpt rootEnvironment groupedNowhere =
      ((handleOpt rootEnvironment groupedNowhere).1, true) := rfl
  exact (option_order_iff distinct_groupedFirst perm_groupedNowhere rfl hfirst hsecond).mpr
    ⟨by decide, by decide, by decide⟩

/-- `hitrace -zht5 --overwrite`: four options in two words, and the last one is not read. -/
def groupedShort : Argv where
  options := [{ opt := .short .z }, { opt := .short .h, grouped := true },
    { opt := .short .t, optarg := "5".toList, joined := true, grouped := true },
    { opt := .long .overwrite }]
  tags := []

example : (handleOpt rootEnvironment groupedShort).2 = true ∧
    (handleOpt rootEnvironment groupedShort).1.traceArgs.overwrite = true := by
  decide

def bootTraceFirst : Argv where
  options := [{ opt := .long .bootTrace }, { opt := .long .overwrite }]
  tags := ["sched".toList]

def overwriteFirst : Argv where
  options := [{ opt := .long .overwrite }, { opt := .long .bootTrace }]
  tags := ["sched".toList]

theorem distinct_bootTraceFirst : Distinct bootTraceFirst.occurrences := by
  simp [Distinct, Argv.occurrences, bootTraceFirst, Opt.fields, LongOption.fields]

/-- The order decides which of the two overwrite flags is set, and no order is refused. -/
theorem overwrite_depends_on_order :
    ¬ ∀ (first second : Argv) (one two : Globals), Distinct first.occurrences →
      first.occurrences.Perm second.occurrences → first.tags = second.tags →
        handleOpt rootEnvironment first = (one, true) →
          handleOpt rootEnvironment second = (two, true) → one = two := by
  intro hall
  have heq := hall bootTraceFirst overwriteFirst _ _ distinct_bootTraceFirst (.swap ..) rfl
    rfl rfl
  exact absurd heq (by decide)

end CommandLine

end Hitrace
