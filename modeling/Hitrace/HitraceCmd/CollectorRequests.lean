import Hitrace.HitraceCmd.Recording

namespace Hitrace

open CommandLine

/-! What the command line can make a command ask the collector for. -/

namespace Recording

/-! The arguments that are accepted. -/

def maxBufferSizeOf (env : Environment) : Int32 :=
  if env.isHmKernel then hmMaxBufferSize else maxBufferSize

/-- What the globals keep from one option to the next.  A tag of `--boot_trace` may be
`off`. -/
structure Bounded (env : Environment) (globals : Globals) : Prop where
  bufferSize : globals.traceArgs.bufferSize = 0 ∨
    (minBufferSize.toInt ≤ globals.traceArgs.bufferSize.toInt ∧
      globals.traceArgs.bufferSize.toInt ≤ (maxBufferSizeOf env).toInt ∧
      4 ∣ globals.traceArgs.bufferSize.toInt)
  fileSize : globals.traceArgs.fileSize = 0 ∨
    (minFileSize.toInt ≤ globals.traceArgs.fileSize.toInt ∧
      globals.traceArgs.fileSize.toInt ≤ maxFileSize.toInt)
  totalSize : globals.traceArgs.totalSize = 0 ∨
    (maxFileSize.toInt ≤ globals.traceArgs.totalSize ∧
      globals.traceArgs.totalSize ≤ maxTotalSize.toInt)
  clockType : globals.traceArgs.clockType = [] ∨ globals.traceArgs.clockType ∈ clockTypes
  tags : ∀ tag ∈ globals.traceArgs.tagsVec, (env.allTagInfos.lookup tag).isSome = true ∨
    globals.runningState = .configBootTrace
  named : globals.traceArgs.tags ≠ [] → globals.traceArgs.tagsVec ≠ []

section Options

variable {env : Environment} {globals next : Globals} {optarg : List Char}

theorem bounded_start : Bounded env {} where
  bufferSize := .inl rfl
  fileSize := .inl rfl
  totalSize := .inl rfl
  clockType := .inl rfl
  tags := nofun
  named := fun hnamed => absurd rfl hnamed

theorem Bounded.setRunningState (hbounded : Bounded env globals) {setValue : RunningState}
    (hset : setRunningState globals setValue = (next, true)) : Bounded env next := by
  unfold CommandLine.setRunningState at hset
  split at hset
  · next hnull =>
      cases hset
      refine { hbounded with tags := fun tag htag => .inl ?_ }
      exact (hbounded.tags tag htag).resolve_right (by rw [hnull]; decide)
  · cases hset

theorem Bounded.setBufferSize (hbounded : Bounded env globals)
    (hset : setBufferSize env globals optarg = (next, true)) : Bounded env next := by
  unfold CommandLine.setBufferSize at hset
  obtain ⟨rfl, hrange⟩ := Prod.mk.inj hset
  obtain ⟨hlow, hhigh⟩ := inRange_bounds hrange
  have hmin : minBufferSize.toInt = 256 := rfl
  refine { hbounded with bufferSize := .inr ?_ }
  dsimp only
  rw [toInt_pages (by omega), maxBufferSizeOf]
  have hpage : 4 ∣ (if env.isHmKernel = true then hmMaxBufferSize else maxBufferSize).toInt := by
    split <;> decide
  refine ⟨by omega, by omega, Int.dvd_mul_left _ _⟩

theorem Bounded.handleOptTraceclock (hbounded : Bounded env globals)
    (hset : handleOptTraceclock globals optarg = (next, true)) : Bounded env next := by
  unfold CommandLine.handleOptTraceclock at hset
  split at hset
  · next hclock =>
      cases hset
      exact { hbounded with clockType := .inr (List.contains_iff_mem.mp hclock) }
  · cases hset

theorem Bounded.handleOptTime (hbounded : Bounded env globals)
    (hset : handleOptTime globals optarg = (next, true)) : Bounded env next := by
  obtain ⟨rfl, _⟩ := Prod.mk.inj hset
  exact { hbounded with }

theorem Bounded.checkOutputFile (hbounded : Bounded env globals)
    (hset : checkOutputFile env globals optarg = (next, true)) : Bounded env next := by
  unfold CommandLine.checkOutputFile at hset
  split at hset
  · cases hset
  · cases hset
    exact { hbounded with }

theorem Bounded.handleOptOverwrite (hbounded : Bounded env globals)
    (hset : handleOptOverwrite globals = (next, true)) : Bounded env next := by
  unfold CommandLine.handleOptOverwrite at hset
  split at hset
  · cases hset
    exact { hbounded with }
  · cases hset
    exact { hbounded with }

/-- Neither of the states that `--record` is for is that of `--boot_trace`. -/
theorem Bounded.handleOptRecord (hbounded : Bounded env globals)
    (hset : handleOptRecord globals = (next, true)) : Bounded env next := by
  unfold CommandLine.handleOptRecord at hset
  split at hset
  · next hstate =>
      cases hset
      refine { hbounded with tags := fun tag htag => .inl ?_ }
      exact (hbounded.tags tag htag).resolve_right (by rw [hstate]; decide)
  split at hset
  · next hstate =>
      cases hset
      refine { hbounded with tags := fun tag htag => .inl ?_ }
      exact (hbounded.tags tag htag).resolve_right (by rw [hstate]; decide)
  · cases hset

theorem Bounded.handleOptFilesize (hbounded : Bounded env globals)
    (hset : handleOptFilesize globals optarg = (next, true)) : Bounded env next := by
  obtain ⟨rfl, hrange⟩ := Prod.mk.inj hset
  exact { hbounded with fileSize := .inr (inRange_bounds hrange) }

theorem Bounded.handleOptTotalsize (hbounded : Bounded env globals)
    (hset : handleOptTotalsize globals optarg = (next, true)) : Bounded env next := by
  obtain ⟨rfl, hrange⟩ := Prod.mk.inj hset
  exact { hbounded with totalSize := .inr (inRange_bounds hrange) }

theorem Bounded.handleOptTracelevel (hbounded : Bounded env globals) {setValue : RunningState}
    (hset : handleOptTracelevel globals optarg setValue = (next, true)) : Bounded env next := by
  unfold CommandLine.handleOptTracelevel at hset
  obtain ⟨rfl, hboth⟩ := Prod.mk.inj hset
  rw [Bool.and_eq_true] at hboth
  have hstate := @Bounded.setRunningState env globals _ hbounded setValue
    (Prod.ext rfl hboth.1 : CommandLine.setRunningState globals setValue = (_, true))
  unfold checkTraceLevel
  split
  · exact { hstate with }
  · exact hstate

theorem Bounded.handleOptBootTrace (hbounded : Bounded env globals) {setValue : RunningState}
    (hset : handleOptBootTrace env globals setValue = (next, true)) : Bounded env next := by
  unfold CommandLine.handleOptBootTrace at hset
  split at hset
  · exact hbounded.setRunningState hset
  · cases hset

theorem Bounded.handleOptRepeat (hbounded : Bounded env globals)
    (hset : handleOptRepeat globals optarg = (next, true)) : Bounded env next := by
  unfold CommandLine.handleOptRepeat at hset
  dsimp only at hset
  split at hset
  · cases hset
    exact { hbounded with }
  · cases hset

theorem Bounded.handleOptBootFilePrefix (hbounded : Bounded env globals)
    {setValue : RunningState}
    (hset : handleOptBootFilePrefix globals optarg setValue = (next, true)) :
    Bounded env next := by
  unfold CommandLine.handleOptBootFilePrefix at hset
  split at hset
  · cases hset
  · cases hset
    exact { hbounded with }

theorem Bounded.handleOptBootIncrement (hbounded : Bounded env globals)
    (hset : handleOptBootIncrement globals = (next, true)) : Bounded env next := by
  unfold CommandLine.handleOptBootIncrement at hset
  split at hset
  · cases hset
    exact { hbounded with }
  · cases hset

theorem Bounded.parseLongOpt (hbounded : Bounded env globals) {option : LongOption}
    (hset : parseLongOpt env globals optarg option = (next, true)) : Bounded env next := by
  cases option with
  | bufferSize => exact hbounded.setBufferSize hset
  | traceClock => exact hbounded.handleOptTraceclock hset
  | time => exact hbounded.handleOptTime hset
  | output => exact hbounded.checkOutputFile hset
  | overwrite => exact hbounded.handleOptOverwrite hset
  | record => exact hbounded.handleOptRecord hset
  | fileSize => exact hbounded.handleOptFilesize hset
  | totalSize => exact hbounded.handleOptTotalsize hset
  | traceLevel => exact hbounded.handleOptTracelevel hset
  | bootTrace => exact hbounded.handleOptBootTrace hset
  | repeatCount => exact hbounded.handleOptRepeat hset
  | filePrefix => exact hbounded.handleOptBootFilePrefix hset
  | increment => exact hbounded.handleOptBootIncrement hset
  | help => exact hbounded.setRunningState hset
  | listCategories => exact hbounded.setRunningState hset
  | traceBegin => exact hbounded.setRunningState hset
  | traceFinish => exact hbounded.setRunningState hset
  | traceFinishNodump => exact hbounded.setRunningState hset
  | traceDump => exact hbounded.setRunningState hset
  | startBgsrv => exact hbounded.setRunningState hset
  | dumpBgsrv => exact hbounded.setRunningState hset
  | stopBgsrv => exact hbounded.setRunningState hset
  | text => exact hbounded.setRunningState hset
  | raw => exact hbounded.setRunningState hset
  | getLevel => exact hbounded.setRunningState hset

theorem Bounded.parseOpt (hbounded : Bounded env globals) {opt : Opt}
    (hset : parseOpt env globals optarg opt = (next, true)) : Bounded env next := by
  cases opt with
  | short option =>
      cases option with
      | b => exact hbounded.setBufferSize hset
      | c =>
          cases hset
          exact hbounded
      | h => exact hbounded.setRunningState hset
      | l => exact hbounded.setRunningState hset
      | o => exact hbounded.checkOutputFile hset
      | t => exact hbounded.handleOptTime hset
      | z =>
          cases hset
          exact { hbounded with }
  | long option => exact hbounded.parseLongOpt hset
  | unknown => cases hset

theorem Bounded.addTag (hbounded : Bounded env globals) {first : Bool} {tag : List Char}
    (hset : addTag env first globals tag = (next, true)) : Bounded env next := by
  unfold CommandLine.addTag at hset
  split at hset
  · cases hset
  split at hset
  · cases hset
  · next hknown =>
      rw [Option.isNone_iff_eq_none, ← ne_eq, Option.ne_none_iff_isSome] at hknown
      cases first with
      | true =>
          cases hset
          refine { hbounded with tags := fun other hother => .inl ?_, named := fun _ => nofun }
          rw [List.mem_singleton.mp hother]
          exact hknown
      | false =>
          cases hset
          refine { hbounded with tags := fun other hother => ?_, named := fun _ => by simp }
          rcases List.mem_append.mp hother with hold | hnew
          · exact hbounded.tags other hold
          · rw [List.mem_singleton.mp hnew]
            exact .inl hknown

theorem Bounded.addTags {tags : List (List Char)} {first : Bool}
    (hbounded : Bounded env globals) (hset : addTags env first globals tags = (next, true)) :
    Bounded env next := by
  induction tags generalizing globals first with
  | nil =>
      cases hset
      exact hbounded
  | cons tag rest ih =>
      unfold CommandLine.addTags at hset
      cases hadd : CommandLine.addTag env first globals tag with
      | mk added success =>
          rw [hadd] at hset
          cases success with
          | true => exact ih (hbounded.addTag hadd) hset
          | false => cases hset

theorem Bounded.addTagItems {tags : List (List Char)} (hbounded : Bounded env globals)
    (hset : addTagItems env globals tags = (next, true)) : Bounded env next := by
  unfold CommandLine.addTagItems at hset
  split at hset
  · next hoff =>
      cases hset
      exact { hbounded with
        tags := fun _ _ => .inr hoff.1, named := fun hnamed => absurd rfl hnamed }
  · exact hbounded.addTags hset

theorem bounded_of_loop {tags : List (List Char)} {argcSize : Nat} {options : List Occurrence}
    (hbounded : Bounded env globals)
    (hset : handleOptLoop env tags argcSize globals options = (next, true)) :
    Bounded env next := by
  induction argcSize generalizing globals options with
  | zero =>
      unfold handleOptLoop at hset
      cases hset
      exact hbounded
  | succ argcSize ih =>
      cases options with
      | nil =>
          unfold handleOptLoop at hset
          cases hadd : CommandLine.addTagItems env globals tags with
          | mk added success =>
              rw [hadd] at hset
              cases success with
              | true => exact ih (hbounded.addTagItems hadd) hset
              | false => cases hset
      | cons occurrence rest =>
          unfold handleOptLoop at hset
          cases hparse : CommandLine.parseOpt env globals occurrence.optarg occurrence.opt with
          | mk parsed success =>
              rw [hparse] at hset
              cases success with
              | true => exact ih (hbounded.parseOpt hparse) hset
              | false => cases hset

end Options

/-! The requests. -/

/-- A request to open a trace that is in its bounds. -/
structure Requested (env : Environment) (globals : Globals) (tags : List (List Char))
    (param : TraceParam) : Prop where
  known : (globals.runningState = .snapshotStart ∧ tags = snapshotTags) ∨
    ∀ tag ∈ tags, (env.allTagInfos.lookup tag).isSome = true
  bufferSize : (param.bufferSize = 0 ∧ (globals.runningState = .snapshotStart ∨ tags = [])) ∨
    (tags ≠ [] ∧ 256 ≤ param.bufferSize.toNat ∧
      param.bufferSize.toNat ≤ (if env.isHmKernel then 1048576 else 307200) ∧
      4 ∣ param.bufferSize.toNat)
  clockType : param.clockType ∈ clockTypes
  fileSizeLimit : param.fileSizeLimit = 0 ∨
    (51200 ≤ param.fileSizeLimit.toNat ∧ param.fileSizeLimit.toNat ≤ 512000 ∧
      (globals.runningState = .snapshotStart ∨ limitsFileSize globals.runningState = true))
  totalSize : param.totalSize = 0 ∨
    (512000 ≤ param.totalSize.toNat ∧ param.totalSize.toNat ≤ 5120000 ∧
      globals.runningState = .recordingLongBeginRecord ∧
      isWritableDir globals.traceArgs.output = true)

section Requests

variable {env : Environment} {globals : Globals}

theorem toNat_toUInt32 {size : Int32} (hsize : 0 ≤ size.toInt) :
    (size.toUInt32.toNat : Int) = size.toInt := by
  have hbits : size.toInt = size.toBitVec.toInt := rfl
  rw [hbits, BitVec.toInt_eq_toNat_cond] at hsize ⊢
  split at hsize
  · next hlow => rw [if_pos hlow]; rfl
  · have hword := size.toBitVec.isLt
    omega

theorem requested_reload (hbounded : Bounded env globals)
    (hstate : globals.runningState ≠ .configBootTrace)
    (hwritable : globals.traceArgs.totalSize ≠ 0 →
      isWritableDir globals.traceArgs.output = true) :
    Requested env globals (reloadTraceArgs globals).2.1 (reloadTraceArgs globals).2.2 := by
  unfold reloadTraceArgs
  dsimp only
  split
  · exact ⟨.inr nofun, .inl ⟨rfl, .inr rfl⟩, by decide, .inl rfl, .inl rfl⟩
  · next hnamed =>
    refine ⟨.inr fun tag htag => (hbounded.tags tag htag).resolve_right hstate,
      .inr ⟨hbounded.named hnamed, ?_⟩, ?_, ?_, ?_⟩
    · dsimp only
      have hdefault : (defaultBufferSize.toNat : Int) = 18432 := rfl
      have hlow : minBufferSize.toInt = 256 := rfl
      have hhigh : (maxBufferSizeOf env).toInt = if env.isHmKernel then 1048576 else 307200 := by
        rw [maxBufferSizeOf]
        split <;> rfl
      split
      · next hpositive =>
          rcases hbounded.bufferSize with hzero | ⟨hmin, hmax, hpage⟩
          · rw [hzero] at hpositive
            exact absurd hpositive (by decide)
          · have hword := @toNat_toUInt32 globals.traceArgs.bufferSize (by omega)
            rw [hhigh] at hmax
            refine ⟨by omega, ?_, by omega⟩
            split
            · next hkernel =>
                rw [if_pos hkernel] at hmax
                omega
            · next hkernel =>
                rw [if_neg hkernel] at hmax
                omega
      · split <;> decide
    · dsimp only
      split
      · decide
      · next hclock => exact hbounded.clockType.resolve_left hclock
    · dsimp only
      split
      · next hlimit =>
          rcases hbounded.fileSize with hzero | ⟨hmin, hmax⟩
          · rw [hzero] at hlimit
            exact absurd hlimit.1 (by decide)
          · have hlow : minFileSize.toInt = 51200 := rfl
            have hhigh : maxFileSize.toInt = 512000 := rfl
            have hword := @toNat_toUInt32 globals.traceArgs.fileSize (by omega)
            exact .inr ⟨by omega, by omega, .inr hlimit.2⟩
      · exact .inl rfl
    · dsimp only
      split
      · next htotal =>
          rcases hbounded.totalSize with hzero | ⟨hmin, hmax⟩
          · omega
          · have hlow : maxFileSize.toInt = 512000 := rfl
            have hhigh : maxTotalSize.toInt = 5120000 := rfl
            have hword : (UInt64.ofInt globals.traceArgs.totalSize).toNat =
                (globals.traceArgs.totalSize % 2 ^ 64).toNat % 2 ^ 64 := rfl
            exact .inr ⟨by omega, by omega, htotal.2, hwritable (by omega)⟩
      · exact .inl rfl

theorem Script.opening_of_mem {success opened : Bool} {calls : List (CollectorCall × Bool)}
    {tags : List (List Char)} {param : TraceParam} (hscript : Script globals success calls)
    (hcall : (.openTrace tags param, opened) ∈ calls) :
    opening globals = .openTrace tags param ∧ begins globals.runningState = true := by
  have hopens : opens globals.runningState = true → begins globals.runningState = true := by
    cases globals.runningState <;> decide
  cases hscript with
  | silent _ => cases hcall
  | refused hbegins => simp_all
  | began hstate => simp_all
  | beganRecord outputPath hstate => simp_all
  | notStarted outputPath closed hbegins => simp_all
  | notStopped outputPath closed hbegins => simp_all
  | recorded outputPath closed hbegins _ => simp_all
  | text closed hbegins _ => simp_all
  | finished closed _ => simp at hcall
  | finishedRecord closed _ => simp at hcall
  | unfinishedRecord => simp at hcall
  | dumped outputPath success _ => simp at hcall
  | closed success _ => simp at hcall

theorem bounded_of_init {invocation : Invocation}
    (hinit : initAndCheckArgs invocation = .ok globals) :
    Bounded invocation.env globals ∧ (globals.traceArgs.totalSize ≠ 0 →
      isWritableDir globals.traceArgs.output = true) := by
  unfold initAndCheckArgs at hinit
  dsimp only at hinit
  split at hinit
  · cases hinit
  split at hinit
  · cases hinit
  split at hinit
  · cases hinit
  split at hinit
  · cases hinit
  split at hinit
  · cases hinit
  next haccepted =>
    split at hinit
    · cases hinit
    next htotal =>
      have hparsed : handleOpt invocation.env invocation.argv =
          ((handleOpt invocation.env invocation.argv).1, true) :=
        Prod.ext rfl (by simpa using haccepted)
      have hbounded := bounded_of_loop bounded_start hparsed
      have hwritable : (handleOpt invocation.env invocation.argv).1.traceArgs.totalSize ≠ 0 →
          isWritableDir (handleOpt invocation.env invocation.argv).1.traceArgs.output =
            true := by
        simpa using htotal
      split at hinit
      · next hnull =>
          cases hinit
          refine ⟨{ hbounded with tags := fun tag htag => .inl ?_ }, hwritable⟩
          exact (hbounded.tags tag htag).resolve_right (by rw [hnull]; decide)
      · cases hinit
        exact ⟨hbounded, hwritable⟩

end Requests

theorem call_mem_of_main {σ : Type} {collector : Collector σ} {invocation : Invocation}
    {start : σ} {call : CollectorCall × Bool}
    (hcall : call ∈ (main collector invocation start).1.calls) :
    call ∈ (runTask collector invocation start).1.calls := by
  rcases main_cases collector invocation start with heq | ⟨hcalls, _⟩ | ⟨_, _, hbegin⟩
  · rwa [heq] at hcall
  · rw [hcalls] at hcall
    cases hcall
  · exact hbegin.subset hcall

/-- Whatever the words of the command and the answers of the system, a request for a trace
has known tags and sizes in their bounds, and the limits of files come only from the
commands that write them. -/
theorem requests_bounded {σ : Type} (collector : Collector σ) (invocation : Invocation)
    (start : σ) (tags : List (List Char)) (param : TraceParam) (opened : Bool)
    (hcall : (.openTrace tags param, opened) ∈ (main collector invocation start).1.calls) :
    ∃ globals, initAndCheckArgs invocation = .ok globals ∧
      Requested invocation.env globals tags param := by
  have htask := call_mem_of_main hcall
  rcases runTask_cases collector invocation start with ⟨_, _, _, hcalls⟩ |
    ⟨globals, _, hinit, _, _, hscript⟩
  · rw [hcalls] at htask
    cases htask
  · refine ⟨globals, hinit, ?_⟩
    obtain ⟨hopening, hbegins⟩ := hscript.opening_of_mem htask
    obtain ⟨hbounded, hwritable⟩ := bounded_of_init hinit
    rw [opening] at hopening
    split at hopening
    · next hstate =>
        cases hopening
        exact ⟨.inl ⟨hstate, rfl⟩, .inl ⟨rfl, .inl hstate⟩, by decide,
          .inr ⟨by decide, by decide, .inl hstate⟩, .inl rfl⟩
    · cases hopening
      refine requested_reload hbounded ?_ hwritable
      intro hstate
      rw [hstate] at hbegins
      cases hbegins

/-- A collector that never fails. -/
def willing : Collector Unit := fun _ _ => ({}, ())

/-- `hitrace --trace_begin --record -zb 1023 --file_size 51200 sched`. -/
def recordSched : Invocation where
  argv := {
    options := [{ opt := .long .traceBegin }, { opt := .long .record }, { opt := .short .z },
      { opt := .short .b, optarg := "1023".toList, grouped := true },
      { opt := .long .fileSize, optarg := "51200".toList }]
    tags := ["sched".toList] }
  env := {
    isHmKernel := false
    isBootTraceEuidRoot := false
    isDirectory := fun _ => false
    allTagInfos := [("sched".toList, { tag := 4096, type := .kernel })]
    tagGroups := [] }
  host := { traceRootPath := "/sys/kernel/tracing/".toList }

theorem requests_bounded_record :
    let param : TraceParam := { bufferSize := 1020, fileSizeLimit := 51200 }
    (.openTrace ["sched".toList] param, true) ∈ (main willing recordSched ()).1.calls ∧
      ∃ globals, initAndCheckArgs recordSched = .ok globals ∧
        Requested recordSched.env globals ["sched".toList] param := by
  intro param
  have hcall : (.openTrace ["sched".toList] param, true) ∈
      (main willing recordSched ()).1.calls := by decide
  exact ⟨hcall, requests_bounded willing recordSched () _ param true hcall⟩

end Recording

end Hitrace
