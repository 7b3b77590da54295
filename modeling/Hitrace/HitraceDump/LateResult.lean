import Hitrace.HitraceDump.Coverage
import Hitrace.HitraceDump.OverflowFlag

namespace Hitrace

/-! An asynchronous dump is answered by the call itself, or later by
`WaitAsyncDumpRetLoop` from the copy that the call has stored. -/

/-- What `HandleDumpTraceAsyncTask` does with its answer: it enters
`g_traceRetInfos`, or it goes to the callback. -/
inductive AsyncAnswer
  | stored (ret : LoadedRetInfo)
  | replied (ret : LoadedRetInfo)
deriving Repr, DecidableEq

namespace CallSide

variable (side : CallSide) (trace : TraceGlobals)

/-- `submitted` is what `ProcessDumpAsync` comes to: an error before there is a reply to
wait for, no reply in time, or a reply. -/
def processDumpAsync (submitted : Except TraceErrorCode (Option TraceDumpTask))
    (ret : TraceRetInfo) : TraceErrorCode × TraceRetInfo :=
  match submitted with
  | .error code => (code, ret)
  | .ok none =>
      (.traceTaskDumpTimeout,
        (handleAsyncDumpResult side.environment side.cacheFiles
          { code := .traceTaskDumpTimeout } side.globals ret).2)
  | .ok (some reply) =>
      let ret := (submitTaskAndWaitReturn side.environment side.cacheFiles reply
        side.globals ret).2
      if reply.status = .writeDone ∨ reply.status = .finish then (ret.errorCode, ret)
      else if reply.code ≠ .traceTaskDumpTimeout then (.asyncDump, ret)
      else (.traceTaskDumpTimeout, ret)

def handleDumpTraceAsyncTask
    (submitted : Except TraceErrorCode (Option TraceDumpTask)) : AsyncAnswer :=
  let ret : LoadedRetInfo := { mode := trace.traceMode }
  let (code, found) := side.processDumpAsync submitted ret.toTraceRetInfo
  let ret := { ret with toTraceRetInfo := { found with errorCode := code } }
  if code = .asyncDump then .stored { ret with errorCode := .success }
  else
    .replied (ret.loadDumpRet trace side.globals.committedDuration).sanitizeRetInfo

/-- What the loop hands to the callback. -/
def lateAnswer (task : TraceDumpTask) (stored : LoadedRetInfo) : LoadedRetInfo :=
  { stored with
    toTraceRetInfo := waitAsyncDumpRet side.later task stored.toTraceRetInfo }

/-- What the files found add to the covered duration. -/
def foundDuration : Int32 :=
  let found := getTraceFileFromVec side.environment side.globals.utDestTraceStartTime
    side.globals.utDestTraceEndTime
  (found side.globals.traceFileVec).1 + (found side.cacheFiles).1

/-- The committed length in seconds, as `LoadDumpRet` uses it. -/
def committedLength : Int32 :=
  if side.globals.committedDuration ≤ 0 then defaultFullTraceLength
  else side.globals.committedDuration

end CallSide

/-- What the file of the task adds to the covered duration. -/
def TraceDumpTask.ownDuration (task : TraceDumpTask) : Int32 :=
  if task.code = .success then
    toInt32 (task.traceEndTime / msToNs - task.traceStartTime / msToNs)
  else 0

/-- Two answers that tell the same, within the limits. -/
structure SameInformation (late immediate : LoadedRetInfo) : Prop where
  mode : late.mode = immediate.mode
  tags : late.tags = immediate.tags
  coverDuration : late.coverDuration = immediate.coverDuration
  durationBounds : 0 ≤ late.coverDuration ∧ late.coverDuration ≤ 30000
  coverRatio : late.coverRatio = immediate.coverRatio
  ratioBounds : 0 ≤ late.coverRatio ∧ late.coverRatio ≤ 1000
  errorCode : late.errorCode = immediate.errorCode

namespace CallSide

variable (side : CallSide) (trace : TraceGlobals)

/-- The answer stored at the first reply and handed out at the last one tells the same
as the one that a call gets to which the last reply comes in time. -/
def LateAgrees (first last : TraceDumpTask) : Prop :=
  ∃ stored answer,
    side.handleDumpTraceAsyncTask trace (.ok (some first)) = .stored stored ∧
      side.handleDumpTraceAsyncTask trace (.ok (some last)) = .replied answer ∧
      SameInformation (side.lateAnswer last stored) answer

/-- `LoadDumpRet` and `SanitizeRetInfo` would change nothing, and the last reply brings
nothing new. -/
structure NothingToLoad (first last : TraceDumpTask) : Prop where
  tagGroups : trace.currentTraceParams.tagGroups = []
  tags : trace.currentTraceParams.tags = []
  sameDuration : first.ownDuration = last.ownDuration
  nonnegative : 0 ≤ side.foundDuration + last.ownDuration
  short : side.foundDuration + last.ownDuration < side.committedLength
  code : last.code = .success ∨
    side.globals.targetFiles side.environment side.cacheFiles ≠ []

variable {side trace} {first last task : TraceDumpTask}

/-! What the call finds out from a reply. -/

theorem searched_coverDuration (globals : DumpGlobals)
    (hstart : globals.utDestTraceStartTime = side.globals.utDestTraceStartTime)
    (hend : globals.utDestTraceEndTime = side.globals.utDestTraceEndTime)
    (hvec : globals.traceFileVec = side.globals.traceFileVec) :
    let searched := (searchTraceFiles side.environment side.cacheFiles globals {}).2
    searched.coverDuration = side.foundDuration ∧
      searched.outputFiles.length =
        (side.globals.targetFiles side.environment side.cacheFiles).length := by
  obtain ⟨_, _, hduration, houtput⟩ := returnTargetFiles_ret side.environment
    (side.globals.targetFiles side.environment side.cacheFiles)
    side.globals.traceFileVec {}
  dsimp only
  rw [searchTraceFiles, hstart, hend, hvec]
  refine ⟨?_, houtput.trans (Nat.zero_add _)⟩
  have hzero : (0 : Int32) + side.foundDuration = side.foundDuration :=
    Int32.zero_add _
  exact (congrArg (· + side.foundDuration) hduration).trans hzero

theorem submitTaskAndWaitReturn_answer (side : CallSide) (task : TraceDumpTask) :
    let answer := (submitTaskAndWaitReturn side.environment side.cacheFiles task
      side.globals {}).2
    answer.coverDuration = side.foundDuration + task.ownDuration ∧
      answer.errorCode =
        if task.code = .success ∨
            side.globals.targetFiles side.environment side.cacheFiles ≠ [] then .success
        else task.code := by
  obtain ⟨hduration, houtput⟩ :=
    searched_coverDuration (side.globals.waitSyncDumpRet task) rfl rfl rfl
  dsimp only at hduration houtput ⊢
  rw [submitTaskAndWaitReturn, handleAsyncDumpResult]
  generalize hresult : searchTraceFiles side.environment side.cacheFiles
    (side.globals.waitSyncDumpRet task) {} = result at hduration houtput
  have hrange : result.1.range = ⟨task.traceStartTime, task.traceEndTime⟩ := by
    rw [← hresult]
    rfl
  obtain ⟨globals, found⟩ := result
  dsimp only at hduration houtput hrange ⊢
  by_cases hcode : task.code = .success
  · rw [if_pos hcode, hrange, FileEnvironment.setFileInfo_missing]
    simp only [recordFile, hduration, TraceDumpTask.ownDuration, hcode, true_or, if_true,
      FileEnvironment.convertPageTraceTimeToUtTimeMs_sub, and_self]
  · rw [if_neg hcode]
    simp only [TraceDumpTask.ownDuration, hcode, if_false, false_or, hduration,
      Int32.add_zero, true_and]
    cases htarget : side.globals.targetFiles side.environment side.cacheFiles with
    | nil =>
        rw [htarget] at houtput
        rw [List.eq_nil_of_length_eq_zero houtput]
        rfl
    | cons file rest =>
        rw [htarget] at houtput
        cases hfiles : found.outputFiles with
        | nil =>
            rw [hfiles] at houtput
            cases houtput
        | cons name names => rfl

/-- The answer of the call, as the reply leaves it. -/
def found (side : CallSide) (trace : TraceGlobals) (task : TraceDumpTask) :
    LoadedRetInfo where
  toTraceRetInfo := (submitTaskAndWaitReturn side.environment side.cacheFiles task
    side.globals {}).2
  mode := trace.traceMode

/-- The copy is stored before the tags, the ratio and the limits are seen to. -/
theorem handleDumpTraceAsyncTask_first
    (hopen : first.status ≠ .writeDone ∧ first.status ≠ .finish)
    (hcode : first.code ≠ .traceTaskDumpTimeout) :
    side.handleDumpTraceAsyncTask trace (.ok (some first)) =
      .stored { side.found trace first with errorCode := .success } := by
  have hunfinished : ¬ (first.status = .writeDone ∨ first.status = .finish) :=
    fun hfinished => hfinished.elim hopen.1 hopen.2
  rw [handleDumpTraceAsyncTask, processDumpAsync]
  simp only [hunfinished, if_false, hcode, ne_eq, not_false_eq_true, if_true]
  rfl

theorem handleDumpTraceAsyncTask_last (hdone : last.status = .writeDone)
    (hcode : (side.found trace last).errorCode ≠ .asyncDump) :
    side.handleDumpTraceAsyncTask trace (.ok (some last)) =
      .replied ((side.found trace last).loadDumpRet trace
        side.globals.committedDuration).sanitizeRetInfo := by
  have hreturned : (submitTaskAndWaitReturn side.environment side.cacheFiles last
    side.globals {}).2.errorCode ≠ .asyncDump := hcode
  rw [handleDumpTraceAsyncTask, processDumpAsync]
  simp only [hdone, true_or, if_true]
  rw [if_neg hreturned]
  rfl

theorem handleDumpTraceAsyncTask_kept (hdone : last.status = .writeDone)
    {answer : LoadedRetInfo}
    (hreplied : side.handleDumpTraceAsyncTask trace (.ok (some last)) =
      .replied answer) :
    (side.found trace last).errorCode ≠ .asyncDump := by
  intro hcode
  have hreturned : (submitTaskAndWaitReturn side.environment side.cacheFiles last
    side.globals {}).2.errorCode = .asyncDump := hcode
  rw [handleDumpTraceAsyncTask, processDumpAsync] at hreplied
  simp only [hdone, true_or, if_true] at hreplied
  rw [if_pos hreturned] at hreplied
  cases hreplied

theorem committedLength_bounds (side : CallSide) :
    1 ≤ side.committedLength.toInt ∧ side.committedLength.toInt ≤ 30 := by
  apply committedDuration_bounds
  rw [DumpGlobals.committedDuration, Int32.le_iff_toInt_le, toInt_min]
  exact Int.min_le_left _ _

/-- A duration keeps its value and has no ratio only where it is shorter than a
thousandth of the committed length. -/
theorem unloaded_iff (duration other : Int32) {length : Int32}
    (hlow : 1 ≤ length.toInt) (hhigh : length.toInt ≤ 30) :
    (other = min duration (defaultFullTraceLength * 1000) ∧ 0 ≤ other ∧
        0 = min (duration / length) maxRatioUnit) ↔
      other = duration ∧ 0 ≤ duration ∧ duration < length := by
  have hlength : length ≠ -1 := by
    rintro rfl
    exact absurd hlow (by decide)
  have hfull : (defaultFullTraceLength * 1000).toInt = 30000 := rfl
  have hunit : maxRatioUnit.toInt = 1000 := rfl
  have hzero : (0 : Int32).toInt = 0 := rfl
  simp only [← Int32.toInt_inj, Int32.le_iff_toInt_le, Int32.lt_iff_toInt_lt, toInt_min,
    hfull, hunit, hzero, Int32.toInt_div_of_ne_right _ _ hlength]
  have hshort : 0 ≤ duration.toInt →
      (duration.toInt.tdiv length.toInt = 0 ↔ duration.toInt < length.toInt) := by
    intro hnonnegative
    rw [Int.tdiv_eq_ediv_of_nonneg hnonnegative]
    constructor
    · intro hquotient
      have hdivides := Int.emod_add_mul_ediv duration.toInt length.toInt
      have hremainder := Int.emod_lt_of_pos duration.toInt (by omega : 0 < length.toInt)
      rw [hquotient, Int.mul_zero] at hdivides
      omega
    · intro hless
      exact Int.ediv_eq_zero_of_lt hnonnegative hless
  constructor
  · rintro ⟨hother, hnonnegative, hratio⟩
    have hless := (hshort (by omega)).mp (by omega)
    omega
  · rintro ⟨hother, hnonnegative, hless⟩
    have hquotient := (hshort hnonnegative).mpr hless
    omega

theorem sameInformation_iff (first last : TraceDumpTask) :
    SameInformation
        (side.lateAnswer last { side.found trace first with errorCode := .success })
        ((side.found trace last).loadDumpRet trace
          side.globals.committedDuration).sanitizeRetInfo ↔
      side.NothingToLoad trace first last := by
  obtain ⟨hfirst, _⟩ := submitTaskAndWaitReturn_answer side first
  obtain ⟨hlast, herror⟩ := submitTaskAndWaitReturn_answer side last
  obtain ⟨hlow, hhigh⟩ := side.committedLength_bounds
  have hunloaded := unloaded_iff (side.foundDuration + last.ownDuration)
    (side.foundDuration + first.ownDuration) hlow hhigh
  rw [← hfirst, ← hlast] at hunloaded
  constructor
  · intro hsame
    have htags : ([] : List (List Char)) = [] ++ trace.currentTraceParams.tagGroups ++
      trace.currentTraceParams.tags := hsame.tags
    obtain ⟨hgroups, htags⟩ := List.append_eq_nil_iff.mp htags.symm
    obtain ⟨hdurations, hnonnegative, hshort⟩ :=
      hunloaded.mp ⟨hsame.coverDuration, hsame.durationBounds.1, hsame.coverRatio⟩
    rw [hfirst, hlast] at hdurations
    rw [hlast] at hnonnegative hshort
    refine ⟨hgroups, htags, (Int32.add_right_inj _).mp hdurations, hnonnegative, hshort,
      ?_⟩
    by_contra hfailed
    have hcode : TraceErrorCode.success = last.code := by
      rw [if_neg hfailed] at herror
      exact hsame.errorCode.trans herror
    exact hfailed (.inl hcode.symm)
  · intro hnothing
    have hdurations : side.foundDuration + first.ownDuration =
        side.foundDuration + last.ownDuration := by rw [hnothing.sameDuration]
    have hnonnegative := hnothing.nonnegative
    have hshort := hnothing.short
    rw [← hfirst, ← hlast] at hdurations
    rw [← hlast] at hnonnegative hshort
    obtain ⟨hduration, hfirstBound, hratio⟩ :=
      hunloaded.mpr ⟨hdurations, hnonnegative, hshort⟩
    refine ⟨rfl, ?_, hduration, ⟨hfirstBound, ?_⟩, hratio,
      show (0 : Int32) ≤ 0 ∧ (0 : Int32) ≤ 1000 by decide, ?_⟩
    · show [] = [] ++ trace.currentTraceParams.tagGroups ++ trace.currentTraceParams.tags
      rw [hnothing.tagGroups, hnothing.tags]
      rfl
    · have hlimit : (30000 : Int32).toInt = 30000 := rfl
      rw [hdurations] at hfirstBound
      show (submitTaskAndWaitReturn side.environment side.cacheFiles first side.globals
        {}).2.coverDuration ≤ 30000
      rw [hdurations, Int32.le_iff_toInt_le, hlimit]
      rw [Int32.lt_iff_toInt_lt] at hshort
      omega
    · rw [if_pos hnothing.code] at herror
      exact herror.symm

/-- The late answer tells the same only where there is nothing to load. -/
theorem late_agrees_iff (hopen : first.status ≠ .writeDone ∧ first.status ≠ .finish)
    (hcode : first.code ≠ .traceTaskDumpTimeout) (hdone : last.status = .writeDone) :
    side.LateAgrees trace first last ↔ side.NothingToLoad trace first last := by
  have hstored := @handleDumpTraceAsyncTask_first side trace first hopen hcode
  constructor
  · rintro ⟨stored, answer, hlate, hreplied, hsame⟩
    have hreturned := handleDumpTraceAsyncTask_kept hdone hreplied
    rw [handleDumpTraceAsyncTask_last hdone hreturned] at hreplied
    rw [hstored] at hlate
    cases hlate
    cases hreplied
    exact (sameInformation_iff first last).mp hsame
  · intro hnothing
    have hreturned : (side.found trace last).errorCode ≠ .asyncDump := by
      have herror := (submitTaskAndWaitReturn_answer side last).2
      rw [if_pos hnothing.code] at herror
      show (submitTaskAndWaitReturn side.environment side.cacheFiles last side.globals
        {}).2.errorCode ≠ .asyncDump
      rw [herror]
      decide
    exact ⟨_, _, hstored, handleDumpTraceAsyncTask_last hdone hreturned,
      (sameInformation_iff first last).mpr hnothing⟩

/-- A finished task, in either of the states of which its replies tell. -/
def slowTask (duration : UInt64) (status : TraceDumpStatus) : TraceDumpTask where
  time := 1
  traceStartTime := 1000000000
  traceEndTime := 1000000000 + duration
  status
  code := .success

theorem late_agrees_iff_short :
    TraceDumpExecutor.emptySide.LateAgrees {} (slowTask 7000000 .readDone)
      (slowTask 7000000 .writeDone) :=
  (late_agrees_iff (by decide) (by decide) rfl).mpr
    ⟨rfl, rfl, rfl, by decide, by decide, .inl rfl⟩

theorem late_answer_has_no_tags :
    ¬ TraceDumpExecutor.emptySide.LateAgrees
      { currentTraceParams := { tags := ["sched".toList] } }
      (slowTask 5000000000 .readDone) (slowTask 5000000000 .writeDone) := by
  rintro ⟨stored, answer, hstored, hreplied, hsame⟩
  cases hstored
  cases hreplied
  exact absurd hsame.tags (by decide)

end CallSide

end Hitrace
