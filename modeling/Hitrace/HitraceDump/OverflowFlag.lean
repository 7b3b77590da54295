import Hitrace.HitraceDump.DumpResult

namespace Hitrace

open Library CpuRaw

namespace TraceDumpExecutor

/-! What the two workers find out about the size of a task's file, and what
becomes of it. -/

/-- Two records of one task, with one limit and one flag. -/
structure SameLimit (first second : TraceDumpTask) : Prop where
  time : first.time = second.time
  fileSizeLimit : first.fileSizeLimit = second.fileSizeLimit
  isFileSizeOverLimit : first.isFileSizeOverLimit = second.isFileSizeOverLimit

/-- The entry keeps its own limit and its own flag, whatever the copy holds. -/
theorem inherited_sameLimit : Inherited SameLimit := by
  refine ⟨fun _ => ⟨rfl, rfl, rfl⟩, ?_, fun _ _ => ⟨rfl, rfl, rfl⟩, ?_, ?_⟩
  · intro task next hupdate
    obtain ⟨_, _, _, rfl⟩ := hupdate.fields
    exact ⟨rfl, rfl, rfl⟩
  · intro ret copy entry _
    exact .inr ⟨rfl, rfl, rfl⟩
  · intro ret fileSize copy entry _
    exact .inr ⟨rfl, rfl, rfl⟩

theorem SameLimit.trans {first second third : TraceDumpTask}
    (hfirst : SameLimit first second) (hsecond : SameLimit second third) :
    SameLimit first third :=
  ⟨hfirst.time.trans hsecond.time,
    hfirst.fileSizeLimit.trans hsecond.fileSizeLimit,
    hfirst.isFileSizeOverLimit.trans hsecond.isFileSizeOverLimit⟩

/-- The tasks of a run, as they came from the parent. -/
def submissions (start : TraceDumpExecutor) (labels : List Label) :
    List TraceDumpTask :=
  start.traceDumpTaskVec ++ labels.filterMap fun label =>
    match label with
    | .processNewTask task => some task
    | _ => none

theorem submissions_concat (start : TraceDumpExecutor) (labels : List Label)
    (label : Label) {task : TraceDumpTask} :
    task ∈ submissions start (labels ++ [label]) ↔
      task ∈ submissions start labels ∨ label = .processNewTask task := by
  cases label with
  | processNewTask other =>
      simp only [submissions, List.filterMap_append, List.mem_append]
      simp [or_assoc, eq_comm]
  | monitorPass environment => simp [submissions, List.filterMap_append]
  | readerTake => simp [submissions, List.filterMap_append]
  | readerUpdate rootPathEmpty source traceFile =>
      simp [submissions, List.filterMap_append]
  | writerTake => simp [submissions, List.filterMap_append]
  | writerUpdate rootPathEmpty contents environment fileSize =>
      simp [submissions, List.filterMap_append]

/-- Every record goes back to a submission, with its limit and its flag. -/
theorem carries_submitted {isHm : Bool} {start final : TraceDumpExecutor}
    {labels : List Label} (hinit : (traceDumpExecutor isHm).init start)
    (hrun : (traceDumpExecutor isHm).run start labels = some final) :
    ∀ task, final.Carries task →
      ∃ submitted ∈ submissions start labels, SameLimit submitted task := by
  refine (traceDumpExecutor isHm).run_induction
    (motive := fun labels state => ∀ task, state.Carries task →
      ∃ submitted ∈ submissions start labels, SameLimit submitted task) ?_ ?_ hrun
  · intro task hcarries
    refine ⟨task, ?_, inherited_sameLimit.refl task⟩
    exact List.mem_append_left _ (queued_of_init hinit hcarries)
  · intro labels state label next _ hstate hstep task hcarries
    rcases inherited_sameLimit.carries_step hstep hcarries with
      ⟨old, hold, hsame⟩ | ⟨hlabel, _⟩
    · obtain ⟨submitted, hmem, hsubmitted⟩ := hstate old hold
      refine ⟨submitted, (submissions_concat ..).mpr (.inl hmem), ?_⟩
      exact hsubmitted.trans hsame
    · exact ⟨task, (submissions_concat ..).mpr (.inr hlabel),
        inherited_sameLimit.refl task⟩

/-- What `DoReadRawTrace` or `DoWriteRawTrace` makes of its own copy in a step. -/
inductive Works (isHm : Bool) (executor : TraceDumpExecutor) :
    Label → TraceDumpTask → Prop
  | read {copy : TraceDumpTask} (hreader : executor.reader = some copy)
      {source : RawSource} (hkernel : source.isHm = isHm) (traceFile : List Char) :
      Works isHm executor (.readerUpdate false source traceFile)
        (doReadRawTrace (asyncTraceRead source traceFile (readRequest copy)
          executor.taskBuffers).1 copy)
  | write {copy : TraceDumpTask} (hwriter : executor.writer = some copy)
      (contents : TraceContents) (environment : TraceIo) (fileSize : Int) :
      Works isHm executor (.writerUpdate false contents environment fileSize)
        (doWriteRawTrace (asyncTraceWrite isHm contents copy.time executor.taskBuffers
          (traceSourceFactory copy.outputFile environment)).1 fileSize copy)

/-- Some step of the run has set the flag of the task, on a worker's copy. -/
def ComputedIn (isHm : Bool) (start : TraceDumpExecutor) (labels : List Label)
    (time : UInt64) : Prop :=
  ∃ before label after state worked, labels = before ++ label :: after ∧
    (traceDumpExecutor isHm).run start before = some state ∧
    Works isHm state label worked ∧ worked.time = time ∧
    worked.isFileSizeOverLimit = true

/-- No read and no write of the task succeeds with more bytes than its limit. -/
def WithinLimit (isHm : Bool) (start : TraceDumpExecutor) (labels : List Label)
    (time : UInt64) : Prop :=
  ∀ before label after state worked, labels = before ++ label :: after →
    (traceDumpExecutor isHm).run start before = some state →
    Works isHm state label worked → worked.time = time →
    worked.code = .success → worked.fileSize ≤ worked.fileSizeLimit

theorem doReadRawTrace_flag (ret : TraceDumpRet) (task : TraceDumpTask) :
    (doReadRawTrace ret task).isFileSizeOverLimit = true ↔
      task.isFileSizeOverLimit = true ∨
        ((doReadRawTrace ret task).code = .success ∧
          (doReadRawTrace ret task).fileSize >
            (doReadRawTrace ret task).fileSizeLimit) := by
  unfold doReadRawTrace
  dsimp only
  split
  · next hover => exact iff_of_true rfl (.inr hover)
  · next hover => exact (or_iff_left hover).symm

theorem doWriteRawTrace_flag (ret : TraceDumpRet) (fileSize : Int)
    (task : TraceDumpTask) :
    (doWriteRawTrace ret fileSize task).isFileSizeOverLimit = true ↔
      task.isFileSizeOverLimit = true ∨
        ((doWriteRawTrace ret fileSize task).code = .success ∧
          (doWriteRawTrace ret fileSize task).fileSize >
            (doWriteRawTrace ret fileSize task).fileSizeLimit) := by
  unfold doWriteRawTrace
  dsimp only
  split
  · next hover => exact iff_of_true rfl (.inr hover)
  · next hover => exact (or_iff_left hover).symm

/-- The parent leaves the flag of the tasks it submits at its default. -/
def FreshFlags (start : TraceDumpExecutor) (labels : List Label) : Prop :=
  ∀ task ∈ submissions start labels, task.isFileSizeOverLimit = false

theorem FreshFlags.split {start : TraceDumpExecutor} {before after : List Label}
    (hfresh : FreshFlags start (before ++ after)) : FreshFlags start before := by
  intro task hmem
  apply hfresh task
  rw [submissions, List.filterMap_append, ← List.append_assoc]
  exact List.mem_append_left _ hmem

/-- No record ever has the flag set. -/
theorem carries_unflagged {isHm : Bool} {start final : TraceDumpExecutor}
    {labels : List Label} (hinit : (traceDumpExecutor isHm).init start)
    (hfresh : FreshFlags start labels)
    (hrun : (traceDumpExecutor isHm).run start labels = some final)
    {task : TraceDumpTask} (hcarries : final.Carries task) :
    task.isFileSizeOverLimit = false := by
  obtain ⟨submitted, hmem, hsame⟩ := carries_submitted hinit hrun task hcarries
  rw [← hsame.isFileSizeOverLimit]
  exact hfresh submitted hmem

theorem works_flag_iff {isHm : Bool} {executor : TraceDumpExecutor} {label : Label}
    {worked : TraceDumpTask} (hworks : Works isHm executor label worked)
    (hflags : ∀ task, executor.Carries task → task.isFileSizeOverLimit = false) :
    worked.isFileSizeOverLimit = true ↔
      worked.code = .success ∧ worked.fileSize > worked.fileSizeLimit := by
  cases hworks with
  | read hreader _ _ =>
      rw [doReadRawTrace_flag, hflags _ (.reader hreader)]
      exact or_iff_right Bool.false_ne_true
  | write hwriter _ _ _ =>
      rw [doWriteRawTrace_flag, hflags _ (.writer hwriter)]
      exact or_iff_right Bool.false_ne_true

theorem not_computedIn_iff {isHm : Bool} {start : TraceDumpExecutor}
    {labels : List Label} (hinit : (traceDumpExecutor isHm).init start)
    (hfresh : FreshFlags start labels) (time : UInt64) :
    ¬ ComputedIn isHm start labels time ↔ WithinLimit isHm start labels time := by
  have hflag : ∀ {before label after state worked}, labels = before ++ label :: after →
      (traceDumpExecutor isHm).run start before = some state →
      Works isHm state label worked →
        (worked.isFileSizeOverLimit = true ↔
          worked.code = .success ∧ worked.fileSize > worked.fileSizeLimit) := by
    intro before label after state worked hsplit hrun hworks
    rw [hsplit] at hfresh
    exact works_flag_iff hworks fun _ => carries_unflagged hinit hfresh.split hrun
  constructor
  · intro hnone before label after state worked hsplit hrun hworks htime hcode
    by_contra hover
    refine hnone ⟨before, label, after, state, worked, hsplit, hrun, hworks, htime, ?_⟩
    exact (hflag hsplit hrun hworks).mpr ⟨hcode, Int.not_le.mp hover⟩
  · rintro hwithin ⟨before, label, after, state, worked, hsplit, hrun, hworks, htime,
      hset⟩
    obtain ⟨hcode, hover⟩ := (hflag hsplit hrun hworks).mp hset
    have hle := hwithin before label after state worked hsplit hrun hworks htime hcode
    exact absurd hover (Int.not_lt.mpr hle)

/-- A worked-on copy is written over the entry of its id, and no other. -/
theorem updateTraceDumpTask_others (tasks : List TraceDumpTask)
    (task : TraceDumpTask) :
    List.Forall₂ (fun old new => old.time ≠ task.time → new = old) tasks
      (updateTraceDumpTask tasks task) := by
  induction tasks with
  | nil => exact List.Forall₂.nil
  | cons head rest ih =>
      rw [updateTraceDumpTask]
      split
      · next htime =>
          refine List.Forall₂.cons (fun hother => absurd htime hother) ?_
          exact List.forall₂_same.mpr fun _ _ _ => rfl
      · exact List.Forall₂.cons (fun _ => rfl) ih

end TraceDumpExecutor

/-! The answers the parent hands out. -/

/-- What `WaitAsyncDumpRetLoop` makes of the stored answer when the late reply has
come. -/
def waitAsyncDumpRet (environment : FileEnvironment) (task : TraceDumpTask)
    (traceRetInfo : TraceRetInfo) : TraceRetInfo :=
  let fileSize := (traceRetInfo.outputFiles.map environment.getFileSize).sum
  { traceRetInfo with
    fileSize
    isOverflowControl := traceRetInfo.isOverflowControl ||
      decide (fileSize > task.fileSizeLimit) }

/-- The surroundings of a call: the files it finds, and the file system at the
time of the late reply. -/
structure CallSide where
  environment : FileEnvironment
  cacheFiles : List TraceFileInfo
  globals : DumpGlobals
  later : FileEnvironment

/-- How the answer to a task comes about: from the reply the call waits for, from
a later one, or from no reply in time. -/
inductive Delivery
  | immediate (reply : TraceDumpTask)
  | late (first reply : TraceDumpTask)
  | timeout (submitted : TraceDumpTask)
deriving Repr, DecidableEq

namespace Delivery

/-- A call that times out goes on with a task of its own, made of defaults. -/
def info (side : CallSide) : Delivery → TraceRetInfo
  | .immediate reply =>
      (submitTaskAndWaitReturn side.environment side.cacheFiles reply side.globals {}).2
  | .late first reply =>
      waitAsyncDumpRet side.later reply
        (submitTaskAndWaitReturn side.environment side.cacheFiles first side.globals
          {}).2
  | .timeout _ =>
      (handleAsyncDumpResult side.environment side.cacheFiles
        { code := .traceTaskDumpTimeout } side.globals {}).2

def fileSizeLimit : Delivery → Int
  | .immediate reply => reply.fileSizeLimit
  | .late _ reply => reply.fileSizeLimit
  | .timeout submitted => submitted.fileSizeLimit

def reply : Delivery → Option TraceDumpTask
  | .immediate reply => some reply
  | .late _ reply => some reply
  | .timeout _ => none

/-- The files the call finds besides its own. -/
def foundSize (side : CallSide) : Int :=
  let found := getTraceFileFromVec side.environment side.globals.utDestTraceStartTime
    side.globals.utDestTraceEndTime
  (((found side.globals.traceFileVec).2 ++ (found side.cacheFiles).2).map
    TraceFileInfo.fileSize).sum

/-- With the file of the task itself. -/
def reportedSize (side : CallSide) (reply : TraceDumpTask) : Int :=
  foundSize side + if reply.code = .success then reply.fileSize else 0

/-- The same files on disk, when the late reply has come. -/
def lateSize (side : CallSide) (first : TraceDumpTask) : Int :=
  ((submitTaskAndWaitReturn side.environment side.cacheFiles first side.globals
    {}).2.outputFiles.map side.later.getFileSize).sum

/-- Without a limit there is nothing to report; with one, the files do not shrink
below it while the answer waits.  A call that times out compares with nothing. -/
def SizesAgree (side : CallSide) : Delivery → Prop
  | .immediate reply =>
      reply.fileSizeLimit = 0 → reportedSize side reply ≤ 0
  | .late first reply =>
      if reply.fileSizeLimit = 0 then
        reportedSize side first ≤ 0 ∧ lateSize side first ≤ 0
      else reportedSize side first > reply.fileSizeLimit →
        lateSize side first > reply.fileSizeLimit
  | .timeout submitted =>
      foundSize side > 0 ↔
        submitted.fileSizeLimit ≠ 0 ∧ foundSize side > submitted.fileSizeLimit

end Delivery

theorem searchTraceFiles_ret (environment : FileEnvironment)
    (cacheFiles : List TraceFileInfo) (globals : DumpGlobals) :
    let found := getTraceFileFromVec environment globals.utDestTraceStartTime
      globals.utDestTraceEndTime
    let searched := searchTraceFiles environment cacheFiles globals {}
    searched.2.fileSize = (((found globals.traceFileVec).2 ++
        (found cacheFiles).2).map TraceFileInfo.fileSize).sum ∧
      searched.2.isOverflowControl = false := by
  have hret := returnTargetFiles_ret environment
  rw [searchTraceFiles]
  dsimp only
  refine ⟨?_, (hret _ _ {}).2.1⟩
  rw [(hret _ _ {}).1]
  exact Int.zero_add _

theorem handleAsyncDumpResult_flag (environment : FileEnvironment)
    (cacheFiles : List TraceFileInfo) (task : TraceDumpTask) (globals : DumpGlobals)
    (ret : TraceRetInfo) :
    let searched := searchTraceFiles environment cacheFiles globals ret
    let handled := handleAsyncDumpResult environment cacheFiles task globals ret
    handled.2.fileSize = searched.2.fileSize +
        (if task.code = .success then task.fileSize else 0) ∧
      handled.2.isOverflowControl = (searched.2.isOverflowControl ||
        task.isFileSizeOverLimit ||
          decide (handled.2.fileSize > task.fileSizeLimit)) := by
  intro searched handled
  have hhandled : handled =
      handleAsyncDumpResult environment cacheFiles task globals ret := rfl
  rw [handleAsyncDumpResult] at hhandled
  by_cases hcode : task.code = .success
  · simp only [hcode, if_true, FileEnvironment.setFileInfo_missing, recordFile]
      at hhandled ⊢
    rw [hhandled]
    exact ⟨rfl, rfl⟩
  · simp only [hcode, if_false] at hhandled ⊢
    rw [hhandled]
    exact ⟨(Int.add_zero _).symm, rfl⟩

namespace Delivery

theorem info_immediate (side : CallSide) (reply : TraceDumpTask) :
    (info side (.immediate reply)).fileSize = reportedSize side reply ∧
      (info side (.immediate reply)).isOverflowControl =
        (reply.isFileSizeOverLimit ||
          decide (reportedSize side reply > reply.fileSizeLimit)) := by
  obtain ⟨hfound, hclear⟩ := searchTraceFiles_ret side.environment side.cacheFiles
    (side.globals.waitSyncDumpRet reply)
  obtain ⟨hsize, hflag⟩ := handleAsyncDumpResult_flag side.environment side.cacheFiles
    reply (side.globals.waitSyncDumpRet reply) {}
  rw [hfound] at hsize
  rw [hsize, hclear, Bool.false_or] at hflag
  exact ⟨hsize, hflag⟩

theorem info_timeout (side : CallSide) (submitted : TraceDumpTask) :
    (info side (.timeout submitted)).fileSize = foundSize side ∧
      (info side (.timeout submitted)).isOverflowControl =
        decide (foundSize side > 0) := by
  obtain ⟨hfound, hclear⟩ := searchTraceFiles_ret side.environment side.cacheFiles
    side.globals
  obtain ⟨hsize, hflag⟩ := handleAsyncDumpResult_flag side.environment side.cacheFiles
    { code := .traceTaskDumpTimeout } side.globals {}
  have hfailed : ¬ TraceErrorCode.traceTaskDumpTimeout = .success := by decide
  rw [hfound, if_neg hfailed, Int.add_zero] at hsize
  rw [hsize, hclear, Bool.false_or, Bool.false_or] at hflag
  exact ⟨hsize, hflag⟩

theorem info_late (side : CallSide) (first reply : TraceDumpTask) :
    (info side (.late first reply)).fileSize = lateSize side first ∧
      (info side (.late first reply)).isOverflowControl =
        (first.isFileSizeOverLimit ||
          decide (reportedSize side first > first.fileSizeLimit) ||
          decide (lateSize side first > reply.fileSizeLimit)) := by
  refine ⟨rfl, ?_⟩
  rw [← (info_immediate side first).2]
  rfl

/-- The flag of the answer says what it is meant to say. -/
def FlagRight (side : CallSide) (delivery : Delivery) : Prop :=
  (delivery.info side).isOverflowControl = true ↔
    delivery.fileSizeLimit ≠ 0 ∧
      (delivery.info side).fileSize > delivery.fileSizeLimit

theorem flagRight_iff (side : CallSide) {delivery : Delivery}
    (hunset : ∀ reply, delivery = .immediate reply →
      reply.isFileSizeOverLimit = false)
    (hlate : ∀ first reply, delivery = .late first reply →
      first.isFileSizeOverLimit = false ∧
        first.fileSizeLimit = reply.fileSizeLimit) :
    delivery.FlagRight side ↔ delivery.SizesAgree side := by
  cases delivery with
  | immediate reply =>
      obtain ⟨hsize, hflag⟩ := info_immediate side reply
      rw [FlagRight, hsize, hflag, hunset reply rfl, Bool.false_or, decide_eq_true_eq,
        fileSizeLimit, SizesAgree]
      constructor
      · intro hright hzero
        by_contra hpositive
        rw [hzero] at hright
        exact (hright.mp (Int.not_le.mp hpositive)).1 rfl
      · intro hagree
        refine ⟨fun hover => ⟨fun hzero => ?_, hover⟩, fun hover => hover.2⟩
        rw [hzero] at hover
        exact absurd hover (Int.not_lt.mpr (hagree hzero))
  | late first reply =>
      obtain ⟨hsize, hflag⟩ := info_late side first reply
      obtain ⟨hclear, hlimit⟩ := hlate first reply rfl
      rw [FlagRight, hsize, hflag, hclear, hlimit, Bool.false_or, Bool.or_eq_true,
        decide_eq_true_eq, decide_eq_true_eq, fileSizeLimit, SizesAgree]
      split
      · next hzero =>
          rw [hzero]
          constructor
          · intro hright
            have hneither := fun hover => (hright.mp hover).1 rfl
            exact ⟨Int.not_lt.mp fun hover => hneither (.inl hover),
              Int.not_lt.mp fun hover => hneither (.inr hover)⟩
          · rintro ⟨hfirst, hsecond⟩
            refine iff_of_false ?_ fun hnever => hnever.1 rfl
            rintro (hover | hover)
            · exact absurd hover (Int.not_lt.mpr hfirst)
            · exact absurd hover (Int.not_lt.mpr hsecond)
      · next hlimited =>
          constructor
          · intro hright hover
            exact (hright.mp (.inl hover)).2
          · intro hkept
            refine ⟨fun hover => ⟨hlimited, hover.elim hkept id⟩, fun hover => .inr hover.2⟩
  | timeout submitted =>
      obtain ⟨hsize, hflag⟩ := info_timeout side submitted
      rw [FlagRight, hsize, hflag, decide_eq_true_eq]
      rfl

end Delivery

namespace TraceDumpExecutor

/-- The answers to the tasks of a process whose monitor goes over its queue. -/
inductive Delivers (executor : TraceDumpExecutor) (environment : PassEnvironment)
    (tasks : List TraceDumpTask) : Delivery → Prop
  | immediate {reply : TraceDumpTask}
      (hreply : ⟨.sync, reply⟩ ∈ passReplies environment executor.traceDumpTaskVec)
      (hdone : reply.status = .writeDone) :
      Delivers executor environment tasks (.immediate reply)
  | late {first reply : TraceDumpTask} (hfirst : ⟨.sync, first⟩ ∈ executor.replies)
      (hwaits : first.status ≠ .writeDone)
      (hreply : ⟨.async, reply⟩ ∈ passReplies environment executor.traceDumpTaskVec)
      (hdone : reply.status = .writeDone) (htime : first.time = reply.time) :
      Delivers executor environment tasks (.late first reply)
  | timeout {submitted : TraceDumpTask} (hmem : submitted ∈ tasks) :
      Delivers executor environment tasks (.timeout submitted)

/-- The answer's flag is right, the flag a worker has computed is in the reply it
is made from, and writing a copy back touches no other task. -/
structure OverflowReported (isHm : Bool) (start : TraceDumpExecutor)
    (labels : List Label) (side : CallSide) (delivery : Delivery) : Prop where
  delivered : delivery.FlagRight side
  reaches : ∀ reply, delivery.reply = some reply →
    (reply.isFileSizeOverLimit = true ↔ ComputedIn isHm start labels reply.time)
  others : ∀ (tasks : List TraceDumpTask) (task : TraceDumpTask),
    List.Forall₂ (fun old new => old.time ≠ task.time → new = old) tasks
      (updateTraceDumpTask tasks task)

/-- Over every run of the process and every answer its monitor then gives rise
to. -/
theorem overflow_reported_iff {isHm : Bool} {start executor : TraceDumpExecutor}
    {labels : List Label} (hinit : (traceDumpExecutor isHm).init start)
    (hfresh : FreshFlags start labels)
    (hrun : (traceDumpExecutor isHm).run start labels = some executor)
    {environment : PassEnvironment} {delivery : Delivery}
    (hdelivers : Delivers executor environment (submissions start labels) delivery)
    (side : CallSide) :
    OverflowReported isHm start labels side delivery ↔
      (∀ reply, delivery.reply = some reply →
        WithinLimit isHm start labels reply.time) ∧ delivery.SizesAgree side := by
  have hunflagged : ∀ {task}, executor.Carries task →
      task.isFileSizeOverLimit = false := carries_unflagged hinit hfresh hrun
  have hreplied : ∀ {reply : Reply},
      reply ∈ passReplies environment executor.traceDumpTaskVec →
        ∃ task, executor.Carries task ∧ SameLimit task reply.task := by
    intro reply hmem
    obtain ⟨task, htask, hsame⟩ := inherited_sameLimit.mem_passReplies hmem
    exact ⟨task, .queued htask, hsame⟩
  have hflag : ∀ {reply : Reply},
      reply ∈ passReplies environment executor.traceDumpTaskVec →
        reply.task.isFileSizeOverLimit = false := by
    intro reply hmem
    obtain ⟨task, hcarries, hsame⟩ := hreplied hmem
    rw [← hsame.isFileSizeOverLimit]
    exact hunflagged hcarries
  have hreplyFlag : ∀ reply, delivery.reply = some reply →
      reply.isFileSizeOverLimit = false := by
    intro reply hreply
    cases hdelivers with
    | immediate hmem _ =>
        cases hreply
        exact hflag hmem
    | late _ _ hmem _ _ =>
        cases hreply
        exact hflag hmem
    | timeout _ => cases hreply
  have hsizes : delivery.FlagRight side ↔ delivery.SizesAgree side := by
    apply Delivery.flagRight_iff
    · rintro reply rfl
      exact hreplyFlag reply rfl
    · rintro first reply rfl
      cases hdelivers with
      | late hfirst _ hmem _ htime =>
          have hcarries : executor.Carries first := .replied hfirst rfl
          obtain ⟨task, hqueued, hsame⟩ := hreplied hmem
          have hreachable : (traceDumpExecutor isHm).Reachable executor :=
            ⟨labels, start, hinit, hrun⟩
          have hagree := (inherited_sameLimit.agree SameLimit.time
            SameLimit.fileSizeLimit hreachable).2 first task hcarries hqueued
            (htime.trans hsame.time.symm)
          exact ⟨hunflagged hcarries, hagree.trans hsame.fileSizeLimit⟩
  have hcomputed : ∀ reply, delivery.reply = some reply →
      ((reply.isFileSizeOverLimit = true ↔ ComputedIn isHm start labels reply.time) ↔
        WithinLimit isHm start labels reply.time) := by
    intro reply hreply
    rw [← not_computedIn_iff hinit hfresh, hreplyFlag reply hreply]
    simp
  constructor
  · rintro ⟨hdelivered, hreaches, _⟩
    refine ⟨fun reply hreply => ?_, hsizes.mp hdelivered⟩
    exact (hcomputed reply hreply).mp (hreaches reply hreply)
  · rintro ⟨hwithin, hagree⟩
    refine ⟨hsizes.mpr hagree, fun reply hreply => ?_, updateTraceDumpTask_others⟩
    exact (hcomputed reply hreply).mpr (hwithin reply hreply)

/-- One page is read, and written into a file of twenty bytes. -/
def limitedRun (fileSizeLimit : Int) : List Label :=
  [.processNewTask { time := 7, traceEndTime := 100, fileSizeLimit }, .readerTake,
    .readerUpdate false (.hm ⟨⟨true, [pageAt 3]⟩, [true]⟩) ['a'], .writerTake,
    .writerUpdate false emptyContents { traceFilePath := [], fdValid := true } 20]

def emptySide : CallSide where
  environment := ⟨0, fun _ => none, fun _ => false, fun _ => false,
    fun _ _ => false, fun _ => none⟩
  cacheFiles := []
  globals := {}
  later := ⟨0, fun _ => none, fun _ => false, fun _ => false,
    fun _ _ => false, fun _ => none⟩

theorem init_empty (isHm : Bool) : (traceDumpExecutor isHm).init {} :=
  ⟨List.nodup_nil, fun _ hmem => absurd hmem List.not_mem_nil, rfl⟩

/-- The reply to that run, once the monitor has gone over the queue. -/
def limitedReply (fileSizeLimit : Int) : TraceDumpTask where
  time := 7
  traceEndTime := 100
  fileSizeLimit := fileSizeLimit
  code := .success
  outputFile := ['a']
  fileSize := 20
  status := .writeDone

def promptPass : PassEnvironment where
  curBootTime := fun _ => 8
  outcome := fun _ => .written

theorem limitedRun_fresh (fileSizeLimit : Int) :
    FreshFlags {} (limitedRun fileSizeLimit) := by
  intro task hmem
  rw [List.mem_singleton.mp hmem]

theorem overflow_reported_iff_limited :
    OverflowReported true {} (limitedRun 10000000) emptySide
      (.immediate (limitedReply 10000000)) := by
  obtain ⟨executor, hrun⟩ : ∃ executor, (traceDumpExecutor true).run {}
      (limitedRun 10000000) = some executor := ⟨_, rfl⟩
  have hdelivers : Delivers executor promptPass (submissions {} (limitedRun 10000000))
      (.immediate (limitedReply 10000000)) := by
    cases hrun
    exact .immediate (List.mem_singleton.mpr rfl) rfl
  refine (overflow_reported_iff (init_empty true) (limitedRun_fresh _) hrun hdelivers
    emptySide).mpr ⟨?_, ?_⟩
  · intro reply _ before label after state worked hsplit hbefore hworks _ _
    rcases before with _ | ⟨first, _ | ⟨second, _ | ⟨third, _ | ⟨fourth, rest⟩⟩⟩⟩
    · cases hsplit
      cases hworks
    · cases hsplit
      cases hworks
    · cases hsplit
      cases hbefore
      cases hworks with
      | read hreader _ _ =>
          cases hreader
          decide
    · cases hsplit
      cases hworks
    · cases rest with
      | nil =>
          cases hsplit
          cases hbefore
          cases hworks with
          | write hwriter _ _ _ =>
              cases hwriter
              decide
      | cons fifth rest =>
          have hlength := congrArg List.length hsplit
          simp [limitedRun] at hlength
  · intro hzero
    exact absurd hzero (by decide)

/-- Without a limit, the flag is set for every file that is not empty. -/
theorem no_limit_raises_flag :
    ¬ ∀ (isHm : Bool) (start executor : TraceDumpExecutor) (labels : List Label)
      (environment : PassEnvironment) (delivery : Delivery) (side : CallSide),
      (traceDumpExecutor isHm).init start → FreshFlags start labels →
      (traceDumpExecutor isHm).run start labels = some executor →
      Delivers executor environment (submissions start labels) delivery →
        OverflowReported isHm start labels side delivery := by
  intro hclaim
  obtain ⟨executor, hrun⟩ : ∃ executor, (traceDumpExecutor true).run {}
      (limitedRun 0) = some executor := ⟨_, rfl⟩
  have hdelivers : Delivers executor promptPass (submissions {} (limitedRun 0))
      (.immediate (limitedReply 0)) := by
    cases hrun
    exact .immediate (List.mem_singleton.mpr rfl) rfl
  have hreported := hclaim true {} executor (limitedRun 0) promptPass _ emptySide
    (init_empty true) (limitedRun_fresh 0) hrun hdelivers
  obtain ⟨hlimited, _⟩ := hreported.delivered.mp (by decide)
  exact hlimited rfl

end TraceDumpExecutor

end Hitrace
