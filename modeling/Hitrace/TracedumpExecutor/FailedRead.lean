import Hitrace.TracedumpExecutor.BlockLifetime
import Hitrace.TracedumpExecutor.ReplyProtocol

namespace Hitrace

open Library TraceContent CpuRaw

/-! What the two strategies make of a read that failed. -/

theorem asyncTraceRead_failed {source : RawSource} {traceFile : List Char}
    {request : TraceDumpRequest} {before after : Multimap UInt64 BufferBlock}
    {ret : TraceDumpRet}
    (hread : asyncTraceRead source traceFile request before = (ret, after))
    (hfailed : ret.code ≠ .success) : ret.outputFile = [] := by
  have houtcome := asyncTraceRead_outcome hread
  generalize cachePipes source.isHm request source.pipes 0
    { taskBuffers := before } = cached at houtcome
  obtain ⟨opened, state⟩ := cached
  cases houtcome with
  | notOpened => rfl
  | released _ => rfl
  | succeeded _ => exact absurd rfl hfailed

theorem copyTracePipeRawLoop_other (isHm : Bool) {request : TraceDumpRequest}
    (cpu : Int) (grants : List Bool) (pages : List RawPage) (locals : CacheLocals)
    (state : ReadState) {taskId : UInt64} (hother : taskId ≠ request.taskId) :
    (copyTracePipeRawLoop isHm request cpu grants pages locals
      state).2.taskBuffers.bucket taskId = state.taskBuffers.bucket taskId := by
  induction grants generalizing pages locals state with
  | nil => rfl
  | cons grant rest ih =>
      cases grant with
      | false => rfl
      | true =>
          rw [copyTracePipeRawLoop]
          split
          · exact Multimap.bucket_pushBack_of_ne _ _ hother
          · rw [ih]
            exact Multimap.bucket_pushBack_of_ne _ _ hother

theorem cacheTracePipeRawData_other (isHm : Bool) {request : TraceDumpRequest}
    (pipe : CachePipe) (cpuIdx : Int) (state : ReadState) {taskId : UInt64}
    (hother : taskId ≠ request.taskId) :
    (cacheTracePipeRawData isHm request pipe cpuIdx state).2.taskBuffers.bucket
      taskId = state.taskBuffers.bucket taskId := by
  have hloop := copyTracePipeRawLoop_other isHm cpuIdx pipe.grants pipe.pages {}
    state hother
  unfold cacheTracePipeRawData
  split
  · rfl
  · dsimp only
    split
    · exact hloop
    · exact hloop

theorem cachePipes_other (isHm : Bool) {request : TraceDumpRequest}
    (pipes : List CachePipe) (cpuIdx : Int) (state : ReadState) {taskId : UInt64}
    (hother : taskId ≠ request.taskId) :
    (cachePipes isHm request pipes cpuIdx state).2.taskBuffers.bucket taskId =
      state.taskBuffers.bucket taskId := by
  induction pipes generalizing cpuIdx state with
  | nil => rfl
  | cons pipe rest ih =>
      have hpipe := cacheTracePipeRawData_other isHm pipe cpuIdx state hother
      rw [cachePipes]
      cases hcache : cacheTracePipeRawData isHm request pipe cpuIdx state with
      | mk opened next =>
          rw [hcache] at hpipe
          cases opened with
          | false => exact hpipe
          | true => exact (ih (cpuIdx + 1) next).trans hpipe

/-- Every block belongs to a processor. -/
def CpusIndexed (taskBuffers : Multimap UInt64 BufferBlock) : Prop :=
  ∀ taskId, ∀ block ∈ taskBuffers.bucket taskId, 0 ≤ block.cpu

theorem CpusIndexed.erase {taskBuffers : Multimap UInt64 BufferBlock}
    (hcpus : CpusIndexed taskBuffers) (taskId : UInt64) :
    CpusIndexed (taskBuffers.erase taskId) := by
  intro other block hmem
  by_cases hother : other = taskId
  · subst hother
    rw [Multimap.bucket_erase_self] at hmem
    exact nomatch hmem
  · rw [Multimap.bucket_erase_of_ne _ hother] at hmem
    exact hcpus other block hmem

theorem CpusIndexed.asyncTraceRead {source : RawSource} {traceFile : List Char}
    {request : TraceDumpRequest} {before after : Multimap UInt64 BufferBlock}
    {ret : TraceDumpRet} (hcpus : CpusIndexed before)
    (hread : asyncTraceRead source traceFile request before = (ret, after)) :
    CpusIndexed after := by
  obtain ⟨_, _, blocks, hbucket, _, hblocks⟩ := cachePipes_spec source.isHm request
    source.pipes 0 (Int.le_refl 0) { taskBuffers := before }
  have hcached : CpusIndexed (cachePipes source.isHm request source.pipes 0
      { taskBuffers := before }).2.taskBuffers := by
    intro taskId block hmem
    by_cases hother : taskId = request.taskId
    · rw [hother, hbucket] at hmem
      rcases List.mem_append.mp hmem with hold | hnew
      · exact hcpus _ block hold
      · exact hblocks block hnew
    · rw [cachePipes_other source.isHm _ _ _ hother] at hmem
      exact hcpus taskId block hmem
  have houtcome := asyncTraceRead_outcome hread
  generalize cachePipes source.isHm request source.pipes 0
    { taskBuffers := before } = cached at houtcome hcached
  obtain ⟨opened, state⟩ := cached
  cases houtcome with
  | notOpened => exact hcached
  | released _ => exact hcached.erase request.taskId
  | succeeded _ => exact hcached

theorem CpusIndexed.asyncTraceWrite {isHm : Bool} {contents : TraceContents}
    {taskId : UInt64} {before after : Multimap UInt64 BufferBlock}
    {io next : TraceIo} {ret : TraceDumpRet} (hcpus : CpusIndexed before)
    (hwrite : asyncTraceWrite isHm contents taskId before io =
      (ret, after, next)) : CpusIndexed after := by
  have hblocks := asyncTraceWrite_blocks isHm contents taskId before io
  rw [hwrite] at hblocks
  rcases hblocks with rfl | rfl
  · exact hcpus
  · exact hcpus.erase taskId

theorem isFileExist_fdValid (io : TraceIo) :
    io.isFileExist.2.fdValid = io.fdValid :=
  (isFileExist_headers io).1

theorem traceCpuRawWriteLinux_closed {taskId : UInt64}
    {taskBuffers : Multimap UInt64 BufferBlock} {io : TraceIo}
    (hclosed : io.fdValid = false) (hcpus : CpusIndexed taskBuffers)
    (hheader : taskBuffers.bucket taskId ≠ [] ∨ io.isFileExist.1 = false) :
    (traceCpuRawWriteLinux taskId taskBuffers io).1 = false := by
  have hvalid := isFileExist_fdValid io
  unfold traceCpuRawWriteLinux
  cases hcheck : io.isFileExist with
  | mk found opened =>
      rw [hcheck] at hvalid hheader
      cases found with
      | false => rfl
      | true =>
          have hblocks : taskBuffers.bucket taskId ≠ [] :=
            hheader.resolve_right nofun
          have hiff := writeBlocksLinux_iff _ (hcpus taskId) {} 0 opened
          dsimp only [getTaskBuffers]
          cases hwrite : writeBlocksLinux (taskBuffers.bucket taskId) {} 0
              opened with
          | mk written stored =>
              cases written with
              | false => rfl
              | true =>
                  rw [hwrite] at hiff
                  have hopen := ((hiff.mp rfl).resolve_left hblocks).1
                  exact nomatch hopen.symm.trans (hvalid.trans hclosed)

theorem traceCpuRawWriteHM_closed {taskId : UInt64}
    {taskBuffers : Multimap UInt64 BufferBlock} {io : TraceIo}
    (hclosed : io.fdValid = false) :
    (traceCpuRawWriteHM taskId taskBuffers io).1 = false := by
  have hvalid := isFileExist_fdValid io
  unfold traceCpuRawWriteHM
  cases hcheck : io.isFileExist with
  | mk found opened =>
      rw [hcheck] at hvalid
      cases found with
      | false => rfl
      | true =>
          have hiff := doWriteTraceContentHeader_iff {} ContentType.cpuRaw opened
          dsimp only
          cases hwrite : doWriteTraceContentHeader {} ContentType.cpuRaw opened with
          | mk written rest =>
              cases written with
              | false => rfl
              | true =>
                  rw [hwrite] at hiff
                  exact nomatch (hiff.mp rfl).1.symm.trans (hvalid.trans hclosed)

/-- A write without a file fails, unless it finds no block to put a header in
front of. -/
theorem asyncTraceWrite_closed {isHm : Bool} {contents : TraceContents}
    {taskId : UInt64} {before after : Multimap UInt64 BufferBlock}
    {io next : TraceIo} {ret : TraceDumpRet}
    (hwrite : asyncTraceWrite isHm contents taskId before io = (ret, after, next))
    (hclosed : io.fdValid = false) (hcpus : CpusIndexed before)
    (hheader : isHm = true ∨ before.bucket taskId ≠ [] ∨
      (onPre isHm contents io).isFileExist.1 = false) :
    ret.code ≠ .success := by
  have hpre : (onPre isHm contents io).fdValid = false :=
    (onPre_sameFile isHm contents io).fdValid.trans hclosed
  have hfalse : (if isHm then
      traceCpuRawWriteHM taskId before (onPre isHm contents io)
      else traceCpuRawWriteLinux taskId before
        (onPre isHm contents io)).1 = false := by
    cases isHm with
    | true => exact traceCpuRawWriteHM_closed hpre
    | false =>
        exact traceCpuRawWriteLinux_closed hpre hcpus
          (hheader.resolve_left Bool.false_ne_true)
  rw [asyncTraceWrite, asyncTraceWriteDoCore] at hwrite
  generalize (if isHm then
    traceCpuRawWriteHM taskId before (onPre isHm contents io)
    else traceCpuRawWriteLinux taskId before (onPre isHm contents io)) =
      core at hwrite hfalse
  obtain ⟨written, taskBuffers, opened⟩ := core
  cases hfalse
  cases hwrite
  exact nofun

namespace TraceDumpExecutor

/-! A failed read along a run. -/

theorem MonitorUpdate.code {task next : TraceDumpTask}
    (hupdate : MonitorUpdate task next) : next.code = task.code := by
  obtain ⟨_, _, _, hnext⟩ := hupdate.fields
  rw [hnext]

theorem MonitorUpdate.outputFile {task next : TraceDumpTask}
    (hupdate : MonitorUpdate task next) : next.outputFile = task.outputFile := by
  obtain ⟨_, _, _, hnext⟩ := hupdate.fields
  rw [hnext]

theorem process_start (environment : PassEnvironment) {task : TraceDumpTask}
    (hstatus : task.status = .start) : (environment.process task).reply = none := by
  unfold PassEnvironment.process doProcessTraceDumpTask
  rw [hstatus]
  dsimp only
  split <;> rfl

theorem mem_monitorPass_replies {executor : TraceDumpExecutor}
    {environment : PassEnvironment} {reply : Reply}
    (hreply : reply ∈ (executor.monitorPass environment).replies) :
    reply ∈ executor.replies ∨ ∃ task ∈ executor.traceDumpTaskVec,
      (∃ status, reply.task = { task with status }) ∧ task.status ≠ .start := by
  rcases List.mem_append.mp hreply with hold | hnew
  · exact .inl hold
  · obtain ⟨task, hmem, hsent⟩ := List.mem_filterMap.mp hnew
    refine .inr ⟨task, hmem, process_reply hsent, fun hstart => ?_⟩
    exact nomatch (process_start environment hstart).symm.trans hsent

/-- What the process knows of a task whose read failed. -/
structure Failed (executor : TraceDumpExecutor) (time : UInt64) : Prop where
  known : time ∈ executor.submitted
  queued : ∀ task ∈ executor.traceDumpTaskVec, task.time = time →
    task.code ≠ .success ∧ task.outputFile = [] ∧ task.status ≠ .start
  writer : ∀ copy, executor.writer = some copy → copy.time = time →
    copy.code ≠ .success ∧ copy.outputFile = []
  reader : ∀ copy, executor.reader = some copy → copy.time ≠ time
  replies : ∀ reply ∈ executor.replies, reply.task.time = time →
    reply.task.code ≠ .success

/-- The task the reader works on: nothing has been said about it yet, and the
writer works on another. -/
structure Reading (executor : TraceDumpExecutor) (copy : TraceDumpTask) : Prop where
  known : copy.time ∈ executor.submitted
  silent : ∀ reply ∈ executor.replies, reply.task.time ≠ copy.time
  writer : ∀ other, executor.writer = some other → other.time ≠ copy.time

structure FailedReads (executor : TraceDumpExecutor) : Prop where
  protocol : Protocol executor
  cpus : CpusIndexed executor.taskBuffers
  silent : ∀ task ∈ executor.traceDumpTaskVec, task.status = .start →
    ∀ reply ∈ executor.replies, reply.task.time ≠ task.time
  reading : ∀ copy, executor.reader = some copy → Reading executor copy
  failed : ∀ time code, (time, code) ∈ executor.reads → code ≠ .success →
    Failed executor time

/-- The writer does not come back from a task whose read failed, unless the write
has a header to put down or ends at the file check. -/
def WriterRefuses (isHm : Bool) (executor : TraceDumpExecutor) : Label → Prop
  | .writerUpdate false contents environment _ =>
      ∀ task, executor.writer = some task → task.code ≠ .success →
        isHm = true ∨ executor.taskBuffers.bucket task.time ≠ [] ∨
          (onPre isHm contents
            (traceSourceFactory task.outputFile environment)).isFileExist.1 = false
  | _ => True

theorem Failed.monitorPass {executor : TraceDumpExecutor} {time : UInt64}
    (hfailed : Failed executor time) (hprotocol : Protocol executor)
    (environment : PassEnvironment) :
    Failed (executor.monitorPass environment) time := by
  refine ⟨hfailed.known, ?_, hfailed.writer, hfailed.reader, ?_⟩
  · intro next hmem htime
    obtain ⟨task, htask, rfl, _⟩ := (mem_monitorPass hprotocol.distinct).mp hmem
    have hupdate := process_update environment task
    rw [hupdate.time] at htime
    obtain ⟨hcode, hfile, hstatus⟩ := hfailed.queued task htask htime
    rw [hupdate.code, hupdate.outputFile]
    exact ⟨hcode, hfile, hupdate.ne_start hstatus⟩
  · intro reply hreply htime
    rcases mem_monitorPass_replies hreply with hold | ⟨task, hmem, hsent, _⟩
    · exact hfailed.replies reply hold htime
    · obtain ⟨status, heq⟩ := hsent
      rw [heq] at htime ⊢
      exact (hfailed.queued task hmem htime).1

/-- The worked-on copy of any task may be assigned, as long as the copy of this
one keeps it failed. -/
theorem Failed.assign {executor next : TraceDumpExecutor} {time : UInt64}
    (hfailed : Failed executor time) (hprotocol : Protocol executor)
    {copy : TraceDumpTask}
    (hqueue : next.traceDumpTaskVec =
      updateTraceDumpTask executor.traceDumpTaskVec copy)
    (hsubmitted : next.submitted = executor.submitted)
    (hreplies : next.replies = executor.replies)
    (hreader : next.reader = none ∨ next.reader = executor.reader)
    (hwriter : next.writer = none ∨ next.writer = executor.writer)
    (hcopy : copy.time = time →
      copy.code ≠ .success ∧ copy.outputFile = [] ∧ copy.status ≠ .start) :
    Failed next time := by
  refine ⟨hsubmitted ▸ hfailed.known, ?_, ?_, ?_, hreplies ▸ hfailed.replies⟩
  · intro task hmem htime
    rw [hqueue] at hmem
    rcases mem_updateTraceDumpTask hprotocol.distinct hmem with
      ⟨hold, _⟩ | ⟨dumpTask, _, hsame, rfl⟩
    · exact hfailed.queued task hold htime
    · exact hcopy (hsame.symm.trans htime)
  · intro other hother
    rcases hwriter with hnone | hkept
    · exact nomatch hnone.symm.trans hother
    · exact hfailed.writer other (hkept.symm.trans hother)
  · intro other hother
    rcases hreader with hnone | hkept
    · exact nomatch hnone.symm.trans hother
    · exact hfailed.reader other (hkept.symm.trans hother)

theorem Failed.step {isHm : Bool} {executor next : TraceDumpExecutor}
    {label : Label} {time : UInt64} (hfailed : Failed executor time)
    (hreads : FailedReads executor)
    (hallowed : WriterRefuses isHm executor label)
    (hstep : executor.step isHm label = some next) : Failed next time := by
  have hprotocol := hreads.protocol
  cases executorStep_of_step hstep with
  | monitorPass environment => exact hfailed.monitorPass hprotocol environment
  | submit hsubmitted hfresh =>
      refine { hfailed with
        known := List.mem_append_left _ hfailed.known
        queued := ?_ }
      intro task hmem htime
      rcases List.mem_append.mp hmem with hold | hnew
      · exact hfailed.queued task hold htime
      · cases List.mem_singleton.mp hnew
        exact absurd (htime ▸ hfailed.known) hfresh
  | readerTake hmem hreadable =>
      refine { hfailed with reader := ?_ }
      intro copy hcopy htime
      cases hcopy
      exact (hfailed.queued _ hmem htime).2.2 (of_decide_eq_true hreadable).1
  | readerSkip => exact { hfailed with reader := fun _ hcopy => nomatch hcopy }
  | readerUpdate hreader hread =>
      refine hfailed.assign hprotocol rfl rfl rfl (.inl rfl) (.inr rfl) ?_
      intro htime
      rw [(doReadRawTrace_status _ _).2.1] at htime
      exact absurd htime (hfailed.reader _ hreader)
  | writerTake hmem hwritable =>
      refine { hfailed with writer := ?_ }
      intro copy hcopy htime
      cases hcopy
      obtain ⟨hcode, hfile, _⟩ := hfailed.queued _ hmem htime
      exact ⟨hcode, hfile⟩
  | writerSkip => exact { hfailed with writer := fun _ hcopy => nomatch hcopy }
  | @writerUpdate task hwriter contents environment io fileSize ret taskBuffers
      hwrite =>
      refine hfailed.assign hprotocol rfl rfl rfl (.inr rfl) (.inl rfl) ?_
      obtain ⟨hstatus, hsame, hcode, hfile⟩ :=
        doWriteRawTrace_status ret fileSize task
      rw [hsame, hcode, hfile, hstatus]
      intro htime
      obtain ⟨hbad, hempty⟩ := hfailed.writer task hwriter htime
      have hclosed : (traceSourceFactory task.outputFile environment).fdValid =
          false := by
        rw [hempty]
        rfl
      exact ⟨asyncTraceWrite_closed hwrite hclosed hreads.cpus
        (hallowed task hwriter hbad), hempty, nofun⟩

theorem writerRefuses_hm (executor : TraceDumpExecutor) (label : Label) :
    WriterRefuses true executor label := by
  unfold WriterRefuses
  split
  · exact fun _ _ _ => .inl rfl
  · trivial

theorem failedReads_init {isHm : Bool} {executor : TraceDumpExecutor}
    (hinit : (traceDumpExecutor isHm).init executor) : FailedReads executor := by
  have hprotocol := protocol_init hinit
  obtain ⟨_, _, heq⟩ := hinit
  rw [heq] at hprotocol ⊢
  exact ⟨hprotocol, fun _ _ hmem => (nomatch hmem),
    fun _ _ _ _ hreply => (nomatch hreply), fun _ hcopy => (nomatch hcopy),
    fun _ _ hmem => (nomatch hmem)⟩

theorem FailedReads.silent_step {isHm : Bool} {executor next : TraceDumpExecutor}
    {label : Label} (hreads : FailedReads executor)
    (hstep : executor.step isHm label = some next) :
    ∀ task ∈ next.traceDumpTaskVec, task.status = .start →
      ∀ reply ∈ next.replies, reply.task.time ≠ task.time := by
  have hprotocol := hreads.protocol
  have hassign : ∀ copy : TraceDumpTask, copy.status ≠ .start →
      ∀ task ∈ updateTraceDumpTask executor.traceDumpTaskVec copy,
        task.status = .start →
          ∀ reply ∈ executor.replies, reply.task.time ≠ task.time := by
    intro copy hcopy task hmem hstart
    rcases mem_updateTraceDumpTask hprotocol.distinct hmem with
      ⟨hold, _⟩ | ⟨dumpTask, _, _, rfl⟩
    · exact hreads.silent task hold hstart
    · exact absurd hstart hcopy
  cases executorStep_of_step hstep with
  | monitorPass environment =>
      intro task hmem hstart reply hreply
      obtain ⟨origin, horigin, rfl, _⟩ :=
        (mem_monitorPass hprotocol.distinct).mp hmem
      have hupdate := process_update environment origin
      have hbefore : origin.status = .start := by
        by_contra hne
        exact hupdate.ne_start hne hstart
      rw [hupdate.time]
      rcases mem_monitorPass_replies hreply with hold | ⟨other, hother, hsent, hne⟩
      · exact hreads.silent origin horigin hbefore reply hold
      · obtain ⟨status, heq⟩ := hsent
        intro htime
        rw [heq] at htime
        have hsame := hprotocol.same_task hother horigin htime
        exact hne (hsame ▸ hbefore)
  | submit hsubmitted hfresh =>
      intro task hmem hstart reply hreply
      rcases List.mem_append.mp hmem with hold | hnew
      · exact hreads.silent task hold hstart reply hreply
      · cases List.mem_singleton.mp hnew
        intro htime
        exact hfresh (htime ▸ hprotocol.repliesKnown reply hreply)
  | readerTake _ _ => exact hreads.silent
  | readerSkip => exact hreads.silent
  | readerUpdate _ _ =>
      apply hassign
      rw [(doReadRawTrace_status _ _).1]
      exact nofun
  | writerTake _ _ => exact hreads.silent
  | writerSkip => exact hreads.silent
  | writerUpdate _ _ =>
      apply hassign
      rw [(doWriteRawTrace_status _ _ _).1]
      exact nofun

theorem FailedReads.reading_step {isHm : Bool} {executor next : TraceDumpExecutor}
    {label : Label} (hreads : FailedReads executor)
    (hstep : executor.step isHm label = some next) :
    ∀ copy, next.reader = some copy → Reading next copy := by
  have hprotocol := hreads.protocol
  cases executorStep_of_step hstep with
  | monitorPass environment =>
      intro copy hcopy
      have hreading := hreads.reading copy hcopy
      refine { hreading with silent := ?_ }
      intro reply hreply htime
      rcases mem_monitorPass_replies hreply with hold | ⟨task, hmem, hsent, hne⟩
      · exact hreading.silent reply hold htime
      · obtain ⟨status, heq⟩ := hsent
        rw [heq] at htime
        exact hne (hprotocol.reader copy hcopy task hmem htime)
  | submit _ _ =>
      intro copy hcopy
      have hreading := hreads.reading copy hcopy
      exact { hreading with known := List.mem_append_left _ hreading.known }
  | @readerTake task hmem hreadable =>
      intro copy hcopy
      cases hcopy
      have hstart := (of_decide_eq_true hreadable).1
      refine ⟨hprotocol.known task hmem, hreads.silent task hmem hstart, ?_⟩
      intro other hother htime
      exact hprotocol.writer other hother task hmem htime.symm hstart
  | readerSkip => exact fun _ hcopy => nomatch hcopy
  | readerUpdate _ _ => exact fun _ hcopy => nomatch hcopy
  | @writerTake task hmem hwritable =>
      intro copy hcopy
      have hreading := hreads.reading copy hcopy
      refine { hreading with writer := ?_ }
      intro other hother htime
      cases hother
      have hstart := hprotocol.reader copy hcopy task hmem htime
      rw [writable, hstart] at hwritable
      exact absurd hwritable (by decide)
  | writerSkip =>
      intro copy hcopy
      exact { hreads.reading copy hcopy with
        writer := fun _ hother => nomatch hother }
  | writerUpdate _ _ =>
      intro copy hcopy
      exact { hreads.reading copy hcopy with
        writer := fun _ hother => nomatch hother }

theorem FailedReads.failed_read {executor : TraceDumpExecutor}
    (hreads : FailedReads executor) {task : TraceDumpTask}
    (hreader : executor.reader = some task) {source : RawSource}
    {traceFile : List Char} {ret : TraceDumpRet}
    {taskBuffers : Multimap UInt64 BufferBlock}
    (hread : asyncTraceRead source traceFile (readRequest task)
      executor.taskBuffers = (ret, taskBuffers))
    (hbad : ret.code ≠ .success) :
    Failed
      { executor with
        reader := none
        taskBuffers
        traceDumpTaskVec := updateTraceDumpTask executor.traceDumpTaskVec
          (doReadRawTrace ret task)
        reads := executor.reads ++ [(task.time, ret.code)] } task.time := by
  have hreading := hreads.reading task hreader
  obtain ⟨hstatus, hsame, hcode, hfile⟩ := doReadRawTrace_status ret task
  refine ⟨hreading.known, ?_, ?_, fun _ hcopy => (nomatch hcopy), ?_⟩
  · intro next hmem htime
    rcases mem_updateTraceDumpTask hreads.protocol.distinct hmem with
      ⟨_, hne⟩ | ⟨dumpTask, _, _, rfl⟩
    · exact absurd (htime.trans hsame.symm) hne
    · refine ⟨?_, ?_, ?_⟩
      · exact hcode.symm ▸ hbad
      · rw [asyncTraceRead_failed hread hbad] at hfile
        exact hfile
      · rw [assignTask_status, hstatus]
        exact nofun
  · intro copy hcopy htime
    exact absurd htime (hreading.writer copy hcopy)
  · intro reply hreply htime
    exact absurd htime (hreading.silent reply hreply)

theorem failedReads_step {isHm : Bool} {executor next : TraceDumpExecutor}
    {label : Label} (hreads : FailedReads executor)
    (hallowed : WriterRefuses isHm executor label)
    (hstep : executor.step isHm label = some next) : FailedReads next := by
  have hkept : ∀ time code, (time, code) ∈ executor.reads → code ≠ .success →
      Failed next time := fun time code hmem hbad =>
    (hreads.failed time code hmem hbad).step hreads hallowed hstep
  have hsilent := hreads.silent_step hstep
  have hreading := hreads.reading_step hstep
  have hprotocol := protocol_step hreads.protocol hstep
  cases executorStep_of_step hstep with
  | monitorPass _ => exact ⟨hprotocol, hreads.cpus, hsilent, hreading, hkept⟩
  | submit _ _ => exact ⟨hprotocol, hreads.cpus, hsilent, hreading, hkept⟩
  | readerTake _ _ => exact ⟨hprotocol, hreads.cpus, hsilent, hreading, hkept⟩
  | readerSkip => exact ⟨hprotocol, hreads.cpus, hsilent, hreading, hkept⟩
  | readerUpdate hreader hread =>
      refine ⟨hprotocol, hreads.cpus.asyncTraceRead hread, hsilent, hreading, ?_⟩
      intro time code hmem hbad
      rcases List.mem_append.mp hmem with hold | hnew
      · exact hkept time code hold hbad
      · cases List.mem_singleton.mp hnew
        exact hreads.failed_read hreader hread hbad
  | writerTake _ _ => exact ⟨hprotocol, hreads.cpus, hsilent, hreading, hkept⟩
  | writerSkip => exact ⟨hprotocol, hreads.cpus, hsilent, hreading, hkept⟩
  | writerUpdate _ hwrite =>
      exact ⟨hprotocol, hreads.cpus.asyncTraceWrite hwrite, hsilent, hreading,
        hkept⟩

end TraceDumpExecutor

open TraceDumpExecutor in
/-- A failed read is never reported as a success in a run in which the writer
refuses the tasks whose read failed. -/
theorem failed_read_never_success {isHm : Bool} {start executor : TraceDumpExecutor}
    {labels : List Label} (hinit : (traceDumpExecutor isHm).init start)
    (hobeys : (traceDumpExecutor isHm).Obeys (WriterRefuses isHm) start labels)
    (hrun : (traceDumpExecutor isHm).run start labels = some executor) :
    ∀ time code, (time, code) ∈ executor.reads → code ≠ .success →
      ∀ reply ∈ executor.replies, reply.task.time = time →
        reply.task.code ≠ .success := by
  have hreads : FailedReads executor :=
    (traceDumpExecutor isHm).invariant_of_obeys
      (fun _ _ _ hreads hallowed hstep => failedReads_step hreads hallowed hstep)
      (failedReads_init hinit) hobeys hrun
  intro time code hmem hbad
  exact (hreads.failed time code hmem hbad).replies

open TraceDumpExecutor in
/-- On HM the writer that is faster than the monitor fails at its header. -/
theorem failed_read_never_success_hm :
    ∃ executor : TraceDumpExecutor,
      (traceDumpExecutor true).Reachable executor ∧
      executor.reads = [(7, .unset)] ∧
      executor.replies.map (fun reply => reply.task.code) =
        [.writeTraceInfoError] ∧
      ∀ reply ∈ executor.replies, reply.task.time = 7 →
        reply.task.code ≠ .success := by
  let labels : List Label :=
    [.processNewTask { time := 7, traceEndTime := 100 }, .readerTake,
      .readerUpdate false (.hm ⟨⟨true, []⟩, [true]⟩) ['a'], .writerTake,
      .writerUpdate false emptyContents { traceFilePath := [], fdValid := true } 0,
      .monitorPass ⟨fun _ => 8, fun _ => .written⟩]
  have hrun : ((traceDumpExecutor true).run {} labels).map (fun executor =>
      (executor.reads, executor.replies.map fun reply => reply.task.code)) =
        some ([(7, .unset)], [.writeTraceInfoError]) := by
    decide +kernel
  obtain ⟨executor, hexecutor, heq⟩ := Option.map_eq_some_iff.mp hrun
  have hinit : (traceDumpExecutor true).init {} :=
    ⟨List.nodup_nil, fun _ hmem => (nomatch hmem), rfl⟩
  have hreads : executor.reads = [(7, .unset)] := congrArg Prod.fst heq
  refine ⟨executor, ⟨labels, {}, hinit, hexecutor⟩, hreads,
    congrArg Prod.snd heq, ?_⟩
  have hobeys := (traceDumpExecutor true).obeys_of_forall writerRefuses_hm {} labels
  refine failed_read_never_success hinit hobeys hexecutor 7 .unset ?_ nofun
  rw [hreads]
  exact List.mem_singleton.mpr rfl

open TraceDumpExecutor in
/-- On Linux the write of a task without blocks writes nothing and succeeds. -/
theorem empty_write_reports_success :
    ¬ ∀ (isHm : Bool) (executor : TraceDumpExecutor),
      (traceDumpExecutor isHm).Reachable executor →
      ∀ time code, (time, code) ∈ executor.reads → code ≠ .success →
        ∀ reply ∈ executor.replies, reply.task.time = time →
          reply.task.code ≠ .success := by
  intro hclaim
  let labels : List Label :=
    [.processNewTask { time := 7, traceEndTime := 100 }, .readerTake,
      .readerUpdate false (.linux [⟨⟨true, []⟩, [true]⟩]) ['a'], .writerTake,
      .writerUpdate false emptyContents { traceFilePath := [], fdValid := true } 0,
      .monitorPass ⟨fun _ => 8, fun _ => .written⟩]
  have hrun : ((traceDumpExecutor false).run {} labels).map (fun executor =>
      (executor.reads, executor.replies.map fun reply =>
        (reply.task.time, reply.task.code))) =
        some ([(7, .unset)], [(7, .success)]) := by
    decide +kernel
  obtain ⟨executor, hexecutor, heq⟩ := Option.map_eq_some_iff.mp hrun
  have hreachable : (traceDumpExecutor false).Reachable executor :=
    ⟨labels, {}, ⟨List.nodup_nil, fun _ hmem => (nomatch hmem), rfl⟩, hexecutor⟩
  obtain ⟨hreads, hreplies⟩ := Prod.mk.inj heq
  have hmem : (7, TraceErrorCode.success) ∈ executor.replies.map fun reply =>
      (reply.task.time, reply.task.code) := by
    rw [hreplies]
    exact List.mem_singleton.mpr rfl
  obtain ⟨reply, hreply, hsent⟩ := List.mem_map.mp hmem
  have hread : (7, .unset) ∈ executor.reads := by
    rw [hreads]
    exact List.mem_singleton.mpr rfl
  exact hclaim false executor hreachable 7 .unset hread nofun reply hreply
    (congrArg Prod.fst hsent) (congrArg Prod.snd hsent)

end Hitrace
