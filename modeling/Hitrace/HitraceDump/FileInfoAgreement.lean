import Hitrace.HitraceDump.DumpResult

namespace Hitrace

open Library CpuRaw

namespace CpuRaw

/-! The time stamps of a whole dump. -/

def stampedPipes (isHm : Bool) (request : TraceDumpRequest) (pipes : List RawPipe)
    (status : RawStatus) : RawStatus :=
  pipes.foldl (fun status pipe => stamped isHm request pipe.pages 0 false status)
    status

theorem stampedPipes_stamps (isHm : Bool) (request : TraceDumpRequest)
    (pipes : List RawPipe) {left right : RawStatus}
    (hsame : left.stamps = right.stamps) :
    (stampedPipes isHm request pipes left).stamps =
      (stampedPipes isHm request pipes right).stamps := by
  induction pipes generalizing left right with
  | nil => exact hsame
  | cons pipe rest ih =>
      exact ih (stamped_stamps isHm request pipe.pages 0 false hsame)

/-- Only the window of the request matters. -/
theorem stamped_window (isHm : Bool) {left right : TraceDumpRequest}
    (hstart : left.traceStartTime = right.traceStartTime)
    (hend : left.traceEndTime = right.traceEndTime) :
    stamped isHm left = stamped isHm right := by
  have hvalid : pageValid left = pageValid right := by
    funext page
    rw [pageValid, pageValid, hstart, hend]
  funext pages failed print status
  induction pages generalizing failed print status with
  | nil => rfl
  | cons page rest ih =>
      simp only [stamped, hvalid]
      cases pageValid right page with
      | late => rfl
      | early => exact ih failed print status
      | hit =>
          dsimp only
          split
          · rfl
          · exact ih _ true _

theorem stampedPipes_window (isHm : Bool) (left right : TraceDumpRequest)
    (hstart : left.traceStartTime = right.traceStartTime)
    (hend : left.traceEndTime = right.traceEndTime) (pipes : List RawPipe)
    (status : RawStatus) :
    stampedPipes isHm left pipes status = stampedPipes isHm right pipes status := by
  rw [stampedPipes, stampedPipes, stamped_window isHm hstart hend]

theorem writePipes_stamps (isHm : Bool) {request : TraceDumpRequest}
    (hunlimited : Unlimited request) {pipes : List RawPipe} {cpuIdx : Nat}
    {content next : RawContent}
    (hwrite : writePipes isHm request pipes cpuIdx content = (true, next)) :
    next.status.stamps =
      (stampedPipes isHm request pipes content.status).stamps := by
  induction pipes generalizing cpuIdx content with
  | nil =>
      cases hwrite
      rfl
  | cons pipe rest ih =>
      rw [writePipes] at hwrite
      split at hwrite
      · cases hwrite
      · next middle hpipe =>
          rw [ih hwrite]
          apply stampedPipes_stamps
          exact writeTracePipeRawData_stamps isHm hunlimited pipe cpuIdx hpipe

/-- The pipe opens and the manager never refuses it a block. -/
structure CachePipe.Whole (pipe : CachePipe) : Prop where
  opens : pipe.opens = true
  grants : ∀ grant ∈ pipe.grants, grant = true
  enough : pipe.pages.length < pipe.grants.length

theorem cachePipes_stamps (isHm : Bool) (request : TraceDumpRequest)
    {pipes : List CachePipe} (hwhole : ∀ pipe ∈ pipes, CachePipe.Whole pipe)
    (cpuIdx : Int) (state : ReadState) :
    (cachePipes isHm request pipes cpuIdx state).2.status.stamps =
      (stampedPipes isHm request (pipes.map CachePipe.toRawPipe)
        state.status).stamps := by
  induction pipes generalizing cpuIdx state with
  | nil => rfl
  | cons pipe rest ih =>
      obtain ⟨hpipe, hrest⟩ := List.forall_mem_cons.mp hwhole
      have hpage : pageSize ≤ TraceBufferManager.defaultBlockSz := by decide
      obtain ⟨_, hstamps⟩ := cacheTracePipeRawData_copied isHm pipe cpuIdx state
        request hpipe.opens hpage hpipe.grants hpipe.enough
      have hopened : (cacheTracePipeRawData isHm request pipe cpuIdx state).1 =
          true := by
        rw [cacheTracePipeRawData, hpipe.opens]
        simp only [Bool.not_true, Bool.false_eq_true, if_false]
        split <;> rfl
      rw [cachePipes]
      generalize cacheTracePipeRawData isHm request pipe cpuIdx state = result
        at hstamps hopened
      obtain ⟨opened, next⟩ := result
      cases hopened
      dsimp only at hstamps ⊢
      rw [ih hrest]
      exact stampedPipes_stamps isHm request _ hstamps

end CpuRaw

theorem getTraceCpuRawRead_stamps (source : RawSource) (request : TraceDumpRequest)
    (taskBuffers : Multimap UInt64 BufferBlock)
    (hwhole : ∀ pipe ∈ source.pipes, CachePipe.Whole pipe) :
    (getTraceCpuRawRead source request taskBuffers).2.status.stamps =
      (stampedPipes source.isHm request (source.pipes.map CachePipe.toRawPipe)
        {}).stamps := by
  cases source with
  | linux pipes =>
      rw [getTraceCpuRawRead, traceCpuRawReadLinux, traceCpuRawRead_status]
      exact cachePipes_stamps false request hwhole 0 _
  | hm pipe =>
      rw [getTraceCpuRawRead, traceCpuRawReadHM, traceCpuRawRead_status]
      exact cachePipes_stamps true request hwhole 0 _

/-- A snapshot that leaves a time range has written every pipe. -/
theorem snapshotTraceDump_stamps {isHm : Bool} {contents : TraceContents}
    {request : TraceDumpRequest} (hunlimited : Unlimited request)
    {pipes : List RawPipe} {io : TraceIo}
    (hrange : (snapshotTraceDump isHm contents request pipes io).1.traceStartTime <
      (snapshotTraceDump isHm contents request pipes io).1.traceEndTime) :
    ((snapshotTraceDump isHm contents request pipes io).1.traceStartTime,
      (snapshotTraceDump isHm contents request pipes io).1.traceEndTime) =
        (stampedPipes isHm request pipes {}).stamps := by
  rw [snapshotTraceDump, traceCpuRaw] at hrange ⊢
  generalize hwrite : writePipes isHm request pipes 0
    { io := onPre isHm contents io } = result at hrange ⊢
  obtain ⟨written, content⟩ := result
  cases written with
  | false =>
      simp only [Bool.false_and] at hrange
      exact absurd hrange (UInt64.lt_irrefl 0)
  | true =>
      dsimp only [Bool.true_and] at hrange ⊢
      cases hstatus : decide (content.status.dumpStatus = .success) with
      | false =>
          rw [hstatus] at hrange
          exact absurd hrange (UInt64.lt_irrefl 0)
      | true => exact writePipes_stamps isHm hunlimited hwrite

/-! The record of an asynchronous dump beside the one of a synchronous dump. -/

/-- The first and the last time stamp of the pages the reader captures. -/
def capturedRange (source : RawSource) (task : TraceDumpTask)
    (taskBuffers : Multimap UInt64 BufferBlock) : TimestampRange :=
  let status := (getTraceCpuRawRead source (TraceDumpExecutor.readRequest task)
    taskBuffers).2.status
  ⟨status.firstPageTimeStamp, status.lastPageTimeStamp⟩

def snapshotRequest (task : TraceDumpTask) : TraceDumpRequest where
  type := .traceSnapshot
  traceStartTime := task.traceStartTime
  traceEndTime := task.traceEndTime

/-- One dump's surroundings in the parent. -/
structure DumpSurroundings where
  environment : FileEnvironment
  cacheFiles : List TraceFileInfo := []
  globals : DumpGlobals := {}
  ret : TraceRetInfo := {}

namespace DumpSurroundings

def searched (surroundings : DumpSurroundings) (globals : DumpGlobals) :
    DumpGlobals × TraceRetInfo :=
  searchTraceFiles surroundings.environment surroundings.cacheFiles globals
    surroundings.ret

/-- The record that a reply adds to the vector. -/
def AsyncRecords (surroundings : DumpSurroundings) (reply : TraceDumpTask)
    (info : TraceFileInfo) : Prop :=
  (submitTaskAndWaitReturn surroundings.environment surroundings.cacheFiles reply
      surroundings.globals surroundings.ret).1.traceFileVec =
    (surroundings.searched
      (surroundings.globals.waitSyncDumpRet reply)).1.traceFileVec ++ [info]

/-- What the reply adds to the covered duration, beside the files found. -/
def asyncCoverDuration (surroundings : DumpSurroundings) (reply : TraceDumpTask) :
    Int32 :=
  (submitTaskAndWaitReturn surroundings.environment surroundings.cacheFiles reply
      surroundings.globals surroundings.ret).2.coverDuration -
    (surroundings.searched
      (surroundings.globals.waitSyncDumpRet reply)).2.coverDuration

def SyncRecords (surroundings : DumpSurroundings) (retVal : TraceDumpRet)
    (outputPath : List Char) (info : TraceFileInfo) : Prop :=
  (processDumpSync surroundings.environment surroundings.cacheFiles retVal outputPath
      surroundings.globals surroundings.ret).2.1.traceFileVec =
    (surroundings.searched
      (surroundings.globals.epollWaitforChildProcess retVal)).1.traceFileVec ++
        [info]

variable {surroundings : DumpSurroundings}

/-- The record a successful reply leads to. -/
def asyncFileInfo (surroundings : DumpSurroundings) (reply : TraceDumpTask) :
    TraceFileInfo where
  filename := reply.outputFile
  traceStartTime := surroundings.environment.convertPageTraceTimeToUtTimeMs
    reply.traceStartTime
  traceEndTime := surroundings.environment.convertPageTraceTimeToUtTimeMs
    reply.traceEndTime
  fileSize := reply.fileSize

theorem submitTaskAndWaitReturn_recorded (surroundings : DumpSurroundings)
    {reply : TraceDumpTask} (hcode : reply.code = .success) :
    surroundings.AsyncRecords reply (surroundings.asyncFileInfo reply) ∧
      surroundings.asyncCoverDuration reply =
        toInt32 ((surroundings.asyncFileInfo reply).traceEndTime -
          (surroundings.asyncFileInfo reply).traceStartTime) := by
  rw [AsyncRecords, asyncCoverDuration, submitTaskAndWaitReturn,
    handleAsyncDumpResult, searched]
  generalize hsearched : searchTraceFiles _ _ _ _ = result
  have hrange : result.1.range =
      ⟨reply.traceStartTime, reply.traceEndTime⟩ := by
    rw [← hsearched]
    rfl
  obtain ⟨globals, ret⟩ := result
  dsimp only at hrange ⊢
  rw [if_pos hcode, hrange, FileEnvironment.setFileInfo_missing]
  refine ⟨rfl, ?_⟩
  dsimp only [recordFile]
  rw [Int32.add_comm, Int32.add_sub_cancel]
  rfl

theorem AsyncRecords.unique {reply : TraceDumpTask} {first second : TraceFileInfo}
    (hfirst : surroundings.AsyncRecords reply first)
    (hsecond : surroundings.AsyncRecords reply second) : first = second := by
  rw [AsyncRecords] at hfirst hsecond
  exact List.singleton_inj.mp (List.append_cancel_left (hfirst.symm.trans hsecond))

theorem SyncRecords.range {retVal : TraceDumpRet} {outputPath : List Char}
    {info : TraceFileInfo}
    (hrecords : surroundings.SyncRecords retVal outputPath info) :
    retVal.traceStartTime < retVal.traceEndTime ∧
      info.traceStartTime =
        surroundings.environment.convertPageTraceTimeToUtTimeMs
          retVal.traceStartTime ∧
      info.traceEndTime =
        surroundings.environment.convertPageTraceTimeToUtTimeMs
          retVal.traceEndTime := by
  rw [SyncRecords, processDumpSync, handleDumpResult, searched] at hrecords
  generalize hsearched : searchTraceFiles _ _ _ _ = result at hrecords
  have hrange : result.1.range =
      ⟨retVal.traceStartTime, retVal.traceEndTime⟩ := by
    rw [← hsearched]
    rfl
  obtain ⟨globals, ret⟩ := result
  dsimp only at hrange hrecords
  cases hinfo : syncFileInfo surroundings.environment retVal.outputFile outputPath
      globals with
  | none =>
      rw [hinfo] at hrecords
      simp at hrecords
  | some recorded =>
      rw [hinfo] at hrecords
      have hsame : recorded = info := by simpa [recordFile] using hrecords
      cases hsame
      obtain ⟨hless, hstart, hend⟩ := syncFileInfo_range _ hinfo
      have hfirst : globals.firstPageTimestamp = retVal.traceStartTime :=
        congrArg TimestampRange.firstPageTimestamp hrange
      have hlast : globals.lastPageTimestamp = retVal.traceEndTime :=
        congrArg TimestampRange.lastPageTimestamp hrange
      rw [hfirst, hlast] at hless
      rw [hfirst] at hstart
      rw [hlast] at hend
      exact ⟨hless, hstart, hend⟩

theorem toInt32_exact_iff (number : UInt64) :
    (toInt32 number).toInt = (number.toNat : Int) ↔ number.toNat < 2 ^ 31 := by
  have hbound : (toInt32 number).toInt < 2 ^ 31 := Int32.toInt_lt _
  constructor
  · intro hexact
    omega
  · intro hless
    rw [toInt32_eq, Int32.toInt_ofNat_of_lt hless]

/-- The record has the times of the captured pages, as the synchronous one of the
same pages, and their distance is what it adds to the covered duration. -/
structure InfoAgrees (surroundings : DumpSurroundings) (source : RawSource)
    (task reply : TraceDumpTask) (captured : TimestampRange) : Prop where
  traceStartTime : ∀ info, surroundings.AsyncRecords reply info →
    info.traceStartTime = surroundings.environment.convertPageTraceTimeToUtTimeMs
      captured.firstPageTimestamp
  traceEndTime : ∀ info, surroundings.AsyncRecords reply info →
    info.traceEndTime = surroundings.environment.convertPageTraceTimeToUtTimeMs
      captured.lastPageTimestamp
  coverDuration : (surroundings.asyncCoverDuration reply).toInt =
    ((surroundings.environment.convertPageTraceTimeToUtTimeMs
        captured.lastPageTimestamp -
      surroundings.environment.convertPageTraceTimeToUtTimeMs
        captured.firstPageTimestamp).toNat : Int)
  sync : ∀ (other : DumpSurroundings) (contents : TraceContents) (io : TraceIo)
    (outputPath : List Char) (syncInfo info : TraceFileInfo),
    other.environment.clockOffset = surroundings.environment.clockOffset →
    (∀ pipe ∈ source.pipes, CachePipe.Whole pipe) →
    other.SyncRecords (snapshotTraceDump source.isHm contents (snapshotRequest task)
      (source.pipes.map CachePipe.toRawPipe) io).1 outputPath syncInfo →
    surroundings.AsyncRecords reply info →
      (syncInfo.traceStartTime, syncInfo.traceEndTime) =
        (info.traceStartTime, info.traceEndTime)

/-- Both ends of the wanted range lie in the millisecond of the first and of the
last captured page. -/
def SameMilliseconds (task : TraceDumpTask) (captured : TimestampRange) : Prop :=
  task.traceStartTime / msToNs = captured.firstPageTimestamp / msToNs ∧
    task.traceEndTime / msToNs = captured.lastPageTimestamp / msToNs ∧
    (captured.lastPageTimestamp / msToNs -
      captured.firstPageTimestamp / msToNs).toNat < 2 ^ 31

theorem SyncRecords.captured {source : RawSource} {task : TraceDumpTask}
    (hwhole : ∀ pipe ∈ source.pipes, CachePipe.Whole pipe)
    {contents : TraceContents} {io : TraceIo} {outputPath : List Char}
    {info : TraceFileInfo}
    (hrecords : surroundings.SyncRecords (snapshotTraceDump source.isHm contents
      (snapshotRequest task) (source.pipes.map CachePipe.toRawPipe) io).1 outputPath
        info)
    (taskBuffers : Multimap UInt64 BufferBlock) :
    info.traceStartTime = surroundings.environment.convertPageTraceTimeToUtTimeMs
        (capturedRange source task taskBuffers).firstPageTimestamp ∧
      info.traceEndTime = surroundings.environment.convertPageTraceTimeToUtTimeMs
        (capturedRange source task taskBuffers).lastPageTimestamp := by
  obtain ⟨hless, hstart, hend⟩ := hrecords.range
  have hunlimited : Unlimited (snapshotRequest task) := Or.inr rfl
  have hwindow := stampedPipes_window source.isHm (snapshotRequest task)
    (TraceDumpExecutor.readRequest task) rfl rfl
    (source.pipes.map CachePipe.toRawPipe) {}
  have hsync := snapshotTraceDump_stamps hunlimited hless
  rw [hwindow, ← getTraceCpuRawRead_stamps source _ taskBuffers hwhole] at hsync
  obtain ⟨hfirst, hlast⟩ := Prod.mk.inj hsync
  rw [hstart, hend, hfirst, hlast]
  exact ⟨rfl, rfl⟩

theorem infoAgrees_iff {source : RawSource} {task reply : TraceDumpTask}
    (taskBuffers : Multimap UInt64 BufferBlock)
    (hwindow : reply.window = task.window) (hcode : reply.code = .success) :
    InfoAgrees surroundings source task reply
        (capturedRange source task taskBuffers) ↔
      SameMilliseconds task (capturedRange source task taskBuffers) := by
  obtain ⟨hrecorded, hcover⟩ :=
    submitTaskAndWaitReturn_recorded surroundings hcode
  obtain ⟨hstart, hend⟩ := Prod.mk.inj hwindow
  have hinfoStart : (surroundings.asyncFileInfo reply).traceStartTime =
      surroundings.environment.convertPageTraceTimeToUtTimeMs
        task.traceStartTime := by
    rw [← hstart]
    rfl
  have hinfoEnd : (surroundings.asyncFileInfo reply).traceEndTime =
      surroundings.environment.convertPageTraceTimeToUtTimeMs
        task.traceEndTime := by
    rw [← hend]
    rfl
  rw [hinfoStart, hinfoEnd] at hcover
  rw [SameMilliseconds]
  constructor
  · intro hagrees
    have hfirst := hagrees.traceStartTime _ hrecorded
    have hlast := hagrees.traceEndTime _ hrecorded
    rw [hinfoStart] at hfirst
    rw [hinfoEnd] at hlast
    have hexact := hagrees.coverDuration
    rw [hcover, hfirst, hlast, toInt32_exact_iff,
      FileEnvironment.convertPageTraceTimeToUtTimeMs_sub] at hexact
    rw [FileEnvironment.convertPageTraceTimeToUtTimeMs_inj] at hfirst hlast
    exact ⟨hfirst, hlast, hexact⟩
  · intro ⟨hfirst, hlast, hshort⟩
    rw [← FileEnvironment.convertPageTraceTimeToUtTimeMs_inj
      surroundings.environment] at hfirst hlast
    refine ⟨?_, ?_, ?_, ?_⟩
    · intro info hrecords
      rw [hrecords.unique hrecorded, hinfoStart, hfirst]
    · intro info hrecords
      rw [hrecords.unique hrecorded, hinfoEnd, hlast]
    · rw [hcover, hfirst, hlast, toInt32_exact_iff,
        FileEnvironment.convertPageTraceTimeToUtTimeMs_sub]
      exact hshort
    · intro other contents io outputPath syncInfo info hoffset hwhole hsync hrecords
      obtain ⟨hsyncStart, hsyncEnd⟩ := hsync.captured hwhole taskBuffers
      rw [hrecords.unique hrecorded, hinfoStart, hinfoEnd, hfirst, hlast, hsyncStart,
        hsyncEnd]
      simp only [FileEnvironment.convertPageTraceTimeToUtTimeMs, hoffset]

end DumpSurroundings

open TraceDumpExecutor DumpSurroundings in
/-- The parent records the range that was asked for. -/
theorem async_file_info_iff {isHm : Bool} {before after : TraceDumpExecutor}
    (hreachable : (traceDumpExecutor isHm).Reachable before)
    {task : TraceDumpTask} (hreader : before.reader = some task)
    (source : RawSource) (traceFile : List Char) {labels : List Label}
    (hrun : (traceDumpExecutor isHm).run before
      (.readerUpdate false source traceFile :: labels) = some after)
    {reply : Reply} (hreply : reply ∈ after.replies)
    (htime : reply.task.time = task.time) (hcode : reply.task.code = .success)
    (surroundings : DumpSurroundings) :
    InfoAgrees surroundings source task reply.task
        (capturedRange source task before.taskBuffers) ↔
      SameMilliseconds task (capturedRange source task before.taskBuffers) := by
  have hwindow : reply.task.window = task.window :=
    window_kept hreachable hrun (.reader hreader) (.replied hreply rfl) htime
  exact infoAgrees_iff before.taskBuffers hwindow hcode

/-- A task in the reader's hands, with the given end of its range. -/
def readTask (traceEndTime : UInt64) : TraceDumpTask where
  time := 7
  traceEndTime := traceEndTime

def readingExecutor (traceEndTime : UInt64) : TraceDumpExecutor where
  traceDumpTaskVec := [readTask traceEndTime]
  reader := some (readTask traceEndTime)
  submitted := [7]

def twoPages : RawSource :=
  .linux [⟨⟨true, [pageAt 3, pageAt 6]⟩, [true, true, true]⟩]

open TraceDumpExecutor in
theorem readingExecutor_reachable (traceEndTime : UInt64) :
    (traceDumpExecutor false).Reachable (readingExecutor traceEndTime) :=
  ⟨[.processNewTask (readTask traceEndTime), .readerTake], {},
    ⟨List.nodup_nil, fun _ hmem => (nomatch hmem), rfl⟩, rfl⟩

/-- The reply to a reader that came back late. -/
def lateReply : List TraceDumpExecutor.Label :=
  [.readerUpdate false twoPages ['a'],
    .monitorPass ⟨fun _ => 6000000000, fun _ => .written⟩]

def zeroOffset : DumpSurroundings where
  environment := ⟨0, fun _ => none, fun _ => false, fun _ => false,
    fun _ _ => false, fun _ => none⟩

open TraceDumpExecutor DumpSurroundings in
theorem async_file_info_iff_one_millisecond :
    ∃ after : TraceDumpExecutor, ∃ reply ∈ after.replies,
      reply.task.code = .success ∧
      InfoAgrees zeroOffset twoPages (readTask 9) reply.task
        (capturedRange twoPages (readTask 9) (readingExecutor 9).taskBuffers) := by
  have hrun : ((traceDumpExecutor false).run (readingExecutor 9) lateReply).map
      (fun executor => executor.replies.map fun reply =>
        (reply.task.time, reply.task.code)) = some [(7, .success)] := by
    decide +kernel
  obtain ⟨after, hafter, hreplies⟩ := Option.map_eq_some_iff.mp hrun
  have hmem : (7, TraceErrorCode.success) ∈ after.replies.map fun reply =>
      (reply.task.time, reply.task.code) := by
    rw [hreplies]
    exact List.mem_singleton.mpr rfl
  obtain ⟨reply, hreply, hsent⟩ := List.mem_map.mp hmem
  obtain ⟨htime, hcode⟩ := Prod.mk.inj hsent
  refine ⟨after, reply, hreply, hcode, ?_⟩
  refine (async_file_info_iff (readingExecutor_reachable 9) rfl twoPages ['a'] hafter
    hreply htime hcode zeroOffset).mpr ?_
  rw [SameMilliseconds]
  decide +kernel

open TraceDumpExecutor DumpSurroundings in
theorem async_file_info_keeps_request :
    ¬ ∀ (isHm : Bool) (before after : TraceDumpExecutor) (task : TraceDumpTask)
      (source : RawSource) (traceFile : List Char) (labels : List Label)
      (reply : Reply) (surroundings : DumpSurroundings),
      (traceDumpExecutor isHm).Reachable before → before.reader = some task →
      (traceDumpExecutor isHm).run before
        (.readerUpdate false source traceFile :: labels) = some after →
      reply ∈ after.replies → reply.task.time = task.time →
      reply.task.code = .success →
      (capturedRange source task before.taskBuffers).firstPageTimestamp <
        (capturedRange source task before.taskBuffers).lastPageTimestamp →
        InfoAgrees surroundings source task reply.task
          (capturedRange source task before.taskBuffers) := by
  intro hclaim
  have hrun : ((traceDumpExecutor false).run (readingExecutor 1000000000)
      lateReply).map (fun executor => executor.replies.map fun reply =>
        (reply.task.time, reply.task.traceEndTime, reply.task.code)) =
          some [(7, 1000000000, .success)] := by
    decide +kernel
  obtain ⟨after, hafter, hreplies⟩ := Option.map_eq_some_iff.mp hrun
  have hmem : (7, 1000000000, TraceErrorCode.success) ∈ after.replies.map
      fun reply => (reply.task.time, reply.task.traceEndTime, reply.task.code) := by
    rw [hreplies]
    exact List.mem_singleton.mpr rfl
  obtain ⟨reply, hreply, hsent⟩ := List.mem_map.mp hmem
  obtain ⟨htime, hend, hcode⟩ : reply.task.time = 7 ∧
      reply.task.traceEndTime = 1000000000 ∧ reply.task.code = .success := by
    simpa using hsent
  have hagrees := hclaim false _ after _ twoPages ['a'] _ reply zeroOffset
    (readingExecutor_reachable 1000000000) rfl hafter hreply htime hcode
    (by decide +kernel)
  obtain ⟨hrecorded, _⟩ := submitTaskAndWaitReturn_recorded zeroOffset hcode
  have hlast := hagrees.traceEndTime _ hrecorded
  rw [asyncFileInfo, hend] at hlast
  dsimp only at hlast
  revert hlast
  decide +kernel

end Hitrace
