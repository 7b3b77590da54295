import Hitrace.TraceFactory.Framing
import Hitrace.TraceFactory.StoredPages
import Hitrace.Utils.TraceDirectory

namespace Hitrace

open Library TraceContent CpuRaw

/-! The name an asynchronous read makes up for its file, and the file the write
makes of it. -/

/-- The empty name is the failure. -/
def FileEnvironment.generateTraceFileNameByTraceTime (environment : FileEnvironment)
    (traceType : TraceDumpType) (firstPageTraceTime lastPageTraceTime : UInt64) :
    List Char :=
  if firstPageTraceTime ≥ lastPageTraceTime then []
  else
    let name := traceFileDefaultDir ++ tracePrefixMap traceType
    let traceDuration := (lastPageTraceTime - firstPageTraceTime) / msToNs
    let utFirstPageTraceTimeMs :=
      environment.convertPageTraceTimeToUtTimeMs firstPageTraceTime
    match environment.localTime (utFirstPageTraceTimeMs / sToMs) with
    | none => []
    | some timeBuf =>
        name ++ timeBuf ++ '@' :: toDecimal (firstPageTraceTime / sToNs) ++
          '-' :: toDecimal traceDuration ++ ".sys".toList

/-- `AsyncTraceReadStrategy`, with the name it makes up from the stamps. -/
def asyncTraceReadDoCore (environment : FileEnvironment) (source : RawSource)
    (request : TraceDumpRequest) (taskBuffers : Multimap UInt64 BufferBlock) :
    TraceDumpRet × Multimap UInt64 BufferBlock :=
  let status := (getTraceCpuRawRead source request taskBuffers).2.status
  let tracefile := environment.generateTraceFileNameByTraceTime request.type
    status.firstPageTimeStamp status.lastPageTimeStamp
  asyncTraceRead source tracefile request taskBuffers

/-! The contents around the raw trace leave what is in front of them alone. -/

theorem TraceIo.Ready.seek {io : TraceIo} (hready : io.Ready) (offset : Nat) :
    (io.seek offset).Ready :=
  ⟨hready.path, hready.valid, hready.headerWrites, hready.writes, hready.accesses⟩

/-- The output is as ready as before, and starts with `front` still. -/
structure Kept (front : List UInt8) (io next : TraceIo) : Prop where
  ready : next.Ready
  path : next.traceFilePath = io.traceFilePath
  holds : next.file.Holds front

theorem Kept.trans {front : List UInt8} {io middle next : TraceIo}
    (hfirst : Kept front io middle) (hsecond : Kept front middle next) :
    Kept front io next :=
  ⟨hsecond.ready, hsecond.path.trans hfirst.path, hsecond.holds⟩

theorem Kept.refl {front : List UInt8} {io : TraceIo} (hready : io.Ready)
    (hholds : io.file.Holds front) : Kept front io io :=
  ⟨hready, rfl, hholds⟩

namespace TraceContent

/-- Whatever is counted for the payload, nothing is written in front of the header. -/
theorem writeTraceData_kept (contentType : UInt8) {content : TraceIo → Int × TraceIo}
    {count : Int} {payload : List UInt8}
    (hcontent : ∀ io : TraceIo, io.Writable → content io = (count, io.put payload))
    {io : TraceIo} (hready : io.Ready) {front : List UInt8}
    (hholds : io.file.Holds front) :
    Kept front io (writeTraceData contentType content io).2 := by
  obtain ⟨start, hexist, hstart, hfile, _⟩ := hready.isFileExist
  have hpath : start.traceFilePath = io.traceFilePath := by
    have hsame := (isFileExist_sameFile io).traceFilePath
    rw [hexist] at hsame
    exact hsame
  rw [← hfile] at hholds
  have hbehind := hholds.behind
  have hbody := (hstart.seek (start.file.offset + contentHeaderSize)).put payload
  have hback := hbody.seek start.file.offset
  have hstored : PosixFile.Holds front (((start.seek
      (start.file.offset + contentHeaderSize)).put payload).seek
        start.file.offset).file :=
    ((hholds.seek (Nat.le_add_right_of_le hbehind)).write payload).seek hbehind
  rw [writeTraceData, hexist]
  dsimp only
  rw [hstart.valid, hcontent _ (hstart.seek _).writable]
  dsimp only
  simp only [Bool.not_true, Bool.or_false, Bool.false_eq_true, if_false]
  split
  · exact ⟨⟨hback.path, hback.valid, hback.headerWrites, hback.writes,
      hback.accesses⟩, hpath, hstored.truncate hbehind⟩
  · let header : TraceFileContentHeader :=
      ⟨contentType, UInt32.ofNat count.toNat⟩
    have hheaded := hstored.write header.bytes
    rw [hback.writable.write]
    dsimp only
    split
    · exact ⟨hback.put _, hpath, hheaded⟩
    · have hnext := (hback.put header.bytes).seek
        ((start.file.offset + header.bytes.length) + count.toNat)
      refine ⟨⟨hnext.path, hnext.valid, hnext.headerWrites, hnext.writes,
        hnext.accesses⟩, hpath, hheaded.seek ?_⟩
      exact Nat.le_add_right_of_le hheaded.behind

theorem writeTraceDataContent_put (isHm : Bool) (source : Option (List SourceRead)) :
    ∃ (count : Int) (payload : List UInt8), ∀ io : TraceIo, io.Writable →
      writeTraceDataContent isHm source io = (count, io.put payload) := by
  cases source with
  | none => exact ⟨-1, [], fun io _ => by rw [TraceIo.put_nil]; rfl⟩
  | some pages =>
      exact ⟨_, _, fun _ hio => writeTraceDataContent_writable isHm (some pages) rfl hio⟩

theorem cmdLinesContent_put (isHm : Bool) (source : ListSource)
    (processes : Option (List (List UInt8))) :
    ∃ (count : Int) (payload : List UInt8), ∀ io : TraceIo, io.Writable →
      cmdLinesContent isHm source processes io = (count, io.put payload) := by
  cases hopens : ListSource.opens source with
  | true => exact ⟨_, _, fun _ hio => cmdLinesContent_writable isHm processes hopens hio⟩
  | false =>
      obtain rfl := SegmentWrite.opens_eq_false hopens
      exact ⟨_, _, fun _ hio => cmdLinesContent_unopened isHm processes hio⟩

theorem tgidsContent_put (isHm : Bool) (source : ListSource) :
    ∃ (count : Int) (payload : List UInt8), ∀ io : TraceIo, io.Writable →
      tgidsContent isHm source io = (count, io.put payload) := by
  cases source with
  | kernel source => exact writeTraceDataContent_put isHm source
  | filter lines =>
      exact ⟨_, _, fun _ hio => tgidsContent_writable isHm rfl hio⟩

end TraceContent

theorem traceHeaderPage_kept (isHm : Bool) (source : Option (List SourceRead))
    {io : TraceIo} (hready : io.Ready) {front : List UInt8}
    (hholds : io.file.Holds front) :
    Kept front io (traceHeaderPage isHm source io).2 := by
  cases isHm with
  | true => exact Kept.refl hready hholds
  | false =>
      obtain ⟨_, _, hcontent⟩ := writeTraceDataContent_put false source
      exact writeTraceData_kept ContentType.headerPage hcontent hready hholds

theorem tracePrintkFmt_kept (isHm : Bool) (source : Option (List SourceRead))
    {io : TraceIo} (hready : io.Ready) {front : List UInt8}
    (hholds : io.file.Holds front) :
    Kept front io (tracePrintkFmt isHm source io).2 := by
  cases isHm with
  | true => exact Kept.refl hready hholds
  | false =>
      obtain ⟨_, _, hcontent⟩ := writeTraceDataContent_put false source
      exact writeTraceData_kept ContentType.printkFormats hcontent hready hholds

theorem onPost_kept (isHm : Bool) (contents : TraceContents) {io : TraceIo}
    (hready : io.Ready) {front : List UInt8} (hholds : io.file.Holds front) :
    Kept front io (onPost isHm contents io) := by
  obtain ⟨_, _, hcmdLines⟩ :=
    cmdLinesContent_put isHm contents.cmdLines contents.processes
  obtain ⟨_, _, htgids⟩ := tgidsContent_put isHm contents.tgids
  have hfirst : Kept front io
      (traceCmdLines isHm contents.cmdLines contents.processes io).2 :=
    writeTraceData_kept ContentType.cmdLines hcmdLines hready hholds
  rw [onPost]
  generalize (traceCmdLines isHm contents.cmdLines contents.processes io).2 = io₁
    at hfirst
  have hsecond : Kept front io₁ (traceTgids isHm contents.tgids io₁).2 :=
    writeTraceData_kept ContentType.tgids htgids hfirst.ready hfirst.holds
  generalize (traceTgids isHm contents.tgids io₁).2 = io₂ at hsecond
  have hthird := traceHeaderPage_kept isHm contents.headerPage hsecond.ready
    hsecond.holds
  generalize (traceHeaderPage isHm contents.headerPage io₂).2 = io₃ at hthird
  have hlast := tracePrintkFmt_kept isHm contents.printkFormats hthird.ready
    hthird.holds
  exact hfirst.trans (hsecond.trans (hthird.trans hlast))

/-! The contents in front of the raw trace leave no hole. -/

/-- A source that does not open leaves the offset where it was. -/
theorem writeTraceData_unopened (contentType : UInt8) (isHm : Bool) {io : TraceIo}
    (hready : io.Ready) (hsolid : io.file.Solid) :
    let next := (writeTraceData contentType (writeTraceDataContent isHm none) io).2
    next.Ready ∧ next.file.Solid := by
  intro next
  obtain ⟨start, hexist, hstart, hfile, _⟩ := hready.isFileExist
  have hcontent : ∀ io : TraceIo, io.Writable →
      writeTraceDataContent isHm none io = (-1, io.put []) := fun _ _ => rfl
  have hkept := writeTraceData_kept contentType hcontent hready hsolid.holds_past
  have hoffset : next.file.offset = io.file.offset := by
    have hnext : next = (writeTraceData contentType (writeTraceDataContent isHm none)
        io).2 := rfl
    rw [hnext, writeTraceData, hexist, ← hfile]
    dsimp only
    rw [hstart.valid]
    rfl
  refine ⟨hkept.ready, ?_⟩
  rw [PosixFile.Solid, hoffset, ← hsolid.length_past]
  exact hkept.holds.starts.length_le

theorem Wrote.solid {segments : List Segment} {io next : TraceIo}
    (hwrote : Wrote segments io next) (hsolid : io.file.Solid) : next.file.Solid := by
  rw [hwrote.file]
  exact writeSegments_solid hsolid segments

theorem traceEventFmt_ready (isHm : Bool) (eventFmt : EventFmt) {io : TraceIo}
    (hready : io.Ready) (hsolid : io.file.Solid) :
    (traceEventFmt isHm eventFmt io).2.Ready ∧
      (traceEventFmt isHm eventFmt io).2.file.Solid := by
  cases eventFmt with
  | inline events =>
      have hwrote := writeTraceContentInline_wrote events hready
      exact ⟨hwrote.ready, hwrote.solid hsolid⟩
  | saved source =>
      cases source with
      | none => exact writeTraceData_unopened ContentType.eventsFormat isHm hready hsolid
      | some pages =>
          have hwrote := traceEventFmt_saved_wrote isHm
            (rfl : (some pages).isSome = true) hready
          exact ⟨hwrote.ready, hwrote.solid hsolid⟩

theorem traceFileHdr_solid (isHm is32Bit : Bool) (cpuNums : Int) {io : TraceIo}
    (hready : io.Ready) (hsolid : io.file.Solid) :
    (traceFileHdr isHm is32Bit cpuNums io).2.Ready ∧
      (traceFileHdr isHm is32Bit cpuNums io).2.file.Solid := by
  unfold traceFileHdr
  split
  · exact ⟨hready, hsolid⟩
  · dsimp only
    rw [hready.writable.write]
    exact ⟨hready.put _, hsolid.write _⟩

theorem onPre_ready (isHm : Bool) (contents : TraceContents) {io : TraceIo}
    (hready : io.Ready) (hsolid : io.file.Solid) :
    (onPre isHm contents io).Ready ∧ (onPre isHm contents io).file.Solid := by
  have hreset : TraceIo.Ready { io with outputFileSize := 0 } :=
    ⟨hready.path, hready.valid, hready.headerWrites, hready.writes, hready.accesses⟩
  obtain ⟨hheader, hheaderSolid⟩ := traceFileHdr_solid isHm contents.is32Bit
    contents.cpuNums hreset hsolid
  have hwrote := traceBaseInfo_wrote contents.baseInfo hheader
  exact traceEventFmt_ready isHm contents.eventFmt hwrote.ready
    (hwrote.solid hheaderSolid)

/-! The write of a task with a name. -/

theorem placeholder_blockSegments {blocks : List BufferBlock} {length : UInt32}
    {segment : Segment} (hmem : segment ∈ blockSegments blocks length) :
    segment.placeholder.isSome = true ∧
      ∃ block ∈ blocks, segment.payload = block.data := by
  induction blocks generalizing length with
  | nil => exact absurd hmem List.not_mem_nil
  | cons block rest ih =>
      rcases List.mem_cons.mp hmem with rfl | hrest
      · exact ⟨rfl, block, List.mem_cons_self, rfl⟩
      · obtain ⟨hplaceholder, other, hother, hpayload⟩ := ih hrest
        exact ⟨hplaceholder, other, List.mem_cons_of_mem _ hother, hpayload⟩

/-- The blocks the manager can hand out make segments that fit. -/
theorem taskSegments_fit (isHm : Bool) {blocks : List BufferBlock}
    (hlimit : (blocks.map BufferBlock.usedBytes).sum ≤
      TraceBufferManager.defaultMaxTotalSz) {segment : Segment}
    (hmem : segment ∈ taskSegments isHm blocks) :
    segment.placeholder.isSome = true ∧ segment.Fits := by
  have hsmall : TraceBufferManager.defaultMaxTotalSz + contentHeaderSize < 2 ^ 32 := by
    decide
  have hfits : segment.placeholder.isSome = true →
      segment.payload.length ≤ TraceBufferManager.defaultMaxTotalSz →
        segment.Fits := by
    intro hplaceholder hpayload
    obtain ⟨length, hlength⟩ := Option.isSome_iff_exists.mp hplaceholder
    rw [Segment.Fits, hlength]
    exact Nat.lt_of_le_of_lt (Nat.add_le_add_right hpayload _) hsmall
  cases isHm with
  | true =>
      rw [List.mem_singleton.mp hmem] at hfits ⊢
      refine ⟨rfl, hfits rfl ?_⟩
      rw [List.length_flatMap]
      exact hlimit
  | false =>
      obtain ⟨hplaceholder, block, hblock, hpayload⟩ := placeholder_blockSegments hmem
      refine ⟨hplaceholder, hfits hplaceholder ?_⟩
      have hused : block.usedBytes ≤ (blocks.map BufferBlock.usedBytes).sum :=
        List.le_sum_of_mem (List.mem_map_of_mem hblock)
      rw [hpayload]
      exact Nat.le_trans hused hlimit

theorem cpuRawWrite_store (isHm : Bool) {taskId : UInt64}
    {taskBuffers : Multimap UInt64 BufferBlock}
    (hcpu : ∀ block ∈ taskBuffers.bucket taskId, 0 ≤ block.cpu) {io start : TraceIo}
    (hexist : io.isFileExist = (true, start)) (hstart : start.Writable) :
    (if isHm then traceCpuRawWriteHM taskId taskBuffers io
      else traceCpuRawWriteLinux taskId taskBuffers io) =
        (true, releaseTaskBlocks taskBuffers taskId,
          start.store (taskSegments isHm (taskBuffers.bucket taskId))) := by
  cases isHm with
  | true =>
      have hstored : (traceCpuRawWriteHM taskId taskBuffers io).2.2 =
          start.store (taskSegments true (taskBuffers.bucket taskId)) :=
        traceCpuRawWriteHM_store hexist hstart
      rw [traceCpuRawWriteHM, hexist] at hstored ⊢
      dsimp only at hstored ⊢
      rw [doWriteTraceContentHeader_writable hstart] at hstored ⊢
      exact Prod.ext rfl (Prod.ext rfl hstored)
  | false =>
      have hwrite := writeBlocksLinux_store hcpu {} 0 hstart
      rw [if_neg Bool.false_ne_true, traceCpuRawWriteLinux, hexist, getTaskBuffers]
      dsimp only
      rw [hwrite]
      rfl

/-- The blocks of the task stand in the file, each behind its header, or all of
them behind one. -/
theorem asyncTraceWrite_stores (isHm : Bool) (contents : TraceContents)
    {taskId : UInt64} {taskBuffers : Multimap UInt64 BufferBlock}
    (hcpu : ∀ block ∈ taskBuffers.bucket taskId, 0 ≤ block.cpu)
    (hlimit : getTaskTotalUsedBytes taskBuffers taskId ≤
      TraceBufferManager.defaultMaxTotalSz)
    {io : TraceIo} (hready : io.Ready) (hsolid : io.file.Solid) :
    let write := asyncTraceWrite isHm contents taskId taskBuffers io
    write.1.code = .success ∧ write.2.2.traceFilePath = io.traceFilePath ∧
      encodeSegments (taskSegments isHm (taskBuffers.bucket taskId)) <:+:
        write.2.2.file.content := by
  intro write
  let segments := taskSegments isHm (taskBuffers.bucket taskId)
  obtain ⟨hpre, hpreSolid⟩ := onPre_ready isHm contents hready hsolid
  obtain ⟨start, hexist, hstart, hfile, _⟩ := hpre.isFileExist
  have hpath : start.traceFilePath = io.traceFilePath := by
    have hsame := (isFileExist_sameFile (onPre isHm contents io)).traceFilePath
    rw [hexist] at hsame
    exact hsame.trans (onPre_sameFile isHm contents io).traceFilePath
  rw [← hfile] at hpreSolid
  obtain ⟨hstored, hpast⟩ := past_writeSegments hpreSolid
    (fun segment hmem => taskSegments_fit isHm hlimit hmem)
  have hnext : (start.store segments).Ready :=
    ⟨hstart.path, hstart.valid, hstart.headerWrites, hstart.writes, hstart.accesses⟩
  have hholds := hstored.holds_past
  rw [hpast] at hholds
  have hkept := onPost_kept isHm contents hnext hholds
  have hwrite : write = ({ code := .success }, releaseTaskBlocks taskBuffers taskId,
      onPost isHm contents (start.store segments)) := by
    have heq : write = asyncTraceWrite isHm contents taskId taskBuffers io := rfl
    rw [heq, asyncTraceWrite, asyncTraceWriteDoCore,
      cpuRawWrite_store isHm hcpu hexist hstart.writable]
  rw [hwrite]
  refine ⟨rfl, hkept.path.trans hpath, ?_⟩
  have hinside : encodeSegments segments <:+: start.file.past ++ encodeSegments segments :=
    (List.suffix_append _ _).isInfix
  exact hinside.trans hkept.holds.starts.isInfix

/-! Reads that end in a named file. -/

/-- `localtime_r` fails on years past the range of `int` alone, and no time in
milliseconds reaches them. -/
def FileEnvironment.KnowsLocalTime (environment : FileEnvironment) : Prop :=
  ∀ milliseconds : UInt64, (environment.localTime (milliseconds / sToMs)).isSome = true

theorem FileEnvironment.generateTraceFileNameByTraceTime_ne_nil_iff
    {environment : FileEnvironment} (hlocal : environment.KnowsLocalTime)
    (traceType : TraceDumpType) (first last : UInt64) :
    copyFileName (environment.generateTraceFileNameByTraceTime traceType first last) ≠
      [] ↔ first < last := by
  rw [generateTraceFileNameByTraceTime]
  by_cases horder : first ≥ last
  · rw [if_pos horder]
    exact iff_of_false (fun hne => hne rfl) (UInt64.not_lt.mpr horder)
  · obtain ⟨timeBuf, htime⟩ := Option.isSome_iff_exists.mp
      (hlocal (environment.convertPageTraceTimeToUtTimeMs first))
    rw [if_neg horder]
    dsimp only
    rw [htime]
    refine iff_of_true ?_ (UInt64.not_le.mp horder)
    exact List.cons_ne_nil _ _

/-- The file has a name, and the write that follows creates it with all blocks of
the task. -/
structure NamedAndWritten (isHm : Bool) (contents : TraceContents) (taskId : UInt64)
    (outputFile : List Char) (taskBuffers : Multimap UInt64 BufferBlock)
    (io : TraceIo) : Prop where
  named : outputFile ≠ []
  code : (asyncTraceWrite isHm contents taskId taskBuffers
    (traceSourceFactory outputFile io)).1.code = .success
  created : (asyncTraceWrite isHm contents taskId taskBuffers
    (traceSourceFactory outputFile io)).2.2.traceFilePath = outputFile
  blocks : encodeSegments (taskSegments isHm (taskBuffers.bucket taskId)) <:+:
    (asyncTraceWrite isHm contents taskId taskBuffers
      (traceSourceFactory outputFile io)).2.2.file.content

theorem namedAndWritten_of_named (isHm : Bool) (contents : TraceContents)
    {taskId : UInt64} {outputFile : List Char}
    {taskBuffers : Multimap UInt64 BufferBlock}
    (hcpu : ∀ block ∈ taskBuffers.bucket taskId, 0 ≤ block.cpu)
    (hlimit : getTaskTotalUsedBytes taskBuffers taskId ≤
      TraceBufferManager.defaultMaxTotalSz)
    {io : TraceIo} (hwritable : io.Writable) (haccesses : io.accesses = [])
    (hnamed : outputFile ≠ []) :
    NamedAndWritten isHm contents taskId outputFile taskBuffers io := by
  have hready : (traceSourceFactory outputFile io).Ready := by
    refine ⟨hnamed, ?_, hwritable.headerWrites, hwritable.writes, haccesses⟩
    simp [traceSourceFactory, hnamed, hwritable.valid]
  obtain ⟨hcode, hpath, hblocks⟩ := asyncTraceWrite_stores isHm contents hcpu hlimit
    hready (Nat.le_refl 0)
  exact ⟨hnamed, hcode, hpath, hblocks⟩

/-- A read that reports success ends in a named file exactly when every pipe
opened and the pages it stored span some time. -/
theorem successful_read_named_iff {environment : FileEnvironment}
    (hlocal : environment.KnowsLocalTime) {source : RawSource}
    {request : TraceDumpRequest} {before after between : Multimap UInt64 BufferBlock}
    {ret : TraceDumpRet} (hfresh : before.bucket request.taskId = [])
    (hread : asyncTraceReadDoCore environment source request before = (ret, after))
    (hsuccess : ret.code = .success)
    (hbetween : between.bucket request.taskId = after.bucket request.taskId)
    (hlimit : getTaskTotalUsedBytes between request.taskId ≤
      TraceBufferManager.defaultMaxTotalSz)
    (contents : TraceContents) {io : TraceIo} (hwritable : io.Writable)
    (haccesses : io.accesses = []) :
    NamedAndWritten source.isHm contents request.taskId ret.outputFile between io ↔
      (∀ pipe ∈ source.pipes, pipe.opens = true) ∧
        SpansTime source.isHm request source.pipes := by
  obtain ⟨hall, _, blocks, hbucket, _, hcpu⟩ := cachePipes_spec source.isHm request
    source.pipes 0 (Int.le_refl 0) { taskBuffers := before }
  have houtcome := asyncTraceRead_outcome hread
  have hstamps := fun hopens : ∀ pipe ∈ source.pipes, pipe.opens = true =>
    stamps_lt_iff source.isHm request hopens before
  rw [getTraceCpuRawRead_eq, traceCpuRawRead_status] at houtcome
  rw [hfresh, List.nil_append] at hbucket
  generalize cachePipes source.isHm request source.pipes 0
    { taskBuffers := before } = cached at houtcome hall hbucket hstamps
  obtain ⟨opened, state⟩ := cached
  dsimp only at houtcome hall hbucket hstamps
  cases houtcome with
  | notOpened =>
      refine iff_of_false (fun hwritten => hwritten.named rfl) ?_
      rintro ⟨hopens, _⟩
      rw [List.all_eq_true.mpr hopens] at hall
      exact Bool.false_ne_true hall
  | released hfailed => exact absurd hsuccess hfailed
  | succeeded hstatus =>
      have hopens : ∀ pipe ∈ source.pipes, pipe.opens = true :=
        List.all_eq_true.mp hall.symm
      rw [← hstamps hopens, ← environment.generateTraceFileNameByTraceTime_ne_nil_iff
        hlocal request.type]
      constructor
      · intro hwritten
        exact ⟨hopens, hwritten.named⟩
      · rintro ⟨_, hnamed⟩
        refine namedAndWritten_of_named source.isHm contents ?_ hlimit hwritable
          haccesses hnamed
        rw [hbetween, hbucket]
        exact hcpu

/-- The clocks of a device at the epoch, in UTC. -/
def epochEnvironment : FileEnvironment where
  clockOffset := 0
  localTime := fun _ => some "19700101000000".toList
  fileExists := fun _ => false
  isDirectory := fun _ => false
  renames := fun _ _ => true
  fileSize := fun _ => none

def hmPages (pages : List RawPage) : RawSource :=
  .hm ⟨⟨true, pages⟩, [true]⟩

def asyncReadRequest : TraceDumpRequest where
  type := .traceAsyncRead
  taskId := 7

def openIo : TraceIo where
  traceFilePath := []
  fdValid := true

theorem successful_read_named_iff_two_pages :
    NamedAndWritten true emptyContents 7
      (asyncTraceReadDoCore epochEnvironment (hmPages [pageAt 3, pageAt 6])
        asyncReadRequest ∅).1.outputFile
      (asyncTraceReadDoCore epochEnvironment (hmPages [pageAt 3, pageAt 6])
        asyncReadRequest ∅).2 openIo := by
  have hlocal : epochEnvironment.KnowsLocalTime := fun _ => rfl
  have hread : asyncTraceReadDoCore epochEnvironment (hmPages [pageAt 3, pageAt 6])
      asyncReadRequest ∅ = (_, _) := rfl
  have hfresh : Multimap.bucket (∅ : Multimap UInt64 BufferBlock)
      asyncReadRequest.taskId = [] := rfl
  have hlimit : getTaskTotalUsedBytes (asyncTraceReadDoCore epochEnvironment
      (hmPages [pageAt 3, pageAt 6]) asyncReadRequest ∅).2 7 ≤
        TraceBufferManager.defaultMaxTotalSz := by decide
  refine (successful_read_named_iff hlocal hfresh hread rfl rfl hlimit emptyContents
    ⟨rfl, rfl, rfl⟩ rfl).mpr ⟨?_, ?_⟩
  · intro pipe hpipe
    rw [List.mem_singleton.mp hpipe]
  · have hstored : storedPages (hmPages [pageAt 3, pageAt 6]).isHm asyncReadRequest
        ⟨⟨true, [pageAt 3, pageAt 6]⟩, [true]⟩ = [pageAt 3, pageAt 6] := by decide
    refine ⟨_, List.mem_singleton_self _, pageAt 3, ?_, _, List.mem_singleton_self _,
      pageAt 6, ?_, by decide⟩
    · rw [hstored]
      rfl
    · rw [hstored]
      exact List.mem_cons_of_mem _ List.mem_cons_self

/-- One page in the window: the read reports success, and its file has no name. -/
theorem one_page_read_has_no_name :
    ¬ ∀ (environment : FileEnvironment) (source : RawSource)
      (request : TraceDumpRequest) (before after between : Multimap UInt64 BufferBlock)
      (ret : TraceDumpRet) (contents : TraceContents) (io : TraceIo),
      environment.KnowsLocalTime → before.bucket request.taskId = [] →
      asyncTraceReadDoCore environment source request before = (ret, after) →
      ret.code = .success →
      between.bucket request.taskId = after.bucket request.taskId →
      getTaskTotalUsedBytes between request.taskId ≤
        TraceBufferManager.defaultMaxTotalSz →
      io.Writable → io.accesses = [] →
        NamedAndWritten source.isHm contents request.taskId ret.outputFile between
          io := by
  intro hclaim
  have hwritten := hclaim epochEnvironment (hmPages [pageAt 3]) asyncReadRequest ∅ _ _ _
    emptyContents openIo (fun _ => rfl) rfl rfl rfl rfl (by decide) ⟨rfl, rfl, rfl⟩ rfl
  exact hwritten.named rfl

end Hitrace
