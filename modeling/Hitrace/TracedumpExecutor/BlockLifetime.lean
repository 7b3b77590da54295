import Hitrace.TracedumpExecutor.DumpStrategy

namespace Hitrace

open Library TraceContent CpuRaw

namespace CpuRaw

/-! What one pipe does to the dump status and to the blocks of the task. -/

/-- The dump status the first page that is not skipped decides. -/
def pagesDecide (request : TraceDumpRequest) : List RawPage → Option TraceErrorCode
  | [] => none
  | page :: rest =>
      match pageValid request page with
      | .early => pagesDecide request rest
      | .late => some .outOfTime
      | .hit => some .success

/-- The manager grants the pipe its first block. -/
def CachePipe.granted (pipe : CachePipe) : Bool := pipe.grants.headD false

def CachePipe.decides (request : TraceDumpRequest) (pipe : CachePipe) :
    Option TraceErrorCode :=
  if pipe.granted then pagesDecide request pipe.pages else none

theorem CopyState.append_cpu (state : CopyState) (page : RawPage) :
    (state.append page).block.cpu = state.block.cpu := by
  simp only [CopyState.append, BufferBlock.append]
  split <;> rfl

theorem copyPages_grows (isHm : Bool) (request : TraceDumpRequest)
    (pages : List RawPage) (state : CopyState) :
    state.blockReadSz ≤ (copyPages isHm request pages state).2.2.blockReadSz ∧
      (copyPages isHm request pages state).2.2.block.cpu = state.block.cpu := by
  induction pages generalizing state with
  | nil => exact ⟨Nat.le_refl _, rfl⟩
  | cons page rest ih =>
      have hcpu := state.append_cpu page
      have hhit : state.blockReadSz ≤ (state.hit isHm page).blockReadSz :=
        Nat.le_add_right _ _
      rw [copyPages]
      split
      · exact ⟨Nat.le_refl _, rfl⟩
      · split
        · exact ⟨Nat.le_add_right _ _, hcpu⟩
        · exact ih state
        · split
          · exact ⟨hhit, hcpu⟩
          · obtain ⟨hle, hblock⟩ := ih (state.hit isHm page)
            exact ⟨Nat.le_trans hhit hle, hblock.trans hcpu⟩

theorem copyPages_none (isHm : Bool) {request : TraceDumpRequest}
    {pages : List RawPage} (state : CopyState) (hstart : state.blockReadSz = 0)
    (hdecide : pagesDecide request pages = none) :
    copyPages isHm request pages state = (true, [], state) := by
  induction pages with
  | nil => simp [copyPages, hstart]
  | cons page rest ih =>
      have hroom : ¬ state.blockReadSz >
          TraceBufferManager.defaultBlockSz - pageSize := by
        rw [hstart]
        exact Nat.not_lt_zero _
      rw [copyPages, if_neg hroom]
      cases hvalid : pageValid request page with
      | late => simp [pagesDecide, hvalid] at hdecide
      | early =>
          rw [pagesDecide, hvalid] at hdecide
          exact ih hdecide
      | hit => simp [pagesDecide, hvalid] at hdecide

theorem copyPages_late (isHm : Bool) {request : TraceDumpRequest}
    {pages : List RawPage} (state : CopyState) (hstart : state.blockReadSz = 0)
    (hfirst : state.printFirstPageTime = false)
    (hdecide : pagesDecide request pages = some .outOfTime) :
    (copyPages isHm request pages state).1 = true ∧
      (copyPages isHm request pages state).2.2.blockReadSz = 0 ∧
      (copyPages isHm request pages state).2.2.status.dumpStatus =
        .outOfTime := by
  induction pages with
  | nil => simp [pagesDecide] at hdecide
  | cons page rest ih =>
      have hroom : ¬ state.blockReadSz >
          TraceBufferManager.defaultBlockSz - pageSize := by
        rw [hstart]
        exact Nat.not_lt_zero _
      rw [copyPages, if_neg hroom]
      cases hvalid : pageValid request page with
      | late => simp [CopyState.late, hstart, hfirst]
      | early =>
          rw [pagesDecide, hvalid] at hdecide
          exact ih hdecide
      | hit => simp [pagesDecide, hvalid] at hdecide

theorem copyPages_hit (isHm : Bool) {request : TraceDumpRequest}
    {pages : List RawPage} (state : CopyState) (hstart : state.blockReadSz = 0)
    (hdecide : pagesDecide request pages = some .success) :
    0 < (copyPages isHm request pages state).2.2.blockReadSz := by
  induction pages with
  | nil => simp [pagesDecide] at hdecide
  | cons page rest ih =>
      have hroom : ¬ state.blockReadSz >
          TraceBufferManager.defaultBlockSz - pageSize := by
        rw [hstart]
        exact Nat.not_lt_zero _
      have hpage : 0 < (state.hit isHm page).blockReadSz := by
        have hheader := page.size.1
        simp only [CopyState.hit]
        omega
      rw [copyPages, if_neg hroom]
      cases hvalid : pageValid request page with
      | late => simp [pagesDecide, hvalid] at hdecide
      | early =>
          rw [pagesDecide, hvalid] at hdecide
          exact ih hdecide
      | hit =>
          dsimp only
          split
          · exact hpage
          · exact Nat.lt_of_lt_of_le hpage (copyPages_grows ..).1

theorem pagesDecide_cases (request : TraceDumpRequest) (pages : List RawPage) :
    pagesDecide request pages = none ∨
      pagesDecide request pages = some .outOfTime ∨
      pagesDecide request pages = some .success := by
  induction pages with
  | nil => exact .inl rfl
  | cons page rest ih =>
      rw [pagesDecide]
      split
      · exact ih
      · exact .inr (.inl rfl)
      · exact .inr (.inr rfl)

theorem copyTracePipeRawLoop_grows (isHm : Bool) (request : TraceDumpRequest)
    (cpu : Int) (grants : List Bool) (pages : List RawPage)
    (locals : CacheLocals) (state : ReadState) :
    locals.writeLen ≤ (copyTracePipeRawLoop isHm request cpu grants pages locals
        state).1.writeLen ∧
      ∃ blocks, (copyTracePipeRawLoop isHm request cpu grants pages locals
          state).2.taskBuffers.bucket request.taskId =
            state.taskBuffers.bucket request.taskId ++ blocks ∧
        (blocks = [] ↔ grants.headD false = false) ∧
        ∀ block ∈ blocks, block.cpu = cpu := by
  induction grants generalizing pages locals state with
  | nil =>
      exact ⟨Nat.le_refl _, [], (List.append_nil _).symm, by simp, nofun⟩
  | cons grant rest ih =>
      cases grant with
      | false =>
          exact ⟨Nat.le_refl _, [], (List.append_nil _).symm, by simp, nofun⟩
      | true =>
          obtain ⟨_, hcpu⟩ := copyPages_grows isHm request pages
            (.start cpu locals state.status)
          rw [copyTracePipeRawLoop]
          split
          · next rest copied hcopy =>
              rw [hcopy] at hcpu
              refine ⟨Nat.le_add_right _ _, [copied.block],
                Multimap.bucket_pushBack_self _ _ _, by simp, ?_⟩
              intro block hmem
              rw [List.mem_singleton.mp hmem]
              exact hcpu
          · next rest copied hcopy =>
              rw [hcopy] at hcpu
              obtain ⟨hle, blocks, hbucket, _, hblocks⟩ := ih rest
                (locals.add copied) (state.store request.taskId copied)
              refine ⟨Nat.le_trans (Nat.le_add_right _ _) hle,
                copied.block :: blocks, ?_, by simp, ?_⟩
              · rw [hbucket, ReadState.store, Multimap.bucket_pushBack_self,
                  List.append_assoc]
                rfl
              · intro block hmem
                rcases List.mem_cons.mp hmem with rfl | hmem
                · exact hcpu
                · exact hblocks block hmem

/-- The status a pipe leaves behind when its first block is granted. -/
theorem copyTracePipeRawLoop_decides (isHm : Bool) (request : TraceDumpRequest)
    (cpu : Int) (grants : List Bool) (pages : List RawPage) (state : ReadState) :
    let (locals, next) :=
      copyTracePipeRawLoop isHm request cpu (true :: grants) pages {} state
    (pagesDecide request pages = some .success → 0 < locals.writeLen) ∧
      (pagesDecide request pages ≠ some .success →
        locals.writeLen = 0 ∧ next.status.dumpStatus =
          (pagesDecide request pages).getD state.status.dumpStatus) := by
  let start : CopyState := .start cpu {} state.status
  rw [copyTracePipeRawLoop]
  rcases pagesDecide_cases request pages with hdecide | hdecide | hdecide
  · have hcopy : copyPages isHm request pages start = (true, [], start) :=
      copyPages_none isHm start rfl hdecide
    rw [show CopyState.start cpu {} state.status = start from rfl, hcopy, hdecide]
    exact ⟨nofun, fun _ => ⟨rfl, rfl⟩⟩
  · obtain ⟨hstop, hsize, hstatus⟩ :=
      copyPages_late isHm start rfl rfl hdecide
    rw [show CopyState.start cpu {} state.status = start from rfl, hdecide]
    obtain ⟨rest, copied, hcopy⟩ : ∃ rest copied,
        copyPages isHm request pages start = (true, rest, copied) :=
      ⟨_, _, Prod.ext hstop rfl⟩
    rw [hcopy] at hsize hstatus ⊢
    refine ⟨nofun, fun _ => ⟨?_, hstatus⟩⟩
    simpa [CacheLocals.add] using hsize
  · have hsize := copyPages_hit isHm start rfl hdecide
    rw [show CopyState.start cpu {} state.status = start from rfl, hdecide]
    refine ⟨fun _ => ?_, fun hne => absurd rfl hne⟩
    obtain ⟨stop, rest, copied, hcopy⟩ : ∃ stop rest copied,
        copyPages isHm request pages start = (stop, rest, copied) :=
      ⟨_, _, _, rfl⟩
    rw [hcopy] at hsize ⊢
    have hadd : 0 < (CacheLocals.add {} copied).writeLen := by
      simpa [CacheLocals.add] using hsize
    cases stop with
    | true => exact hadd
    | false =>
        exact Nat.lt_of_lt_of_le hadd (copyTracePipeRawLoop_grows ..).1

/-- An opened pipe leaves the status it decides, and at least one block exactly
when it was granted the first. -/
theorem cacheTracePipeRawData_spec (isHm : Bool) (request : TraceDumpRequest)
    {pipe : CachePipe} (cpuIdx : Int) (state : ReadState)
    (hopens : pipe.opens = true) :
    ∃ next, cacheTracePipeRawData isHm request pipe cpuIdx state = (true, next) ∧
      next.status.dumpStatus =
        (pipe.decides request).getD state.status.dumpStatus ∧
      ∃ blocks, next.taskBuffers.bucket request.taskId =
          state.taskBuffers.bucket request.taskId ++ blocks ∧
        (blocks = [] ↔ pipe.granted = false) ∧
        ∀ block ∈ blocks, block.cpu = cpuIdx := by
  obtain ⟨⟨opens, pages⟩, grants⟩ := pipe
  cases hopens
  obtain ⟨_, hblocks⟩ := copyTracePipeRawLoop_grows isHm request cpuIdx grants
    pages {} state
  obtain ⟨locals, next, hloop⟩ : ∃ locals next,
      copyTracePipeRawLoop isHm request cpuIdx grants pages {} state =
        (locals, next) := ⟨_, _, rfl⟩
  have hstatus : (locals.writeLen > 0 ∧
        CachePipe.decides request ⟨⟨true, pages⟩, grants⟩ = some .success) ∨
      (locals.writeLen = 0 ∧ next.status.dumpStatus =
        (CachePipe.decides request ⟨⟨true, pages⟩, grants⟩).getD
          state.status.dumpStatus) := by
    match grants with
    | [] =>
        cases hloop
        exact .inr ⟨rfl, rfl⟩
    | false :: rest =>
        cases hloop
        exact .inr ⟨rfl, rfl⟩
    | true :: rest =>
        have hdecides :=
          copyTracePipeRawLoop_decides isHm request cpuIdx rest pages state
        rw [hloop] at hdecides
        by_cases hdecide : pagesDecide request pages = some .success
        · exact .inl ⟨hdecides.1 hdecide, hdecide⟩
        · exact .inr (hdecides.2 hdecide)
  rw [hloop] at hblocks
  simp only [cacheTracePipeRawData, hloop, Bool.not_true, Bool.false_eq_true,
    if_false]
  rcases hstatus with ⟨hlen, hdecide⟩ | ⟨hlen, hdump⟩
  · rw [if_pos hlen, hdecide]
    exact ⟨_, rfl, rfl, hblocks⟩
  · rw [if_neg (by omega)]
    exact ⟨_, rfl, hdump, hblocks⟩

/-- The pipes that are read before one fails to open. -/
def openedPipes (pipes : List CachePipe) : List CachePipe :=
  pipes.takeWhile fun pipe => pipe.opens

/-- The dump status after these pipes: the last one that decides. -/
def decidedStatus (request : TraceDumpRequest) (status : TraceErrorCode)
    (pipes : List CachePipe) : TraceErrorCode :=
  pipes.foldl (fun status pipe => (pipe.decides request).getD status) status

theorem cachePipes_spec (isHm : Bool) (request : TraceDumpRequest)
    (pipes : List CachePipe) (cpuIdx : Int) (hcpu : 0 ≤ cpuIdx)
    (state : ReadState) :
    (cachePipes isHm request pipes cpuIdx state).1 =
        pipes.all (fun pipe => pipe.opens) ∧
      (cachePipes isHm request pipes cpuIdx state).2.status.dumpStatus =
        decidedStatus request state.status.dumpStatus (openedPipes pipes) ∧
      ∃ blocks, (cachePipes isHm request pipes cpuIdx
          state).2.taskBuffers.bucket request.taskId =
            state.taskBuffers.bucket request.taskId ++ blocks ∧
        (blocks = [] ↔ ∀ pipe ∈ openedPipes pipes, pipe.granted = false) ∧
        ∀ block ∈ blocks, 0 ≤ block.cpu := by
  induction pipes generalizing cpuIdx state with
  | nil => exact ⟨rfl, rfl, [], (List.append_nil _).symm, by simp [openedPipes], nofun⟩
  | cons pipe rest ih =>
      by_cases hopens : pipe.opens = true
      · obtain ⟨next, hcache, hstatus, blocks, hbucket, hgranted, hblocks⟩ :=
          cacheTracePipeRawData_spec isHm request cpuIdx state hopens
        obtain ⟨hall, hdump, more, hmore, hrest, hmoreCpu⟩ :=
          ih (cpuIdx + 1) (by omega) next
        have hopened : openedPipes (pipe :: rest) = pipe :: openedPipes rest :=
          List.takeWhile_cons_of_pos hopens
        rw [cachePipes, hcache, hopened]
        refine ⟨?_, ?_, blocks ++ more, ?_, ?_, ?_⟩
        · rw [List.all_cons, hopens, Bool.true_and]
          exact hall
        · rw [decidedStatus, List.foldl_cons, ← hstatus]
          exact hdump
        · rw [← List.append_assoc, ← hbucket]
          exact hmore
        · rw [List.append_eq_nil_iff, hgranted, hrest, List.forall_mem_cons]
        · intro block hmem
          rcases List.mem_append.mp hmem with hmem | hmem
          · exact (hblocks block hmem).symm ▸ hcpu
          · exact hmoreCpu block hmem
      · have hcache : cacheTracePipeRawData isHm request pipe cpuIdx state =
            (false, state) := by
          simp [cacheTracePipeRawData, hopens]
        have hopened : openedPipes (pipe :: rest) = [] :=
          List.takeWhile_cons_of_neg hopens
        rw [cachePipes, hcache, hopened]
        refine ⟨by simp [hopens], rfl, [], (List.append_nil _).symm, by simp, nofun⟩

/-! What the write needs to come to its release. -/

theorem doWriteTraceContentHeader_iff (header : TraceFileContentHeader)
    (contentType : UInt8) (io : TraceIo) :
    (doWriteTraceContentHeader header contentType io).1 = true ↔
      io.fdValid = true ∧
        (io.headerWrites.headD .complete).Covers contentHeaderSize := by
  have hlength : (TraceFileContentHeader.bytes
      { header with type := contentType }).length = contentHeaderSize :=
    TraceFileContentHeader.length_bytes _
  unfold doWriteTraceContentHeader TraceIo.writeHeader TraceIo.syscallWrite
  cases hvalid : io.fdValid with
  | false => simp [contentHeaderSize]
  | true =>
      cases houtcome : io.headerWrites.headD .complete with
      | complete => simp [WriteOutcome.Covers]
      | short count =>
          simp only [if_true, List.length_take, hlength, WriteOutcome.Covers,
            decide_eq_true_eq, true_and]
          omega
      | failed => simp [WriteOutcome.Covers, contentHeaderSize]

/-- The coming header writes up to `count` all complete, on an open file. -/
def HeadersComplete (count : Nat) (io : TraceIo) : Prop :=
  io.fdValid = true ∧
    ∀ outcome ∈ io.headerWrites.take count, outcome.Covers contentHeaderSize

theorem headersComplete_succ (count : Nat) (io : TraceIo) :
    HeadersComplete (count + 1) io ↔
      (io.fdValid = true ∧
        (io.headerWrites.headD .complete).Covers contentHeaderSize) ∧
      HeadersComplete count { io with headerWrites := io.headerWrites.tail } := by
  unfold HeadersComplete
  cases io.headerWrites with
  | nil => simp [WriteOutcome.Covers]
  | cons outcome rest =>
      simp only [List.take_succ_cons, List.forall_mem_cons, List.headD_cons,
        List.tail_cons]
      tauto

/-- Both files are open or closed alike and face the same header outcomes. -/
def SameHeaders (io next : TraceIo) : Prop :=
  next.fdValid = io.fdValid ∧ next.headerWrites = io.headerWrites

theorem headersComplete_congr {count : Nat} {io next : TraceIo}
    (hsame : SameHeaders io next) :
    HeadersComplete count next ↔ HeadersComplete count io := by
  rw [HeadersComplete, HeadersComplete, hsame.1, hsame.2]

theorem doWriteTraceContentHeader_headers {header next : TraceFileContentHeader}
    {contentType : UInt8} {io opened : TraceIo} {written : Bool}
    (hwrite : doWriteTraceContentHeader header contentType io =
      (written, next, opened)) :
    SameHeaders { io with headerWrites := io.headerWrites.tail } opened := by
  obtain ⟨file, hheader⟩ :=
    writeHeader_eq io { header with type := contentType }.bytes
  simp only [doWriteTraceContentHeader, Prod.mk.injEq] at hwrite
  rw [hheader] at hwrite
  rw [← hwrite.2.2]
  exact ⟨rfl, rfl⟩

theorem doWriteTraceData_headers {buffer : List UInt8} {writeLen after : Int}
    {io next : TraceIo}
    (hwrite : doWriteTraceData buffer writeLen io = (after, next)) :
    SameHeaders io next := by
  obtain ⟨file, hdata⟩ := doWriteTraceData_eq buffer writeLen io
  rw [hwrite] at hdata
  cases hdata
  exact ⟨rfl, rfl⟩

theorem updateTraceContentHeader_headers {header after : TraceFileContentHeader}
    {writeLen : UInt32} {io next : TraceIo}
    (hupdate : updateTraceContentHeader header writeLen io = (after, next)) :
    SameHeaders io next := by
  obtain ⟨file, writes, size, heq⟩ :=
    updateTraceContentHeader_eq header writeLen io
  rw [hupdate] at heq
  cases heq
  exact ⟨rfl, rfl⟩

theorem SameHeaders.trans {first second third : TraceIo}
    (hfirst : SameHeaders first second) (hsecond : SameHeaders second third) :
    SameHeaders first third :=
  ⟨hsecond.1.trans hfirst.1, hsecond.2.trans hfirst.2⟩

theorem writeBlocksLinux_iff (blocks : List BufferBlock)
    (hcpu : ∀ block ∈ blocks, 0 ≤ block.cpu) (header : TraceFileContentHeader)
    (writeLen : Int) (io : TraceIo) :
    (writeBlocksLinux blocks header writeLen io).1 = true ↔
      blocks = [] ∨ HeadersComplete blocks.length io := by
  induction blocks generalizing header writeLen io with
  | nil => simp [writeBlocksLinux]
  | cons block rest ih =>
      have hblock : block.cpu ≠ -1 := by
        have hpos := hcpu block List.mem_cons_self
        omega
      have hwritten := doWriteTraceContentHeader_iff header
        (ContentType.cpuRaw + UInt8.ofNat block.cpu.toNat) io
      rw [List.length_cons, headersComplete_succ, ← hwritten]
      simp only [writeBlocksLinux, if_pos hblock, List.cons_ne_nil, false_or]
      cases hopen : doWriteTraceContentHeader header
        (ContentType.cpuRaw + UInt8.ofNat block.cpu.toNat) io with
      | mk written opened =>
          obtain ⟨rawHeader, opened⟩ := opened
          rw [hopen] at hwritten
          cases written with
          | false => simp
          | true =>
              simp only [Bool.not_true, Bool.false_eq_true, if_false, true_and]
              cases hdata : doWriteTraceData block.data 0 opened with
              | mk blockLen stored =>
                  cases hupdate : updateTraceContentHeader rawHeader
                    (UInt32.ofNat blockLen.toNat) stored with
                  | mk after next =>
                      have hsame := (doWriteTraceContentHeader_headers hopen).trans
                        ((doWriteTraceData_headers hdata).trans
                          (updateTraceContentHeader_headers hupdate))
                      rw [ih fun other hmem =>
                        hcpu other (List.mem_cons_of_mem _ hmem)]
                      rw [headersComplete_congr hsame]
                      refine or_iff_right_of_imp fun hrest => ?_
                      rw [hrest]
                      exact ⟨(hwritten.mp rfl).1, nofun⟩

theorem isFileExist_headers (io : TraceIo) : SameHeaders io io.isFileExist.2 := by
  unfold TraceIo.isFileExist
  split
  · exact ⟨rfl, rfl⟩
  · exact ⟨rfl, rfl⟩

/-- The write reaches its release: the file check passes and every header it
puts down, one a block on Linux, a single one otherwise, is written whole. -/
def WriteReleases (isHm : Bool) (blockCount : Nat) (io : TraceIo) : Prop :=
  io.isFileExist.1 = true ∧ HeadersComplete (if isHm then 1 else blockCount) io

theorem traceCpuRawWriteLinux_iff (taskId : UInt64)
    (taskBuffers : Multimap UInt64 BufferBlock) (io : TraceIo)
    (hblocks : taskBuffers.bucket taskId ≠ [])
    (hcpu : ∀ block ∈ taskBuffers.bucket taskId, 0 ≤ block.cpu) :
    Multimap.bucket (traceCpuRawWriteLinux taskId taskBuffers io).2.1 taskId = [] ↔
      WriteReleases false (taskBuffers.bucket taskId).length io := by
  have hexist := isFileExist_headers io
  unfold traceCpuRawWriteLinux WriteReleases
  cases hcheck : io.isFileExist with
  | mk found opened =>
      rw [hcheck] at hexist
      cases found with
      | false => simpa using hblocks
      | true =>
          have hwrite := writeBlocksLinux_iff (taskBuffers.bucket taskId) hcpu
            {} 0 opened
          rw [headersComplete_congr hexist] at hwrite
          simp only [hblocks, false_or] at hwrite
          simp only [Bool.not_true, Bool.false_eq_true, if_false, true_and,
            ← hwrite, getTaskBuffers]
          cases hloop : writeBlocksLinux (taskBuffers.bucket taskId) {} 0 opened with
          | mk written next =>
              cases written with
              | false => simpa using hblocks
              | true => simp [releaseTaskBlocks]

theorem traceCpuRawWriteHM_iff (taskId : UInt64)
    (taskBuffers : Multimap UInt64 BufferBlock) (io : TraceIo)
    (hblocks : taskBuffers.bucket taskId ≠ []) :
    Multimap.bucket (traceCpuRawWriteHM taskId taskBuffers io).2.1 taskId = [] ↔
      WriteReleases true (taskBuffers.bucket taskId).length io := by
  have hexist := isFileExist_headers io
  unfold traceCpuRawWriteHM WriteReleases
  cases hcheck : io.isFileExist with
  | mk found opened =>
      rw [hcheck] at hexist
      cases found with
      | false => simpa using hblocks
      | true =>
          have hwrite := doWriteTraceContentHeader_iff {} ContentType.cpuRaw opened
          have hone := headersComplete_succ 0 opened
          rw [← hwrite, headersComplete_congr hexist] at hone
          simp only [if_true, true_and, hone]
          cases hopen : doWriteTraceContentHeader {} ContentType.cpuRaw opened with
          | mk written rest =>
              cases written with
              | false => simpa using hblocks
              | true =>
                  have hvalid := (hwrite.mp (by rw [hopen])).1
                  simp [releaseTaskBlocks, HeadersComplete, hvalid]

end CpuRaw

theorem asyncTraceWrite_bucket (isHm : Bool) (contents : TraceContents)
    (taskId : UInt64) (taskBuffers : Multimap UInt64 BufferBlock) (io : TraceIo) :
    (asyncTraceWrite isHm contents taskId taskBuffers io).2.1 =
      (if isHm then traceCpuRawWriteHM taskId taskBuffers (onPre isHm contents io)
        else traceCpuRawWriteLinux taskId taskBuffers
          (onPre isHm contents io)).2.1 := by
  unfold asyncTraceWrite asyncTraceWriteDoCore
  dsimp only
  generalize (if isHm then
    traceCpuRawWriteHM taskId taskBuffers (onPre isHm contents io)
    else traceCpuRawWriteLinux taskId taskBuffers (onPre isHm contents io)) =
      written
  obtain ⟨released, buffers, next⟩ := written
  cases released with
  | false => rfl
  | true => rfl

theorem asyncTraceWrite_iff (isHm : Bool) (contents : TraceContents)
    (taskId : UInt64) (taskBuffers : Multimap UInt64 BufferBlock) (io : TraceIo)
    (hblocks : taskBuffers.bucket taskId ≠ [])
    (hcpu : ∀ block ∈ taskBuffers.bucket taskId, 0 ≤ block.cpu) :
    Multimap.bucket (asyncTraceWrite isHm contents taskId taskBuffers io).2.1
        taskId = [] ↔
      WriteReleases isHm (taskBuffers.bucket taskId).length
        (onPre isHm contents io) := by
  rw [asyncTraceWrite_bucket]
  cases isHm with
  | false => exact traceCpuRawWriteLinux_iff taskId taskBuffers _ hblocks hcpu
  | true => exact traceCpuRawWriteHM_iff taskId taskBuffers _ hblocks

/-- The write keeps the blocks or drops those of its task. -/
theorem asyncTraceWrite_blocks (isHm : Bool) (contents : TraceContents)
    (taskId : UInt64) (before : Multimap UInt64 BufferBlock) (io : TraceIo) :
    (asyncTraceWrite isHm contents taskId before io).2.1 = before ∨
      (asyncTraceWrite isHm contents taskId before io).2.1 =
        releaseTaskBlocks before taskId := by
  rw [asyncTraceWrite_bucket]
  cases isHm with
  | true =>
      simp only [if_true, traceCpuRawWriteHM]
      repeat' split
      all_goals first | exact .inl rfl | exact .inr rfl
  | false =>
      simp only [Bool.false_eq_true, if_false, traceCpuRawWriteLinux]
      repeat' split
      all_goals first | exact .inl rfl | exact .inr rfl

theorem asyncTraceWrite_empty (isHm : Bool) (contents : TraceContents)
    (taskId : UInt64) (taskBuffers : Multimap UInt64 BufferBlock) (io : TraceIo)
    (hempty : taskBuffers.bucket taskId = []) :
    Multimap.bucket (asyncTraceWrite isHm contents taskId taskBuffers io).2.1
      taskId = [] := by
  rcases asyncTraceWrite_blocks isHm contents taskId taskBuffers io with
    hkept | hreleased
  · rw [hkept]
    exact hempty
  · rw [hreleased]
    exact Multimap.bucket_erase_self taskBuffers taskId

theorem onPre_sameFile (isHm : Bool) (contents : TraceContents) (io : TraceIo) :
    SameFile io (onPre isHm contents io) := by
  have hevents : ∀ io, SameFile io (traceEventFmt isHm contents.eventFmt io).2 := by
    intro io
    unfold traceEventFmt
    split
    · exact writeTraceData_sameFile _ _
        (writeTraceDataContent_sameFile isHm _) io
    · exact writeTraceContentInline_sameFile _ io
  have hreset : SameFile io { io with outputFileSize := 0 } := ⟨rfl, rfl⟩
  exact hreset.trans ((traceFileHdr_sameFile ..).trans
    ((traceBaseInfo_sameFile ..).trans (hevents _)))

/-- Some pipe fails to open after an earlier one has been granted a block. -/
def LeaksOnOpen (pipes : List CachePipe) : Prop :=
  (∃ pipe ∈ pipes, pipe.opens = false) ∧
    ∃ pipe ∈ openedPipes pipes, pipe.granted = true

/-- Every pipe opens and the last one to decide has a page in the window. -/
def ReadSucceeds (request : TraceDumpRequest) (pipes : List CachePipe) : Prop :=
  (∀ pipe ∈ pipes, pipe.opens = true) ∧
    decidedStatus request .unset (openedPipes pipes) = .success

theorem granted_of_decidedStatus {request : TraceDumpRequest}
    {pipes : List CachePipe} {status : TraceErrorCode}
    (hstatus : status ≠ .success)
    (hdecided : decidedStatus request status pipes = .success) :
    ∃ pipe ∈ pipes, pipe.granted = true := by
  induction pipes generalizing status with
  | nil => exact absurd hdecided hstatus
  | cons pipe rest ih =>
      cases hgranted : pipe.granted with
      | true => exact ⟨pipe, List.mem_cons_self, hgranted⟩
      | false =>
          have hnone : pipe.decides request = none := by
            simp [CachePipe.decides, hgranted]
          rw [decidedStatus, List.foldl_cons, hnone] at hdecided
          obtain ⟨other, hmem, hother⟩ := ih hstatus hdecided
          exact ⟨other, List.mem_cons_of_mem _ hmem, hother⟩

/-- How a read ends: a pipe did not open, no page was in the window, or there is
something to write. -/
inductive ReadOutcome (traceFile : List Char) (request : TraceDumpRequest)
    (state : ReadState) :
    Bool → TraceDumpRet → Multimap UInt64 BufferBlock → Prop
  | notOpened : ReadOutcome traceFile request state false
      { code := state.status.dumpStatus } state.taskBuffers
  | released (hfailed : state.status.dumpStatus ≠ .success) :
      ReadOutcome traceFile request state true
        { code := state.status.dumpStatus }
        (releaseTaskBlocks state.taskBuffers request.taskId)
  | succeeded (hsuccess : state.status.dumpStatus = .success)
      {fileSize : Int} {traceStartTime traceEndTime : UInt64} :
      ReadOutcome traceFile request state true
        { code := .success, outputFile := copyFileName traceFile, fileSize,
          traceStartTime, traceEndTime } state.taskBuffers

theorem getTraceCpuRawRead_eq (source : RawSource) (request : TraceDumpRequest)
    (taskBuffers : Multimap UInt64 BufferBlock) :
    getTraceCpuRawRead source request taskBuffers =
      traceCpuRawRead source.isHm request source.pipes taskBuffers := by
  cases source with
  | linux pipes => rfl
  | hm pipe => rfl

theorem asyncTraceRead_outcome {source : RawSource} {traceFile : List Char}
    {request : TraceDumpRequest} {before after : Multimap UInt64 BufferBlock}
    {ret : TraceDumpRet}
    (hread : asyncTraceRead source traceFile request before = (ret, after)) :
    ReadOutcome traceFile request
      (cachePipes source.isHm request source.pipes 0
        { taskBuffers := before }).2
      (cachePipes source.isHm request source.pipes 0
        { taskBuffers := before }).1 ret after := by
  rw [asyncTraceRead, getTraceCpuRawRead_eq, traceCpuRawRead] at hread
  cases hcache : cachePipes source.isHm request source.pipes 0
      { taskBuffers := before } with
  | mk opened state =>
      rw [hcache] at hread
      cases opened with
      | false =>
          cases hread
          exact .notOpened
      | true =>
          by_cases hsuccess : state.status.dumpStatus = .success
          · simp only [hsuccess, ne_eq, not_true_eq_false, if_false] at hread
            cases hread
            exact .succeeded hsuccess
          · simp only [ne_eq, hsuccess, not_false_eq_true, if_true] at hread
            cases hread
            exact .released hsuccess

/-- What the read leaves of a task that held no block before. -/
theorem asyncTraceRead_cases (source : RawSource) (traceFile : List Char)
    (request : TraceDumpRequest) (taskBuffers : Multimap UInt64 BufferBlock)
    (hfresh : taskBuffers.bucket request.taskId = []) :
    let read := asyncTraceRead source traceFile request taskBuffers
    let blocks := read.2.bucket request.taskId
    (blocks = [] ∧ ¬ LeaksOnOpen source.pipes ∧
      ¬ ReadSucceeds request source.pipes) ∨
    (blocks ≠ [] ∧ LeaksOnOpen source.pipes ∧ read.1.outputFile = [] ∧
      ∀ block ∈ blocks, 0 ≤ block.cpu) ∨
    (blocks ≠ [] ∧ ¬ LeaksOnOpen source.pipes ∧
      ReadSucceeds request source.pipes ∧ read.1.code = .success ∧
      read.1.outputFile = copyFileName traceFile ∧
      ∀ block ∈ blocks, 0 ≤ block.cpu) := by
  obtain ⟨hall, hstatus, blocks, hbucket, hgranted, hcpu⟩ :=
    cachePipes_spec source.isHm request source.pipes 0 (Int.le_refl 0)
      { taskBuffers }
  cases hread : asyncTraceRead source traceFile request taskBuffers with
  | mk ret after =>
      have houtcome := asyncTraceRead_outcome hread
      generalize cachePipes source.isHm request source.pipes 0 { taskBuffers } =
        cached at houtcome hall hstatus hbucket
      obtain ⟨opened, state⟩ := cached
      simp only [hfresh, List.nil_append] at hbucket
      dsimp only at houtcome hall hstatus ⊢
      have hnotLeaks : opened = true → ¬ LeaksOnOpen source.pipes := by
        rintro rfl ⟨⟨pipe, hmem, hpipe⟩, _⟩
        exact absurd (List.all_eq_true.mp hall.symm pipe hmem) (by simp [hpipe])
      cases houtcome with
      | notOpened =>
          have hclosed : ∃ pipe ∈ source.pipes, pipe.opens = false := by
            simpa using hall.symm
          rw [hbucket]
          by_cases hblocks : blocks = []
          · refine .inl ⟨hblocks, ?_, ?_⟩
            · rintro ⟨_, pipe, hmem, hpipe⟩
              exact absurd (hgranted.mp hblocks pipe hmem) (by simp [hpipe])
            · rintro ⟨hopens, _⟩
              obtain ⟨pipe, hmem, hpipe⟩ := hclosed
              exact absurd (hopens pipe hmem) (by simp [hpipe])
          · refine .inr (.inl ⟨hblocks, ⟨hclosed, ?_⟩, rfl, hcpu⟩)
            by_contra hnone
            refine hblocks (hgranted.mpr fun pipe hmem => ?_)
            exact Bool.eq_false_iff.mpr fun hpipe => hnone ⟨pipe, hmem, hpipe⟩
      | released hfailed =>
          refine .inl ⟨Multimap.bucket_erase_self _ _, hnotLeaks rfl, ?_⟩
          intro hsucceeds
          exact hfailed (hstatus.trans hsucceeds.2)
      | succeeded hsuccess =>
          have hcode : decidedStatus request .unset
              (openedPipes source.pipes) = .success := hstatus.symm.trans hsuccess
          have hopens : ∀ pipe ∈ source.pipes, pipe.opens = true :=
            List.all_eq_true.mp hall.symm
          rw [hbucket]
          refine .inr (.inr ⟨?_, hnotLeaks rfl, ⟨hopens, hcode⟩, rfl, rfl, hcpu⟩)
          intro hblocks
          obtain ⟨pipe, hmem, hpipe⟩ :=
            granted_of_decidedStatus (by decide) hcode
          exact absurd (hgranted.mp hblocks pipe hmem) (by simp [hpipe])

/-- A task that starts without blocks ends without blocks exactly when no pipe
fails to open behind a granted block and, after a read that succeeds, the write
gets to its release.  `between` is the map as other tasks left it when the write
starts. -/
theorem task_blocks_released_iff (source : RawSource) (contents : TraceContents)
    (traceFile : List Char) (request : TraceDumpRequest) (environment : TraceIo)
    (taskBuffers between : Multimap UInt64 BufferBlock)
    (hfresh : taskBuffers.bucket request.taskId = [])
    (hbetween : between.bucket request.taskId =
      (asyncTraceRead source traceFile request taskBuffers).2.bucket
        request.taskId) :
    let read := asyncTraceRead source traceFile request taskBuffers
    let write := asyncTraceWrite source.isHm contents request.taskId between
      (traceSourceFactory read.1.outputFile environment)
    ((read.1.code ≠ .success → read.2.bucket request.taskId = []) ∧
      (read.1.code = .success →
        Multimap.bucket write.2.1 request.taskId = [])) ↔
      ¬ LeaksOnOpen source.pipes ∧
        (ReadSucceeds request source.pipes →
          WriteReleases source.isHm (between.bucket request.taskId).length
            (onPre source.isHm contents
              (traceSourceFactory (copyFileName traceFile) environment))) := by
  intro read write
  have hcases :=
    asyncTraceRead_cases source traceFile request taskBuffers hfresh
  dsimp only at hcases
  rw [← hbetween] at hcases
  rcases hcases with ⟨hblocks, hnotLeaks, hnotSucceeds⟩ |
    ⟨hblocks, hleaks, hfile, hcpu⟩ |
    ⟨hblocks, hnotLeaks, hsucceeds, hcode, hfile, hcpu⟩
  · refine iff_of_true ⟨fun _ => hbetween ▸ hblocks, fun _ => ?_⟩
      ⟨hnotLeaks, fun hsucceeds => absurd hsucceeds hnotSucceeds⟩
    exact asyncTraceWrite_empty _ _ _ _ _ hblocks
  · refine iff_of_false ?_ fun hholds => hholds.1 hleaks
    rintro ⟨hfailed, hwritten⟩
    by_cases hcode : read.1.code = .success
    · have hreleases := (asyncTraceWrite_iff source.isHm contents request.taskId
        between _ hblocks hcpu).mp (hwritten hcode)
      have hvalid := (onPre_sameFile source.isHm contents
        (traceSourceFactory read.1.outputFile environment)).fdValid
      have hopen := hvalid.symm.trans hreleases.2.1
      simp [read, hfile, traceSourceFactory] at hopen
    · exact hblocks (hbetween.trans (hfailed hcode))
  · have hiff := asyncTraceWrite_iff source.isHm contents request.taskId
      between (traceSourceFactory read.1.outputFile environment) hblocks hcpu
    constructor
    · rintro ⟨_, hwritten⟩
      refine ⟨hnotLeaks, fun _ => ?_⟩
      rw [← hfile]
      exact hiff.mp (hwritten hcode)
    · rintro ⟨_, hreleases⟩
      refine ⟨fun hne => absurd hcode hne, fun _ => hiff.mpr ?_⟩
      have hwrite := hreleases hsucceeds
      rw [← hfile] at hwrite
      exact hwrite

def emptyContents : TraceContents where
  is32Bit := false
  cpuNums := 1
  baseInfo := ⟨[], 0, 0⟩
  eventFmt := .saved (some [])
  cmdLines := .kernel (some [])
  processes := none
  tgids := .kernel (some [])
  headerPage := some []
  printkFormats := some []

/-- One page in the window, read from one processor and written. -/
theorem task_blocks_released_iff_one_page :
    ∃ (source : RawSource) (request : TraceDumpRequest) (environment : TraceIo)
      (read : TraceDumpRet × Multimap UInt64 BufferBlock),
      read = asyncTraceRead source ['a'] request ∅ ∧ read.1.code = .success ∧
      read.2.bucket request.taskId ≠ [] ∧
      Multimap.bucket (asyncTraceWrite source.isHm emptyContents request.taskId
        read.2 (traceSourceFactory read.1.outputFile environment)).2.1
          request.taskId = [] := by
  let page : RawPage := ⟨List.replicate 8 0, 0, by decide⟩
  let source : RawSource := .linux [⟨⟨true, [page]⟩, [true]⟩]
  let request : TraceDumpRequest := { type := .traceAsyncRead, taskId := 7 }
  let environment : TraceIo := { traceFilePath := [], fdValid := true }
  have hiff := task_blocks_released_iff source emptyContents ['a'] request
    environment ∅ _ rfl rfl
  have hnotLeaks : ¬ LeaksOnOpen source.pipes := by
    rintro ⟨⟨pipe, hmem, hclosed⟩, _⟩
    cases List.mem_singleton.mp hmem
    exact nomatch hclosed
  have hreleases : WriteReleases source.isHm 1 (onPre source.isHm emptyContents
      (traceSourceFactory (copyFileName ['a']) environment)) :=
    ⟨rfl, rfl, nofun⟩
  exact ⟨source, request, environment, _, rfl, rfl, List.cons_ne_nil _ _,
    (hiff.mpr ⟨hnotLeaks, fun _ => hreleases⟩).2 rfl⟩

/-- The first pipe is granted a block, the second fails to open: the read ends
with UNSET and the block stays. -/
theorem failed_open_keeps_block :
    ¬ ∀ (source : RawSource) (contents : TraceContents) (traceFile : List Char)
      (request : TraceDumpRequest) (environment : TraceIo)
      (taskBuffers between : Multimap UInt64 BufferBlock),
      taskBuffers.bucket request.taskId = [] →
      between.bucket request.taskId =
        (asyncTraceRead source traceFile request taskBuffers).2.bucket
          request.taskId →
      let read := asyncTraceRead source traceFile request taskBuffers
      let write := asyncTraceWrite source.isHm contents request.taskId between
        (traceSourceFactory read.1.outputFile environment)
      (read.1.code ≠ .success → read.2.bucket request.taskId = []) ∧
        (read.1.code = .success →
          Multimap.bucket write.2.1 request.taskId = []) := by
  intro hclaim
  let source : RawSource := .linux [⟨⟨true, []⟩, [true]⟩, ⟨⟨false, []⟩, []⟩]
  have hkept := (hclaim source emptyContents ['a'] { taskId := 7 }
    { traceFilePath := [], fdValid := true } ∅ _ rfl rfl).1 (by decide)
  exact absurd hkept (List.cons_ne_nil _ _)

end Hitrace
