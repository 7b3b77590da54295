import Hitrace.TraceFactory.RawSegments
import Hitrace.TracedumpExecutor.BlockLifetime

namespace Hitrace

open Library TraceContent

namespace CpuRaw

/-! One processor, captured into the file and captured into blocks. -/

/-- No size limit is in force. -/
def Unlimited (request : TraceDumpRequest) : Prop :=
  (request.type ≠ .traceRecording ∧ request.type ≠ .traceCache) ∨
    request.limitFileSz = false

/-- The bytes `ReadTracePipeRawLoop` keeps when nothing limits it. -/
def takenBytes (isHm : Bool) (request : TraceDumpRequest) :
    List RawPage → Nat → Bool → List UInt8
  | [], _, _ => []
  | page :: rest, pageChkFailedTime, printFirstPageTime =>
      match pageValid request page with
      | .late => if printFirstPageTime then page.bytes else []
      | .early => takenBytes isHm request rest pageChkFailedTime printFirstPageTime
      | .hit =>
          let pageChkFailedTime :=
            failedTime isHm page.pageHeaderSize pageChkFailedTime
          page.bytes ++
            if pageChkFailedTime ≥ 2 then []
            else takenBytes isHm request rest pageChkFailedTime true

/-- The bytes `CopyTracePipeRawLoop` appends, over all its blocks. -/
def copiedBytes (isHm : Bool) (request : TraceDumpRequest) :
    List RawPage → Nat → List UInt8
  | [], _ => []
  | page :: rest, pageChkFailedTime =>
      match pageValid request page with
      | .late => page.bytes
      | .early => copiedBytes isHm request rest pageChkFailedTime
      | .hit =>
          let pageChkFailedTime :=
            failedTime isHm page.pageHeaderSize pageChkFailedTime
          page.bytes ++
            if pageChkFailedTime ≥ 2 then []
            else copiedBytes isHm request rest pageChkFailedTime

def stamped (isHm : Bool) (request : TraceDumpRequest) :
    List RawPage → Nat → Bool → RawStatus → RawStatus
  | [], _, _, status => status
  | page :: rest, pageChkFailedTime, printFirstPageTime, status =>
      match pageValid request page with
      | .late => status
      | .early =>
          stamped isHm request rest pageChkFailedTime printFirstPageTime status
      | .hit =>
          let pageChkFailedTime :=
            failedTime isHm page.pageHeaderSize pageChkFailedTime
          let status := updateFirstLastPageTimeStamp page.pageTraceTime
            printFirstPageTime status
          if pageChkFailedTime ≥ 2 then status
          else stamped isHm request rest pageChkFailedTime true status

def RawStatus.stamps (status : RawStatus) : UInt64 × UInt64 :=
  (status.firstPageTimeStamp, status.lastPageTimeStamp)

theorem updateFirstLastPageTimeStamp_stamps {left right : RawStatus}
    (hsame : left.stamps = right.stamps) (time : UInt64) (print : Bool) :
    (updateFirstLastPageTimeStamp time print left).stamps =
      (updateFirstLastPageTimeStamp time print right).stamps := by
  obtain ⟨hfirst, hlast⟩ := Prod.mk.inj hsame
  simp only [RawStatus.stamps, updateFirstLastPageTimeStamp, hfirst, hlast]

theorem stamped_stamps (isHm : Bool) (request : TraceDumpRequest)
    (pages : List RawPage) (failed : Nat) (print : Bool) {left right : RawStatus}
    (hsame : left.stamps = right.stamps) :
    (stamped isHm request pages failed print left).stamps =
      (stamped isHm request pages failed print right).stamps := by
  induction pages generalizing failed print left right with
  | nil => exact hsame
  | cons page rest ih =>
      simp only [stamped]
      cases pageValid request page with
      | late => exact hsame
      | early => exact ih failed print hsame
      | hit =>
          have hupdate := updateFirstLastPageTimeStamp_stamps hsame
            page.pageTraceTime print
          dsimp only
          split
          · exact hupdate
          · exact ih _ true hupdate

/-! The two selections differ on the page past the window alone. -/

theorem copiedBytes_of_printed (isHm : Bool) (request : TraceDumpRequest)
    (pages : List RawPage) (failed : Nat) :
    copiedBytes isHm request pages failed =
      takenBytes isHm request pages failed true := by
  induction pages generalizing failed with
  | nil => rfl
  | cons page rest ih =>
      simp only [copiedBytes, takenBytes]
      cases pageValid request page with
      | late => rfl
      | early => exact ih failed
      | hit => simp only [ih]

theorem copiedBytes_eq_iff (isHm : Bool) (request : TraceDumpRequest)
    (pages : List RawPage) (failed : Nat) :
    copiedBytes isHm request pages failed =
        takenBytes isHm request pages failed false ↔
      pagesDecide request pages ≠ some .outOfTime := by
  induction pages with
  | nil => simp [copiedBytes, takenBytes, pagesDecide]
  | cons page rest ih =>
      simp only [copiedBytes, takenBytes, pagesDecide]
      cases pageValid request page with
      | late =>
          have hbytes : page.bytes ≠ [] := by
            intro hnil
            have hsize := page.size.1
            simp [hnil] at hsize
          simpa using hbytes
      | early => exact ih
      | hit => simp [copiedBytes_of_printed]

/-! The loop into the file. -/

theorem overflows_unlimited {request : TraceDumpRequest}
    (hunlimited : Unlimited request) (outputFileSize : Int32) (writeLen : Int) :
    overflows request outputFileSize writeLen = false :=
  if_pos hunlimited

theorem takenPages_unlimited (isHm : Bool) {request : TraceDumpRequest}
    (hunlimited : Unlimited request) (outputFileSize : Int32)
    (pages : List RawPage) (buffered : Nat) (writeLen : Int) (failed : Nat)
    (print : Bool) :
    takenPages isHm request outputFileSize pages buffered writeLen failed print =
      takenBytes isHm request pages failed print := by
  induction pages generalizing buffered writeLen failed print with
  | nil => rfl
  | cons page rest ih =>
      cases hvalid : pageValid request page <;>
        simp only [takenPages, takenBytes, hvalid, overflows_unlimited hunlimited,
          Bool.and_false, Bool.false_eq_true, if_false, ih]

theorem flushFull_unlimited {request : TraceDumpRequest}
    (hunlimited : Unlimited request) (state : PipeState) :
    ∃ next, state.flushFull request = (false, next) ∧
      next.pageChkFailedTime = state.pageChkFailedTime ∧
      next.printFirstPageTime = state.printFirstPageTime ∧
      next.status = state.status := by
  rw [PipeState.flushFull]
  split
  · exact ⟨state, rfl, rfl, rfl, rfl⟩
  · refine ⟨(state.flush request).2, Prod.ext ?_ rfl, rfl, rfl, rfl⟩
    exact overflows_unlimited hunlimited _ _

theorem writeTracePipeRawLoop_stamps (isHm : Bool) {request : TraceDumpRequest}
    (hunlimited : Unlimited request) (pages : List RawPage) (state : PipeState) :
    (writeTracePipeRawLoop isHm request pages state).status.stamps =
      (stamped isHm request pages state.pageChkFailedTime state.printFirstPageTime
        state.status).stamps := by
  induction pages generalizing state with
  | nil =>
      obtain ⟨next, hflush, hfailed, hprint, hstatus⟩ :=
        flushFull_unlimited hunlimited state
      rw [writeTracePipeRawLoop, hflush, ← hstatus]
      rfl
  | cons page rest ih =>
      obtain ⟨next, hflush, hfailed, hprint, hstatus⟩ :=
        flushFull_unlimited hunlimited state
      rw [writeTracePipeRawLoop, hflush, stamped, ← hfailed, ← hprint, ← hstatus]
      dsimp only
      cases pageValid request page with
      | late => rfl
      | early => exact ih next
      | hit =>
          have hhit : (next.hit isHm page).pageChkFailedTime =
              failedTime isHm page.pageHeaderSize next.pageChkFailedTime := rfl
          dsimp only
          rw [hhit]
          split
          · rfl
          · exact ih (next.hit isHm page)

theorem writeTracePipeRawData_stamps (isHm : Bool) {request : TraceDumpRequest}
    (hunlimited : Unlimited request) (pipe : RawPipe) (cpuIdx : Nat)
    {content next : RawContent}
    (hwrite : writeTracePipeRawData isHm request pipe cpuIdx content =
      (true, next)) :
    next.status.stamps =
      (stamped isHm request pipe.pages 0 false content.status).stamps := by
  rw [writeTracePipeRawData] at hwrite
  dsimp only at hwrite
  split at hwrite
  · cases hwrite
  · split at hwrite
    · cases hwrite
    · cases hwrite
      exact writeTracePipeRawLoop_stamps isHm hunlimited pipe.pages _

/-! The loop into the blocks. -/

/-- Every page still fits the block while the loop goes on. -/
structure CopyState.Roomy (bufferSz : Nat) (state : CopyState) : Prop where
  size : state.block.size = bufferSz
  data : state.block.data.length = state.blockReadSz

theorem CopyState.Roomy.append {bufferSz : Nat} {state : CopyState}
    (hroomy : state.Roomy bufferSz) (hpage : pageSize ≤ bufferSz) (page : RawPage)
    (hroom : ¬ state.blockReadSz > bufferSz - pageSize) :
    (state.append page).block.data = state.block.data ++ page.bytes ∧
      (state.append page).block.size = bufferSz := by
  have hsize := page.size.2
  have hfree : ¬ state.block.freeBytes < page.bytes.length := by
    rw [BufferBlock.freeBytes, BufferBlock.usedBytes, hroomy.size, hroomy.data]
    omega
  simp only [CopyState.append, BufferBlock.append, dif_neg hfree, Option.getD_some]
  exact ⟨trivial, hroomy.size⟩

theorem CopyState.Roomy.hit (isHm : Bool) {bufferSz : Nat} {state : CopyState}
    (hroomy : state.Roomy bufferSz) (hpage : pageSize ≤ bufferSz) (page : RawPage)
    (hroom : ¬ state.blockReadSz > bufferSz - pageSize) :
    (state.hit isHm page).Roomy bufferSz := by
  obtain ⟨hdata, hsize⟩ := hroomy.append hpage page hroom
  refine ⟨hsize, ?_⟩
  have hlength : (state.hit isHm page).block.data = state.block.data ++ page.bytes :=
    hdata
  rw [hlength, List.length_append, hroomy.data]
  rfl

theorem copyPages_rest_le (isHm : Bool) (request : TraceDumpRequest)
    (pages : List RawPage) (state : CopyState) (bufferSz : Nat) :
    (copyPages isHm request pages state bufferSz).2.1.length ≤ pages.length := by
  induction pages generalizing state with
  | nil => exact Nat.le_refl _
  | cons page rest ih =>
      rw [copyPages]
      split
      · exact Nat.le_refl _
      · split
        · exact Nat.le_succ _
        · exact Nat.le_succ_of_le (ih state)
        · split
          · exact Nat.le_succ _
          · exact Nat.le_succ_of_le (ih (state.hit isHm page))

/-- A block that is left for the next one has taken a page. -/
theorem copyPages_rest_lt (isHm : Bool) (request : TraceDumpRequest)
    (pages : List RawPage) (state : CopyState) (bufferSz : Nat)
    (hroom : ¬ state.blockReadSz > bufferSz - pageSize)
    (hgoes : (copyPages isHm request pages state bufferSz).1 = false) :
    (copyPages isHm request pages state bufferSz).2.1.length < pages.length := by
  cases pages with
  | nil => exact absurd hgoes (by simpa [copyPages] using hroom)
  | cons page rest =>
      rw [copyPages, if_neg hroom] at hgoes ⊢
      rw [List.length_cons, Nat.lt_succ_iff]
      cases hvalid : pageValid request page with
      | late => simp [hvalid] at hgoes
      | early => exact copyPages_rest_le ..
      | hit =>
          dsimp only
          split
          · exact Nat.le_refl _
          · exact copyPages_rest_le ..

/-- The pages still to come when one block has been filled. -/
def leftPages (result : Bool × List RawPage × CopyState) : List RawPage :=
  if result.1 then [] else result.2.1

/-- A filled block, together with what the pages still to come add, holds what
all the pages add to the block as it was. -/
structure Copied (isHm : Bool) (request : TraceDumpRequest) (pages : List RawPage)
    (state : CopyState) (left : List RawPage) (copied : CopyState) : Prop where
  data : copied.block.data ++
      copiedBytes isHm request left copied.pageChkFailedTime =
    state.block.data ++ copiedBytes isHm request pages state.pageChkFailedTime
  size : copied.blockReadSz + (takenBytes isHm request left
      copied.pageChkFailedTime copied.printFirstPageTime).length =
    state.blockReadSz + (takenBytes isHm request pages state.pageChkFailedTime
      state.printFirstPageTime).length
  stamps : (stamped isHm request left copied.pageChkFailedTime
      copied.printFirstPageTime copied.status).stamps =
    (stamped isHm request pages state.pageChkFailedTime state.printFirstPageTime
      state.status).stamps

theorem Copied.refl (isHm : Bool) (request : TraceDumpRequest)
    (pages : List RawPage) (state : CopyState) :
    Copied isHm request pages state pages state :=
  ⟨rfl, rfl, rfl⟩

theorem Copied.late {isHm : Bool} {request : TraceDumpRequest} {page : RawPage}
    (rest : List RawPage) {state : CopyState} {bufferSz : Nat}
    (hroomy : state.Roomy bufferSz) (hpage : pageSize ≤ bufferSz)
    (hroom : ¬ state.blockReadSz > bufferSz - pageSize)
    (hvalid : pageValid request page = .late) :
    Copied isHm request (page :: rest) state [] (state.late page) := by
  obtain ⟨hdata, _⟩ := hroomy.append hpage page hroom
  refine ⟨?_, ?_, ?_⟩
  · simp only [copiedBytes, hvalid, List.append_nil]
    exact hdata
  · simp only [takenBytes, hvalid, List.length_nil, CopyState.late]
    split <;> rfl
  · simp only [stamped, hvalid]
    rfl

theorem Copied.early {isHm : Bool} {request : TraceDumpRequest} {page : RawPage}
    {rest left : List RawPage} {state copied : CopyState}
    (hcopied : Copied isHm request rest state left copied)
    (hvalid : pageValid request page = .early) :
    Copied isHm request (page :: rest) state left copied := by
  obtain ⟨hdata, hsize, hstamps⟩ := hcopied
  refine ⟨?_, ?_, ?_⟩
  · simpa only [copiedBytes, hvalid] using hdata
  · simpa only [takenBytes, hvalid] using hsize
  · simpa only [stamped, hvalid] using hstamps

theorem Copied.stop {isHm : Bool} {request : TraceDumpRequest} {page : RawPage}
    (rest : List RawPage) {state : CopyState} {bufferSz : Nat}
    (hroomy : state.Roomy bufferSz) (hpage : pageSize ≤ bufferSz)
    (hroom : ¬ state.blockReadSz > bufferSz - pageSize)
    (hvalid : pageValid request page = .hit)
    (hfailed : failedTime isHm page.pageHeaderSize state.pageChkFailedTime ≥ 2) :
    Copied isHm request (page :: rest) state [] (state.hit isHm page) := by
  obtain ⟨hdata, _⟩ := hroomy.append hpage page hroom
  refine ⟨?_, ?_, ?_⟩
  · simp only [copiedBytes, hvalid, if_pos hfailed, List.append_nil]
    exact hdata
  · simp only [takenBytes, hvalid, if_pos hfailed, List.append_nil,
      List.length_nil]
    rfl
  · simp only [stamped, hvalid, if_pos hfailed]
    rfl

theorem Copied.hit {isHm : Bool} {request : TraceDumpRequest} {page : RawPage}
    {rest left : List RawPage} {state copied : CopyState} {bufferSz : Nat}
    (hcopied : Copied isHm request rest (state.hit isHm page) left copied)
    (hroomy : state.Roomy bufferSz) (hpage : pageSize ≤ bufferSz)
    (hroom : ¬ state.blockReadSz > bufferSz - pageSize)
    (hvalid : pageValid request page = .hit)
    (hfailed : ¬ failedTime isHm page.pageHeaderSize state.pageChkFailedTime ≥ 2) :
    Copied isHm request (page :: rest) state left copied := by
  obtain ⟨happend, _⟩ := hroomy.append hpage page hroom
  have hblock : (state.hit isHm page).block.data = state.block.data ++ page.bytes :=
    happend
  obtain ⟨hdata, hsize, hstamps⟩ := hcopied
  refine ⟨?_, ?_, ?_⟩
  · rw [hdata, hblock, List.append_assoc]
    simp only [copiedBytes, hvalid, if_neg hfailed]
    rfl
  · rw [hsize]
    simp only [takenBytes, hvalid, if_neg hfailed, List.length_append,
      ← Nat.add_assoc]
    rfl
  · rw [hstamps]
    simp only [stamped, hvalid, if_neg hfailed]
    rfl

theorem copyPages_copied (isHm : Bool) (request : TraceDumpRequest)
    (pages : List RawPage) {state : CopyState} {bufferSz : Nat}
    (hroomy : state.Roomy bufferSz) (hpage : pageSize ≤ bufferSz) :
    Copied isHm request pages state
      (leftPages (copyPages isHm request pages state bufferSz))
      (copyPages isHm request pages state bufferSz).2.2 := by
  induction pages generalizing state with
  | nil =>
      have hleft : leftPages (copyPages isHm request [] state bufferSz) = [] := by
        rw [leftPages]
        split <;> rfl
      rw [hleft]
      exact Copied.refl isHm request [] state
  | cons page rest ih =>
      rw [copyPages]
      split
      · exact Copied.refl isHm request (page :: rest) state
      · next hroom =>
          cases hvalid : pageValid request page with
          | late => exact Copied.late rest hroomy hpage hroom hvalid
          | early => exact (ih hroomy).early hvalid
          | hit =>
              dsimp only
              split
              · next hfailed =>
                  exact Copied.stop rest hroomy hpage hroom hvalid hfailed
              · next hfailed =>
                  exact (ih (hroomy.hit isHm hpage page hroom)).hit hroomy hpage
                    hroom hvalid hfailed

/-- What all the blocks of one pipe hold, and what the reader counts for them. -/
theorem copyTracePipeRawLoop_copied (isHm : Bool) (request : TraceDumpRequest)
    (cpu : Int) {grants : List Bool} {pages : List RawPage} (locals : CacheLocals)
    (state : ReadState) {bufferSz : Nat} (hpage : pageSize ≤ bufferSz)
    (hgrants : ∀ grant ∈ grants, grant = true)
    (henough : pages.length < grants.length) :
    let (counted, next) := copyTracePipeRawLoop isHm request cpu grants pages locals
      state bufferSz
    ∃ blocks : List BufferBlock,
      next.taskBuffers.bucket request.taskId =
        state.taskBuffers.bucket request.taskId ++ blocks ∧
      blocks.flatMap BufferBlock.data =
        copiedBytes isHm request pages locals.pageChkFailedTime ∧
      counted.writeLen = locals.writeLen + (takenBytes isHm request pages
        locals.pageChkFailedTime locals.printFirstPageTime).length ∧
      next.status.stamps = (stamped isHm request pages locals.pageChkFailedTime
        locals.printFirstPageTime state.status).stamps := by
  induction grants generalizing pages locals state with
  | nil => exact absurd henough (Nat.not_lt_zero _)
  | cons grant rest ih =>
      obtain ⟨hgrant, hothers⟩ := List.forall_mem_cons.mp hgrants
      cases hgrant
      have hroomy : (CopyState.start cpu locals state.status bufferSz).Roomy
          bufferSz := ⟨rfl, rfl⟩
      have hcopied := copyPages_copied isHm request pages hroomy hpage
      have hrest := copyPages_rest_lt isHm request pages
        (.start cpu locals state.status bufferSz) bufferSz (Nat.not_lt_zero _)
      rw [copyTracePipeRawLoop]
      generalize copyPages isHm request pages
        (.start cpu locals state.status bufferSz) bufferSz = result at hcopied hrest
      obtain ⟨stop, left, copied⟩ := result
      obtain ⟨hdata, hsize, hstamps⟩ := hcopied
      have hstart : (CopyState.start cpu locals state.status bufferSz).block.data =
          [] := rfl
      rw [hstart, List.nil_append] at hdata
      have hcount : (CopyState.start cpu locals state.status bufferSz).blockReadSz =
          0 := rfl
      rw [hcount, Nat.zero_add] at hsize
      cases stop with
      | true =>
          refine ⟨[copied.block], Multimap.bucket_pushBack_self _ _ _, ?_, ?_,
            hstamps⟩
          · rw [List.flatMap_singleton, ← List.append_nil copied.block.data]
            exact hdata
          · exact congrArg (locals.writeLen + ·) hsize
      | false =>
          have hfewer : left.length < rest.length := by
            have hlt := hrest rfl
            rw [List.length_cons] at henough
            dsimp only at hlt
            omega
          obtain ⟨blocks, hbucket, hbytes, hlen, hstamp⟩ :=
            ih (locals.add copied) (state.store request.taskId copied) hothers hfewer
          refine ⟨copied.block :: blocks, ?_, ?_, ?_, hstamp.trans hstamps⟩
          · rw [hbucket, ReadState.store, Multimap.bucket_pushBack_self,
              List.append_assoc]
            rfl
          · rw [List.flatMap_cons, hbytes]
            exact hdata
          · rw [hlen, CacheLocals.add, Nat.add_assoc]
            exact congrArg (locals.writeLen + ·) hsize

theorem traceCpuRawRead_status (isHm : Bool) (request : TraceDumpRequest)
    (pipes : List CachePipe) (taskBuffers : Multimap UInt64 BufferBlock) :
    (traceCpuRawRead isHm request pipes taskBuffers).2.status =
      (cachePipes isHm request pipes 0 { taskBuffers }).2.status := by
  rw [traceCpuRawRead]
  generalize cachePipes isHm request pipes 0 { taskBuffers } = result
  obtain ⟨opened, state⟩ := result
  cases opened with
  | false => rfl
  | true =>
      dsimp only
      split <;> rfl

/-! Whether the two captures agree. -/

/-- Where `WriteTracePipeRawData` starts to read, once its header is out. -/
def RawContent.opened (content : RawContent) : PipeState where
  status := content.status
  isOverFlow := content.isOverFlow
  io := content.io

def writtenPipe (isHm : Bool) (request : TraceDumpRequest) (pipe : RawPipe)
    (content : RawContent) : PipeState :=
  writeTracePipeRawLoop isHm request pipe.pages content.opened

def writtenPayload (isHm : Bool) (request : TraceDumpRequest) (pipe : RawPipe)
    (content : RawContent) : List UInt8 :=
  (writtenPipe isHm request pipe content).io.file.content.drop
    content.io.file.content.length

/-- The blocks that one call of `CacheTracePipeRawData` adds to its task. -/
def cachedBlocks (isHm : Bool) (request : TraceDumpRequest) (pipe : CachePipe)
    (cpuIdx : Int) (state : ReadState) (bufferSz : Nat) : List BufferBlock :=
  (getTaskBuffers (cacheTracePipeRawData isHm request pipe cpuIdx state
    bufferSz).2.taskBuffers request.taskId).drop
      (getTaskBuffers state.taskBuffers request.taskId).length

structure CapturesAgree (isHm : Bool) (request : TraceDumpRequest)
    (pipe : CachePipe) (cpuIdx : Int) (bufferSz : Nat) (content : RawContent)
    (state : ReadState) : Prop where
  bytes : (cachedBlocks isHm request pipe cpuIdx state bufferSz).flatMap
      BufferBlock.data = writtenPayload isHm request pipe.toRawPipe content
  usedBytes : (((cachedBlocks isHm request pipe cpuIdx state bufferSz).map
      BufferBlock.usedBytes).sum : Int) =
    (writtenPipe isHm request pipe.toRawPipe content).writeLen
  firstPageTimeStamp : (cacheTracePipeRawData isHm request pipe cpuIdx state
      bufferSz).2.status.firstPageTimeStamp =
    (writtenPipe isHm request pipe.toRawPipe content).status.firstPageTimeStamp
  lastPageTimeStamp : (cacheTracePipeRawData isHm request pipe cpuIdx state
      bufferSz).2.status.lastPageTimeStamp =
    (writtenPipe isHm request pipe.toRawPipe content).status.lastPageTimeStamp

section Agreement

variable (isHm : Bool) {request : TraceDumpRequest} (pipe : CachePipe)
  (cpuIdx : Int) {bufferSz : Nat} {content : RawContent} (state : ReadState)

theorem writtenPipe_put (hunlimited : Unlimited request)
    (hwritable : content.io.Writable) :
    PipePut content.opened
      (takenBytes isHm request pipe.pages 0 false)
      (writtenPipe isHm request pipe.toRawPipe content) := by
  have hput := writeTracePipeRawLoop_put isHm request pipe.pages content.opened
    hwritable
  rw [LoopPut, PipeState.takenPages, takenPages_unlimited isHm hunlimited] at hput
  exact hput

theorem writtenPayload_eq (hunlimited : Unlimited request)
    (hwritable : content.io.Writable) (hend : content.io.file.AtEnd) :
    writtenPayload isHm request pipe.toRawPipe content =
      takenBytes isHm request pipe.pages 0 false := by
  have hopened : content.opened.io.file.AtEnd := hend
  rw [writtenPayload, (writtenPipe_put isHm pipe hunlimited hwritable).io, TraceIo.put]
  dsimp only
  rw [hopened.write]
  exact List.drop_left

theorem cacheTracePipeRawData_copied (request : TraceDumpRequest)
    (hopens : pipe.opens = true)
    (hpage : pageSize ≤ bufferSz) (hgrants : ∀ grant ∈ pipe.grants, grant = true)
    (henough : pipe.pages.length < pipe.grants.length) :
    (cachedBlocks isHm request pipe cpuIdx state bufferSz).flatMap BufferBlock.data =
        copiedBytes isHm request pipe.pages 0 ∧
      (cacheTracePipeRawData isHm request pipe cpuIdx state
        bufferSz).2.status.stamps =
          (stamped isHm request pipe.pages 0 false state.status).stamps := by
  have hloop := copyTracePipeRawLoop_copied isHm request cpuIdx {} state hpage
    hgrants henough
  rw [cachedBlocks, cacheTracePipeRawData, hopens]
  generalize copyTracePipeRawLoop isHm request cpuIdx pipe.grants pipe.pages {}
    state bufferSz = result at hloop
  obtain ⟨counted, next⟩ := result
  obtain ⟨blocks, hbucket, hbytes, _, hstamps⟩ := hloop
  have hdrop : (getTaskBuffers next.taskBuffers request.taskId).drop
      (getTaskBuffers state.taskBuffers request.taskId).length = blocks := by
    rw [getTaskBuffers, getTaskBuffers, hbucket]
    exact List.drop_left
  rw [← hbytes, ← hdrop]
  simp only [Bool.not_true, Bool.false_eq_true, if_false]
  split
  · exact ⟨rfl, hstamps⟩
  · exact ⟨rfl, hstamps⟩

theorem capturesAgree_iff_bytes (hunlimited : Unlimited request)
    (hopens : pipe.opens = true) (hpage : pageSize ≤ bufferSz)
    (hgrants : ∀ grant ∈ pipe.grants, grant = true)
    (henough : pipe.pages.length < pipe.grants.length)
    (hwritable : content.io.Writable) (hend : content.io.file.AtEnd)
    (hstamps : state.status.stamps = content.status.stamps) :
    CapturesAgree isHm request pipe cpuIdx bufferSz content state ↔
      copiedBytes isHm request pipe.pages 0 =
        takenBytes isHm request pipe.pages 0 false := by
  obtain ⟨hblocks, hcached⟩ := cacheTracePipeRawData_copied isHm pipe cpuIdx
    state request hopens hpage hgrants henough
  have hput := writtenPipe_put isHm pipe hunlimited hwritable
  have hpayload := writtenPayload_eq isHm pipe hunlimited hwritable hend
  constructor
  · intro hagree
    rw [← hblocks, hagree.bytes, hpayload]
  · intro hsame
    have hstamped : (cacheTracePipeRawData isHm request pipe cpuIdx state
        bufferSz).2.status.stamps =
          (writtenPipe isHm request pipe.toRawPipe content).status.stamps := by
      rw [hcached, writtenPipe, writeTracePipeRawLoop_stamps isHm hunlimited]
      exact stamped_stamps isHm request pipe.pages 0 false hstamps
    obtain ⟨hfirst, hlast⟩ := Prod.mk.inj hstamped
    refine ⟨by rw [hblocks, hpayload, hsame], ?_, hfirst, hlast⟩
    have hsum : ((cachedBlocks isHm request pipe cpuIdx state bufferSz).map
        BufferBlock.usedBytes).sum =
          (takenBytes isHm request pipe.pages 0 false).length := by
      rw [← hsame, ← hblocks, List.length_flatMap]
      rfl
    rw [hsum, hput.writeLen]
    exact (Int.zero_add _).symm

/-- The two captures of a processor agree unless the first of its pages that is
not before the window lies past it. -/
theorem captures_agree_iff (hunlimited : Unlimited request)
    (hopens : pipe.opens = true) (hpositive : 0 < bufferSz)
    (hmultiple : pageSize ∣ bufferSz)
    (hgrants : ∀ grant ∈ pipe.grants, grant = true)
    (henough : pipe.pages.length < pipe.grants.length)
    (hwritable : content.io.Writable) (hend : content.io.file.AtEnd)
    (hstamps : state.status.stamps = content.status.stamps) :
    CapturesAgree isHm request pipe cpuIdx bufferSz content state ↔
      pagesDecide request pipe.pages ≠ some .outOfTime := by
  have hpage : pageSize ≤ bufferSz := Nat.le_of_dvd hpositive hmultiple
  rw [capturesAgree_iff_bytes isHm pipe cpuIdx state hunlimited hopens hpage hgrants
    henough hwritable hend hstamps]
  exact copiedBytes_eq_iff isHm request pipe.pages 0

end Agreement

/-- A page of the given time whose check passes. -/
def pageAt (time : UInt8) : RawPage where
  bytes := [time, 0, 0, 0, 0, 0, 0, 0]
  pageHeaderSize := 4096
  size := ⟨by simp, by simp [pageSize]⟩

def emptyTraceFile : RawContent where
  io := { traceFilePath := ['t'], fdValid := true }

theorem captures_agree_iff_three_pages :
    CapturesAgree false { traceStartTime := 5, traceEndTime := 8 }
      ⟨⟨true, [pageAt 3, pageAt 6, pageAt 9]⟩, [true, true, true, true]⟩ 0 8192
      emptyTraceFile { taskBuffers := ∅ } := by
  refine (captures_agree_iff false _ 0 _ ?_ ?_ ?_ ?_ ?_ ?_ ?_ ?_ ?_).mpr ?_
  · exact Or.inr rfl
  · rfl
  · decide
  · decide
  · decide
  · decide
  · exact ⟨rfl, rfl, rfl⟩
  · rfl
  · rfl
  · decide

theorem late_page_is_cached :
    ¬ ∀ (isHm : Bool) (request : TraceDumpRequest) (pipe : CachePipe) (cpuIdx : Int)
      (bufferSz : Nat) (content : RawContent) (state : ReadState),
      Unlimited request → pipe.opens = true → 0 < bufferSz → pageSize ∣ bufferSz →
      (∀ grant ∈ pipe.grants, grant = true) →
      pipe.pages.length < pipe.grants.length → content.io.Writable →
      content.io.file.AtEnd → state.status.stamps = content.status.stamps →
        CapturesAgree isHm request pipe cpuIdx bufferSz content state := by
  intro hagree
  have hwritable : emptyTraceFile.io.Writable := ⟨rfl, rfl, rfl⟩
  have hlate := hagree false { traceStartTime := 5, traceEndTime := 8 }
    ⟨⟨true, [pageAt 9]⟩, [true, true]⟩ 0 4096 emptyTraceFile { taskBuffers := ∅ }
    (Or.inr rfl) rfl (by decide) (by decide) (by decide) (by decide) hwritable rfl rfl
  rw [capturesAgree_iff_bytes false _ 0 _ (Or.inr rfl) rfl (by decide) (by decide)
    (by decide) hwritable rfl rfl] at hlate
  revert hlate
  decide

end CpuRaw

end Hitrace
