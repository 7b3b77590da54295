import Hitrace.TraceFactory.Container

namespace Hitrace

open Library TraceContent

namespace CpuRaw

/-! The segments of the raw trace. -/

/-- The size test of one pipe, against the limit of the request. -/
def overflows (request : TraceDumpRequest) (outputFileSize : Int32)
    (writeLen : Int) : Bool :=
  isWriteFileOverflow request outputFileSize writeLen
    (if request.fileSize ≠ 0 then request.fileSize else defaultFileSize * kbPerMb)

/-- The pages of a pipe that go into the file: those in the window up to the
first one past it, the second one that fails the page check, or a full buffer
after which the file is too large. -/
def takenPages (isHm : Bool) (request : TraceDumpRequest) (outputFileSize : Int32) :
    List RawPage → Nat → Int → Nat → Bool → List UInt8
  | [], _, _, _, _ => []
  | page :: rest, buffered, writeLen, pageChkFailedTime, printFirstPageTime =>
      let full := decide (bufferSize - pageSize < buffered)
      if full && overflows request outputFileSize (writeLen + buffered) then []
      else
        let buffered' := if full then 0 else buffered
        let writeLen' := if full then writeLen + buffered else writeLen
        match pageValid request page with
        | .late => if printFirstPageTime then page.bytes else []
        | .early =>
            takenPages isHm request outputFileSize rest buffered' writeLen'
              pageChkFailedTime printFirstPageTime
        | .hit =>
            let pageChkFailedTime :=
              failedTime isHm page.pageHeaderSize pageChkFailedTime
            page.bytes ++
              if pageChkFailedTime ≥ 2 then []
              else
                takenPages isHm request outputFileSize rest
                  (buffered' + page.bytes.length) writeLen' pageChkFailedTime true

/-- What is known of a pipe that has put `bytes` into the file since `start`. -/
structure PipePut (start : PipeState) (bytes : List UInt8) (state : PipeState) :
    Prop where
  io : state.io = start.io.put bytes
  writeLen : state.writeLen = start.writeLen + bytes.length

theorem PipeState.flush_put (request : TraceDumpRequest) {state : PipeState}
    (hwritable : state.io.Writable) :
    (state.flush request).1 = overflows request state.io.outputFileSize
        (state.writeLen + state.buffer.length) ∧
      PipePut state state.buffer (state.flush request).2 := by
  unfold PipeState.flush
  rw [doWriteTraceData_writable hwritable]
  exact ⟨rfl, rfl, rfl⟩

theorem PipePut.trans {start middle state : PipeState} {first second : List UInt8}
    (hfirst : PipePut start first middle) (hsecond : PipePut middle second state) :
    PipePut start (first ++ second) state := by
  refine ⟨?_, ?_⟩
  · rw [hsecond.io, hfirst.io, TraceIo.put_put]
  · rw [hsecond.writeLen, hfirst.writeLen, List.length_append, Int.natCast_add,
      Int.add_assoc]

def PipeState.takenPages (isHm : Bool) (request : TraceDumpRequest)
    (pages : List RawPage) (state : PipeState) : List UInt8 :=
  CpuRaw.takenPages isHm request state.io.outputFileSize pages
    state.buffer.length state.writeLen state.pageChkFailedTime
    state.printFirstPageTime

theorem PipeState.flush_buffer (request : TraceDumpRequest) (state : PipeState) :
    (state.flush request).2.buffer = [] ∧
      (state.flush request).2.pageChkFailedTime = state.pageChkFailedTime ∧
      (state.flush request).2.printFirstPageTime = state.printFirstPageTime :=
  ⟨rfl, rfl, rfl⟩

theorem flushFull_of_nil (request : TraceDumpRequest) {state : PipeState}
    (hbuffer : state.buffer = []) : state.flushFull request = (false, state) := by
  rw [PipeState.flushFull, if_pos]
  rw [hbuffer]
  exact Nat.zero_le _

/-- A full buffer goes out before the next page is looked at. -/
theorem writeTracePipeRawLoop_full (isHm : Bool) (request : TraceDumpRequest)
    (pages : List RawPage) {state : PipeState}
    (hfull : ¬ state.buffer.length ≤ bufferSize - pageSize) :
    writeTracePipeRawLoop isHm request pages state =
      if (state.flush request).1 then (state.flush request).2
      else writeTracePipeRawLoop isHm request pages (state.flush request).2 := by
  have hflush : state.flushFull request = state.flush request := if_neg hfull
  have hempty := flushFull_of_nil request (state.flush_buffer request).1
  cases pages with
  | nil =>
      rw [writeTracePipeRawLoop, writeTracePipeRawLoop, hflush, hempty]
      generalize state.flush request = flushed
      obtain ⟨overflow, next⟩ := flushed
      cases overflow with
      | true => rfl
      | false => rfl
  | cons page rest =>
      rw [writeTracePipeRawLoop, writeTracePipeRawLoop, hflush, hempty]
      generalize state.flush request = flushed
      obtain ⟨overflow, next⟩ := flushed
      cases overflow with
      | true => rfl
      | false => rfl

theorem takenPages_full (isHm : Bool) {request : TraceDumpRequest}
    {outputFileSize : Int32} (pages : List RawPage) {buffered : Nat}
    {writeLen : Int} (pageChkFailedTime : Nat) (printFirstPageTime : Bool)
    (hfull : ¬ buffered ≤ bufferSize - pageSize)
    (hroom : overflows request outputFileSize (writeLen + buffered) = false) :
    takenPages isHm request outputFileSize pages buffered writeLen
        pageChkFailedTime printFirstPageTime =
      takenPages isHm request outputFileSize pages 0 (writeLen + buffered)
        pageChkFailedTime printFirstPageTime := by
  cases pages with
  | nil => rfl
  | cons page rest =>
      have hlt : bufferSize - pageSize < buffered := Nat.lt_of_not_le hfull
      have hzero : ¬ bufferSize - pageSize < 0 := Nat.not_lt_zero _
      rw [takenPages, takenPages]
      simp only [decide_eq_true hlt, decide_eq_false hzero, hroom,
        Bool.and_false, Bool.false_and, Bool.false_eq_true, if_false, if_true]

theorem takenPages_overflow (isHm : Bool) {request : TraceDumpRequest}
    {outputFileSize : Int32} (pages : List RawPage) {buffered : Nat}
    {writeLen : Int} (pageChkFailedTime : Nat) (printFirstPageTime : Bool)
    (hfull : ¬ buffered ≤ bufferSize - pageSize)
    (hover : overflows request outputFileSize (writeLen + buffered) = true) :
    takenPages isHm request outputFileSize pages buffered writeLen
      pageChkFailedTime printFirstPageTime = [] := by
  cases pages with
  | nil => rfl
  | cons page rest =>
      have hlt : bufferSize - pageSize < buffered := Nat.lt_of_not_le hfull
      rw [takenPages]
      simp only [decide_eq_true hlt, hover, Bool.and_self, if_true]

/-- The loop has put the buffer and the pages it takes into the file. -/
def LoopPut (isHm : Bool) (request : TraceDumpRequest) (pages : List RawPage)
    (state : PipeState) : Prop :=
  PipePut state (state.buffer ++ state.takenPages isHm request pages)
    (writeTracePipeRawLoop isHm request pages state)

theorem loopPut_of_open {isHm : Bool} {request : TraceDumpRequest}
    {pages : List RawPage}
    (hopen : ∀ state : PipeState, state.io.Writable →
      state.buffer.length ≤ bufferSize - pageSize →
        LoopPut isHm request pages state)
    {state : PipeState} (hwritable : state.io.Writable) :
    LoopPut isHm request pages state := by
  by_cases hroom : state.buffer.length ≤ bufferSize - pageSize
  · exact hopen state hwritable hroom
  · obtain ⟨hoverflow, hput⟩ := state.flush_put request hwritable
    rw [LoopPut, writeTracePipeRawLoop_full isHm request pages hroom, hoverflow]
    cases hover : overflows request state.io.outputFileSize
        (state.writeLen + state.buffer.length) with
    | true =>
        have htaken : state.takenPages isHm request pages = [] :=
          takenPages_overflow isHm pages _ _ hroom hover
        rw [htaken, List.append_nil]
        exact hput
    | false =>
        have hflushed : (state.flush request).2.io.Writable := by
          rw [hput.io]
          exact hwritable.put _
        have hrest := hopen _ hflushed (Nat.zero_le _)
        have htaken : state.takenPages isHm request pages =
            (state.flush request).2.takenPages isHm request pages := by
          rw [PipeState.takenPages, PipeState.takenPages, hput.io, hput.writeLen]
          exact takenPages_full isHm pages _ _ hroom hover
        rw [htaken]
        exact hput.trans hrest

theorem PipePut.of_same {start other state : PipeState} {bytes : List UInt8}
    (hput : PipePut other bytes state) (hio : other.io = start.io)
    (hwriteLen : other.writeLen = start.writeLen) : PipePut start bytes state :=
  ⟨hio ▸ hput.io, hwriteLen ▸ hput.writeLen⟩

theorem writeTracePipeRawLoop_put (isHm : Bool) (request : TraceDumpRequest)
    (pages : List RawPage) (state : PipeState) (hwritable : state.io.Writable) :
    LoopPut isHm request pages state := by
  induction pages generalizing state with
  | nil =>
      refine loopPut_of_open ?_ hwritable
      intro state hwritable hroom
      have hflush : state.flushFull request = (false, state) := if_pos hroom
      have hput := ((state.setDumpStatus .success).flush_put request hwritable).2
      have htaken : state.takenPages isHm request [] = [] := rfl
      rw [LoopPut, writeTracePipeRawLoop, hflush, htaken, List.append_nil]
      exact hput.of_same rfl rfl
  | cons page rest ih =>
      refine loopPut_of_open ?_ hwritable
      intro state hwritable hroom
      have hflush : state.flushFull request = (false, state) := if_pos hroom
      have hnotFull : ¬ bufferSize - pageSize < state.buffer.length :=
        Nat.not_lt_of_le hroom
      rw [LoopPut, writeTracePipeRawLoop, hflush, PipeState.takenPages, takenPages]
      simp only [decide_eq_false hnotFull, Bool.false_and, Bool.false_eq_true,
        if_false]
      cases pageValid request page with
      | late =>
          exact ((state.late page).flush_put request hwritable).2.of_same rfl rfl
      | early => exact ih state hwritable
      | hit =>
          dsimp only
          have hfailed : (state.hit isHm page).pageChkFailedTime =
              failedTime isHm page.pageHeaderSize state.pageChkFailedTime := rfl
          rw [← hfailed]
          split
          · rw [List.append_nil]
            exact ((state.hit isHm page).flush_put request hwritable).2.of_same rfl rfl
          · have hhit : (state.hit isHm page).io.Writable := hwritable
            have hlength : (state.hit isHm page).buffer.length =
                state.buffer.length + page.bytes.length := List.length_append
            have hrest := ih _ hhit
            rw [LoopPut, PipeState.takenPages, hlength] at hrest
            rw [← List.append_assoc]
            exact hrest.of_same rfl rfl

/-! One segment a pipe, and the blocks of a task. -/

def pipeSegment (isHm : Bool) (request : TraceDumpRequest) (outputFileSize : Int32)
    (pipe : RawPipe) (cpuIdx : Nat) : Segment where
  type := ContentType.cpuRaw + UInt8.ofNat cpuIdx
  payload := takenPages isHm request outputFileSize pipe.pages 0 0 0 false
  placeholder := some 0

/-- Where the loop over the pages of a pipe begins, behind the header of its segment. -/
def loopStart (content : RawContent) (start : TraceIo) (cpuIdx : Nat) : PipeState where
  status := content.status
  isOverFlow := content.isOverFlow
  io := start.put
    (TraceFileContentHeader.bytes ⟨ContentType.cpuRaw + UInt8.ofNat cpuIdx, 0⟩)

/-- What the loop puts behind the header becomes a segment of the file. -/
theorem writeTracePipeRawData_of_put {isHm : Bool} {request : TraceDumpRequest}
    {pipe : RawPipe} (hopens : pipe.opens = true) {cpuIdx : Nat}
    {content : RawContent} {start : TraceIo}
    (hexist : content.io.isFileExist = (true, start)) (hstart : start.Writable)
    {payload : List UInt8}
    (hput : PipePut (loopStart content start cpuIdx) payload
      (writeTracePipeRawLoop isHm request pipe.pages
        (loopStart content start cpuIdx))) :
    ∃ next, writeTracePipeRawData isHm request pipe cpuIdx content = (true, next) ∧
      next.io = start.store
        [⟨ContentType.cpuRaw + UInt8.ofNat cpuIdx, payload, some 0⟩] ∧
      next.isOverFlow = (writeTracePipeRawLoop isHm request pipe.pages
        (loopStart content start cpuIdx)).isOverFlow := by
  let segment : Segment := ⟨ContentType.cpuRaw + UInt8.ofNat cpuIdx, payload, some 0⟩
  have hupdate := updateTraceContentHeader_store hstart segment rfl
  have hio : (writeTracePipeRawLoop isHm request pipe.pages
      (loopStart content start cpuIdx)).io = start.put
        (TraceFileContentHeader.bytes ⟨segment.type, 0⟩ ++ segment.payload) := by
    rw [hput.io]
    exact TraceIo.put_put ..
  have hlength : (writeTracePipeRawLoop isHm request pipe.pages
      (loopStart content start cpuIdx)).writeLen.toNat = segment.payload.length := by
    rw [hput.writeLen]
    exact congrArg Int.toNat (Int.zero_add _)
  unfold writeTracePipeRawData
  rw [hexist]
  dsimp only
  rw [hopens, doWriteTraceContentHeader_writable hstart]
  refine ⟨_, rfl, ?_, rfl⟩
  have hfinal : (updateTraceContentHeader ⟨segment.type, 0⟩
      (UInt32.ofNat (writeTracePipeRawLoop isHm request pipe.pages
        (loopStart content start cpuIdx)).writeLen.toNat)
      (writeTracePipeRawLoop isHm request pipe.pages
        (loopStart content start cpuIdx)).io).2 = start.store [segment] := by
    rw [hio, hlength, hupdate]
  exact hfinal

theorem writeTracePipeRawData_store (isHm : Bool) (request : TraceDumpRequest)
    {pipe : RawPipe} (hopens : pipe.opens = true) (cpuIdx : Nat)
    {content : RawContent} {start : TraceIo}
    (hexist : content.io.isFileExist = (true, start)) (hstart : start.Writable)
    (hsize : start.outputFileSize = content.io.outputFileSize) :
    ∃ next, writeTracePipeRawData isHm request pipe cpuIdx content = (true, next) ∧
      next.io = start.store
        [pipeSegment isHm request content.io.outputFileSize pipe cpuIdx] := by
  have hloop := writeTracePipeRawLoop_put isHm request pipe.pages
    (loopStart content start cpuIdx) (hstart.put _)
  obtain ⟨next, hwrite, hio, _⟩ := writeTracePipeRawData_of_put hopens hexist hstart hloop
  refine ⟨next, hwrite, ?_⟩
  have hstate : (loopStart content start cpuIdx).io.outputFileSize =
      content.io.outputFileSize := hsize
  rw [hio, PipeState.takenPages, hstate]
  rfl

theorem writeTracePipeRawData_wrote (isHm : Bool) (request : TraceDumpRequest)
    {pipe : RawPipe} (hopens : pipe.opens = true) (cpuIdx : Nat)
    {content : RawContent} (hready : content.io.Ready) :
    ∃ next, writeTracePipeRawData isHm request pipe cpuIdx content = (true, next) ∧
      Wrote [pipeSegment isHm request content.io.outputFileSize pipe cpuIdx]
        content.io next.io := by
  obtain ⟨start, hexist, hstart, hfile, hsize⟩ := hready.isFileExist
  obtain ⟨next, hwrite, hio⟩ := writeTracePipeRawData_store isHm request hopens cpuIdx
    hexist hstart.writable hsize
  refine ⟨next, hwrite, ?_⟩
  rw [hio]
  exact Wrote.of_store _ hstart hfile hsize

def pipeSegments (isHm : Bool) (request : TraceDumpRequest) :
    List RawPipe → Nat → Int32 → List Segment
  | [], _, _ => []
  | pipe :: rest, cpuIdx, outputFileSize =>
      let segment := pipeSegment isHm request outputFileSize pipe cpuIdx
      segment :: pipeSegments isHm request rest (cpuIdx + 1)
        (sizeAfter [segment] outputFileSize)

theorem writePipes_wrote (isHm : Bool) (request : TraceDumpRequest)
    {pipes : List RawPipe} (hopens : ∀ pipe ∈ pipes, pipe.opens = true)
    (cpuIdx : Nat) (content : RawContent) (hready : content.io.Ready) :
    Wrote (pipeSegments isHm request pipes cpuIdx content.io.outputFileSize)
      content.io (writePipes isHm request pipes cpuIdx content).2.io := by
  induction pipes generalizing cpuIdx content with
  | nil => exact Wrote.nil hready
  | cons pipe rest ih =>
      obtain ⟨hfirst, hothers⟩ := List.forall_mem_cons.mp hopens
      obtain ⟨next, hwrite, hwrote⟩ :=
        writeTracePipeRawData_wrote isHm request hfirst cpuIdx hready
      have hrest := ih hothers (cpuIdx + 1) next hwrote.ready
      rw [hwrote.size] at hrest
      rw [writePipes, hwrite]
      exact hwrote.trans hrest

theorem traceCpuRaw_wrote (isHm : Bool) (request : TraceDumpRequest)
    {pipes : List RawPipe} (hopens : ∀ pipe ∈ pipes, pipe.opens = true)
    {io : TraceIo} (hready : io.Ready) :
    Wrote (pipeSegments isHm request pipes 0 io.outputFileSize) io
      (traceCpuRaw isHm request pipes io).2.io :=
  writePipes_wrote isHm request hopens 0 { io } hready

/-- The header of a block is written with the length of the one before it. -/
def blockSegments : List BufferBlock → UInt32 → List Segment
  | [], _ => []
  | block :: rest, length =>
      let segment : Segment :=
        ⟨ContentType.cpuRaw + UInt8.ofNat block.cpu.toNat, block.data, some length⟩
      segment :: blockSegments rest segment.header.length

theorem writeBlocksLinux_store {blocks : List BufferBlock}
    (hcpu : ∀ block ∈ blocks, 0 ≤ block.cpu) (header : TraceFileContentHeader)
    (writeLen : Int) {io : TraceIo} (hwritable : io.Writable) :
    writeBlocksLinux blocks header writeLen io =
      (true, io.store (blockSegments blocks header.length)) := by
  induction blocks generalizing header writeLen io with
  | nil => rfl
  | cons block rest ih =>
      obtain ⟨hfirst, hothers⟩ := List.forall_mem_cons.mp hcpu
      have hblock : block.cpu ≠ -1 := by omega
      let segment : Segment :=
        ⟨ContentType.cpuRaw + UInt8.ofNat block.cpu.toNat, block.data,
          some header.length⟩
      have hupdate := updateTraceContentHeader_store hwritable segment rfl
      have hrest := ih hothers segment.header (block.data.length : Int)
        (hwritable.store [segment])
      rw [writeBlocksLinux]
      dsimp only
      rw [doWriteTraceContentHeader_writable hwritable]
      simp only [hblock, ne_eq, not_false_eq_true, if_true]
      rw [doWriteTraceData_writable (hwritable.put _), TraceIo.put_put]
      simp only [Bool.not_true, Bool.false_eq_true, if_false, Int.zero_add,
        Int.toNat_natCast]
      rw [show (⟨ContentType.cpuRaw + UInt8.ofNat block.cpu.toNat,
        header.length⟩ : TraceFileContentHeader) =
          ⟨segment.type, header.length⟩ from rfl, hupdate]
      exact hrest

theorem writeBlocksHM_writable (blocks : List BufferBlock) (writeLen : Int)
    {io : TraceIo} (hwritable : io.Writable) :
    writeBlocksHM blocks writeLen io =
      (writeLen + (blocks.flatMap BufferBlock.data).length,
        io.put (blocks.flatMap BufferBlock.data)) := by
  induction blocks generalizing writeLen io with
  | nil => simp [writeBlocksHM]
  | cons block rest ih =>
      rw [writeBlocksHM, doWriteTraceData_writable hwritable]
      dsimp only
      rw [ih _ (hwritable.put _), TraceIo.put_put, List.flatMap_cons,
        List.length_append, Int.natCast_add, Int.add_assoc]

/-- The segments of the blocks a task has read. -/
def taskSegments (isHm : Bool) (blocks : List BufferBlock) : List Segment :=
  if isHm then [⟨ContentType.cpuRaw, blocks.flatMap BufferBlock.data, some 0⟩]
  else blockSegments blocks 0

theorem traceCpuRawWriteLinux_store {taskId : UInt64}
    {taskBuffers : Multimap UInt64 BufferBlock}
    (hcpu : ∀ block ∈ taskBuffers.bucket taskId, 0 ≤ block.cpu)
    {io start : TraceIo} (hexist : io.isFileExist = (true, start))
    (hstart : start.Writable) :
    (traceCpuRawWriteLinux taskId taskBuffers io).2.2 =
      start.store (taskSegments false (taskBuffers.bucket taskId)) := by
  have hwrite := writeBlocksLinux_store hcpu {} 0 hstart
  unfold traceCpuRawWriteLinux getTaskBuffers
  rw [hexist]
  dsimp only
  rw [hwrite]
  rfl

theorem traceCpuRawWriteHM_store {taskId : UInt64}
    {taskBuffers : Multimap UInt64 BufferBlock} {io start : TraceIo}
    (hexist : io.isFileExist = (true, start)) (hstart : start.Writable) :
    (traceCpuRawWriteHM taskId taskBuffers io).2.2 =
      start.store (taskSegments true (taskBuffers.bucket taskId)) := by
  let segment : Segment := ⟨ContentType.cpuRaw,
    (taskBuffers.bucket taskId).flatMap BufferBlock.data, some 0⟩
  have hupdate := updateTraceContentHeader_store hstart segment rfl
  unfold traceCpuRawWriteHM getTaskBuffers
  rw [hexist]
  dsimp only
  rw [doWriteTraceContentHeader_writable hstart]
  dsimp only
  rw [writeBlocksHM_writable _ _ (hstart.put _), TraceIo.put_put, Int.zero_add,
    Int.toNat_natCast]
  exact congrArg Prod.snd hupdate

theorem traceCpuRawWriteLinux_wrote {taskId : UInt64}
    {taskBuffers : Multimap UInt64 BufferBlock}
    (hcpu : ∀ block ∈ taskBuffers.bucket taskId, 0 ≤ block.cpu) {io : TraceIo}
    (hready : io.Ready) :
    Wrote (taskSegments false (taskBuffers.bucket taskId)) io
      (traceCpuRawWriteLinux taskId taskBuffers io).2.2 := by
  obtain ⟨start, hexist, hstart, hfile, hsize⟩ := hready.isFileExist
  rw [traceCpuRawWriteLinux_store hcpu hexist hstart.writable]
  exact Wrote.of_store _ hstart hfile hsize

theorem traceCpuRawWriteHM_wrote {taskId : UInt64}
    {taskBuffers : Multimap UInt64 BufferBlock} {io : TraceIo}
    (hready : io.Ready) :
    Wrote (taskSegments true (taskBuffers.bucket taskId)) io
      (traceCpuRawWriteHM taskId taskBuffers io).2.2 := by
  obtain ⟨start, hexist, hstart, hfile, hsize⟩ := hready.isFileExist
  rw [traceCpuRawWriteHM_store hexist hstart.writable]
  exact Wrote.of_store _ hstart hfile hsize

theorem placeholdersFit_pipeSegments (isHm : Bool) (request : TraceDumpRequest)
    (pipes : List RawPipe) (cpuIdx : Nat) (outputFileSize : Int32) :
    PlaceholdersFit (pipeSegments isHm request pipes cpuIdx outputFileSize) := by
  induction pipes generalizing cpuIdx outputFileSize with
  | nil => exact placeholdersFit_nil
  | cons pipe rest ih =>
      exact PlaceholdersFit.append (placeholdersFit_singleton (.inr rfl))
        (ih (cpuIdx + 1) _)

theorem placeholdersFit_blockSegments (blocks : List BufferBlock) {length : UInt32}
    (hlength : length.toNat + contentHeaderSize < 2 ^ 32) :
    PlaceholdersFit (blockSegments blocks length) := by
  induction blocks generalizing length with
  | nil => exact placeholdersFit_nil
  | cons block rest ih =>
      intro good bad back hsplit hgood
      cases good with
      | nil =>
          cases hsplit
          intro other hother
          cases hother
          exact hlength
      | cons head good =>
          obtain ⟨rfl, hrest⟩ := List.cons.inj hsplit
          obtain ⟨hfits, hgood⟩ := List.forall_mem_cons.mp hgood
          refine ih ?_ good bad back hrest hgood
          rw [Segment.header, UInt32.toNat_ofNat', Nat.mod_eq_of_lt hfits.lt]
          exact hfits

theorem placeholdersFit_taskSegments (isHm : Bool) (blocks : List BufferBlock) :
    PlaceholdersFit (taskSegments isHm blocks) := by
  cases isHm with
  | true => exact placeholdersFit_singleton (.inr rfl)
  | false => exact placeholdersFit_blockSegments blocks (by decide)

end CpuRaw

end Hitrace
