import Hitrace.Library.FixedBuffer
import Hitrace.TraceFactory.RawSegments

namespace Hitrace

open Library

/-! `g_buffer`: the loops of the writers with the array they gather in and the
index `bytes` into it. -/

abbrev GlobalBuffer : Type := FixedBuffer UInt8 bufferSize

namespace GlobalBuffer

open TraceContent CpuRaw

/-- The array as the thread finds it first. -/
def zeroBuffer : GlobalBuffer :=
  ⟨List.replicate bufferSize 0, List.length_replicate⟩

theorem pageSize_le_bufferSize : pageSize ≤ bufferSize := by decide

theorem failedTime_eq (isHm : Bool) (pageHeaderSize : UInt64) (failed : Nat) :
    failedTime isHm pageHeaderSize failed =
      failed + if !checkPage isHm pageHeaderSize then 1 else 0 := by
  rw [failedTime]
  cases checkPage isHm pageHeaderSize with
  | true => rfl
  | false => rfl

/-! Text, read in chunks. -/

structure TextRound where
  gBuffer : GlobalBuffer
  bytes : Nat := 0
  endFlag : Bool := false
  pageChkFailedTime : Nat := 0
  writeLen : Int := 0
  io : TraceIo

/-- The read that has just been stored at `bytes`. -/
def TextRound.add (isHm : Bool) (round : TextRound) (gBuffer : GlobalBuffer)
    (read : SourceRead) : TextRound :=
  { round with
    gBuffer
    bytes := round.bytes + read.bytes.length
    pageChkFailedTime := failedTime isHm read.pageHeaderSize
      round.pageChkFailedTime }

/-- The inner loop of `ITraceContent::WriteTraceDataContent`, and the reads it
leaves. -/
def readSourceLoop (isHm : Bool) :
    List SourceRead → TextRound → Option (List SourceRead × TextRound)
  | [], round =>
      if round.bytes ≤ bufferSize - pageSize then
        some ([], { round with endFlag := true })
      else some ([], round)
  | read :: rest, round =>
      if round.bytes ≤ bufferSize - pageSize then
        match round.gBuffer.store round.bytes read.bytes with
        | none => none
        | some gBuffer =>
            let round := round.add isHm gBuffer read
            if round.pageChkFailedTime ≥ 2 then
              some (rest, { round with endFlag := true })
            else readSourceLoop isHm rest round
      else some (read :: rest, round)

/-- What follows the inner loop. -/
def TextRound.flush (round : TextRound) : TextRound :=
  let (writeLen, io) :=
    doWriteTraceData (round.gBuffer.load 0 round.bytes) round.writeLen round.io
  { round with writeLen, io }

def sourceRound (isHm : Bool) (reads : List SourceRead) (round : TextRound) :
    Option (Option (List SourceRead) × TextRound) :=
  match readSourceLoop isHm reads { round with bytes := 0, endFlag := false } with
  | none => none
  | some (rest, round) =>
      some (if round.endFlag then none else some rest, round.flush)

/-- `none` stands for a byte stored past the array. -/
def writeTraceDataContent (isHm : Bool) (source : Option (List SourceRead))
    (gBuffer : GlobalBuffer) (io : TraceIo) : Option (Int × TraceIo) :=
  match source with
  | none => some (-1, io)
  | some reads =>
      match rounds (sourceRound isHm) reads { gBuffer, io } with
      | none => none
      | some round => some (round.writeLen, round.io)

/-! The loop over lists of bytes does what the loop over the array does. -/

def TextRound.buffer (round : TextRound) : List UInt8 :=
  round.gBuffer.load 0 round.bytes

def TextRound.loop (isHm : Bool) (reads : List SourceRead) (round : TextRound) :
    Int × TraceIo :=
  writeTraceDataLoop isHm reads round.buffer round.pageChkFailedTime round.writeLen
    round.io

/-- One inner loop has run, from `round` to `next`. -/
structure SourceGathered (isHm : Bool) (reads : List SourceRead) (round : TextRound)
    (rest : List SourceRead) (next : TextRound) : Prop where
  loop : round.loop isHm reads =
    if next.endFlag then (next.flush.writeLen, next.flush.io) else next.loop isHm rest
  full : next.endFlag = false → ¬ next.bytes ≤ bufferSize - pageSize
  fits : next.bytes ≤ bufferSize
  less : rest.length < reads.length ∨ rest = reads ∧ next.bytes = round.bytes

theorem buffer_length {round : TextRound} (hfits : round.bytes ≤ bufferSize) :
    round.buffer.length = round.bytes :=
  round.gBuffer.length_load_front hfits

theorem TextRound.add_buffer (isHm : Bool) {round : TextRound}
    {gBuffer : GlobalBuffer} {read : SourceRead}
    (hstored : round.gBuffer.Stored round.bytes read.bytes gBuffer) :
    (round.add isHm gBuffer read).buffer = round.buffer ++ read.bytes :=
  hstored.grown

/-- While a page is free, a read is stored and looked at. -/
theorem loop_cons_of_room (isHm : Bool) {read : SourceRead} (rest : List SourceRead)
    {round : TextRound} {gBuffer : GlobalBuffer}
    (hroom : round.bytes ≤ bufferSize - pageSize)
    (hstored : round.gBuffer.Stored round.bytes read.bytes gBuffer) :
    round.loop isHm (read :: rest) =
      if (round.add isHm gBuffer read).pageChkFailedTime ≥ 2 then
        ((round.add isHm gBuffer read).flush.writeLen,
          (round.add isHm gBuffer read).flush.io)
      else (round.add isHm gBuffer read).loop isHm rest := by
  have hfits : round.bytes ≤ bufferSize := hroom.trans (Nat.sub_le _ _)
  have hflush : flushFull round.buffer round.writeLen round.io =
      (round.buffer, round.writeLen, round.io) := by
    rw [flushFull, buffer_length hfits, if_pos hroom]
  rw [TextRound.loop, writeTraceDataLoop, hflush]
  dsimp only
  rw [← TextRound.add_buffer isHm hstored]
  rfl

theorem readSourceLoop_gathered (isHm : Bool) (reads : List SourceRead)
    (round : TextRound) (hfits : round.bytes ≤ bufferSize)
    (hend : round.endFlag = false) :
    ∃ rest next, readSourceLoop isHm reads round = some (rest, next) ∧
      SourceGathered isHm reads round rest next := by
  induction reads generalizing round with
  | nil =>
      rw [readSourceLoop]
      by_cases hroom : round.bytes ≤ bufferSize - pageSize
      · rw [if_pos hroom]
        refine ⟨[], _, rfl, ?_, ?_, hfits, Or.inr ⟨rfl, rfl⟩⟩
        · have hflush : flushFull round.buffer round.writeLen round.io =
              (round.buffer, round.writeLen, round.io) := by
            rw [flushFull, buffer_length hfits, if_pos hroom]
          rw [TextRound.loop, writeTraceDataLoop, hflush]
          rfl
        · intro hgoes
          cases hgoes
      · rw [if_neg hroom]
        refine ⟨[], round, rfl, ?_, fun _ => hroom, hfits, Or.inr ⟨rfl, rfl⟩⟩
        rw [hend]
        rfl
  | cons read rest ih =>
      rw [readSourceLoop]
      by_cases hroom : round.bytes ≤ bufferSize - pageSize
      · have hread := read.fits
        have hpage := pageSize_le_bufferSize
        have hstoreRoom : round.bytes + read.bytes.length ≤ bufferSize := by omega
        obtain ⟨gBuffer, hstore, hstored⟩ := round.gBuffer.exists_store hstoreRoom
        have hloop := loop_cons_of_room isHm rest hroom hstored
        rw [if_pos hroom, hstore]
        dsimp only
        by_cases hfailed : (round.add isHm gBuffer read).pageChkFailedTime ≥ 2
        · rw [if_pos hfailed]
          rw [if_pos hfailed] at hloop
          refine ⟨rest, _, rfl, hloop, ?_, hstoreRoom, Or.inl (Nat.lt_succ_self _)⟩
          intro hgoes
          cases hgoes
        · rw [if_neg hfailed]
          rw [if_neg hfailed] at hloop
          obtain ⟨left, next, hnext, hgathered⟩ :=
            ih (round.add isHm gBuffer read) hstoreRoom hend
          refine ⟨left, next, hnext, hloop.trans hgathered.loop, hgathered.full,
            hgathered.fits, ?_⟩
          rcases hgathered.less with hless | ⟨hsame, _⟩
          · exact Or.inl (hless.trans (Nat.lt_succ_self _))
          · exact Or.inl (hsame ▸ Nat.lt_succ_self _)
      · rw [if_neg hroom]
        refine ⟨read :: rest, round, rfl, ?_, fun _ => hroom, hfits, Or.inr ⟨rfl, rfl⟩⟩
        rw [hend]
        rfl

/-- A full buffer is written out and the next round starts with an empty one. -/
theorem loop_of_full (isHm : Bool) (rest : List SourceRead) {round : TextRound}
    (hfits : round.bytes ≤ bufferSize)
    (hfull : ¬ round.bytes ≤ bufferSize - pageSize) :
    round.loop isHm rest =
      writeTraceDataLoop isHm rest [] round.pageChkFailedTime round.flush.writeLen
        round.flush.io := by
  have hflush : flushFull round.buffer round.writeLen round.io =
      ([], round.flush.writeLen, round.flush.io) := by
    rw [flushFull, buffer_length hfits, if_neg hfull]
    rfl
  have hempty : flushFull [] round.flush.writeLen round.flush.io =
      ([], round.flush.writeLen, round.flush.io) := rfl
  rw [TextRound.loop]
  cases rest with
  | nil => rw [writeTraceDataLoop, writeTraceDataLoop, hflush, hempty]
  | cons read rest => rw [writeTraceDataLoop, writeTraceDataLoop, hflush, hempty]

theorem sourceRound_meets (isHm : Bool) (reads : List SourceRead)
    (round : TextRound) :
    ∃ result, sourceRound isHm reads round = some result ∧
      RoundMeets (fun _ _ => True)
        (fun reads round final => writeTraceDataLoop isHm reads []
          round.pageChkFailedTime round.writeLen round.io =
            (final.writeLen, final.io)) reads round result := by
  obtain ⟨rest, next, hloop, hgathered⟩ := readSourceLoop_gathered isHm reads
    { round with bytes := 0, endFlag := false } (Nat.zero_le _) rfl
  have hstart : writeTraceDataLoop isHm reads [] round.pageChkFailedTime
      round.writeLen round.io = TextRound.loop isHm reads
        { round with bytes := 0, endFlag := false } := by
    rw [TextRound.loop, TextRound.buffer, FixedBuffer.load_zero]
  have hmeets := hgathered.loop
  rw [sourceRound, hloop]
  refine ⟨_, rfl, ?_⟩
  cases hend : next.endFlag with
  | true =>
      rw [hend] at hmeets
      exact hstart.trans hmeets
  | false =>
      have hfull := hgathered.full hend
      rw [hend] at hmeets
      refine ⟨?_, trivial, ?_⟩
      · rcases hgathered.less with hless | ⟨_, hsame⟩
        · exact hless
        · exact absurd (hsame ▸ Nat.zero_le _) hfull
      · intro final hfinal
        have hnext := loop_of_full isHm rest hgathered.fits hfull
        exact hstart.trans (hmeets.trans (hnext.trans hfinal))

/-- Whatever the array holds at the start and whatever the writes return, no byte
is stored past it, and the result is that of the loop over lists. -/
theorem writeTraceDataContent_eq (isHm : Bool) (source : Option (List SourceRead))
    (gBuffer : GlobalBuffer) (io : TraceIo) :
    writeTraceDataContent isHm source gBuffer io =
      some (TraceContent.writeTraceDataContent isHm source io) := by
  cases source with
  | none => rfl
  | some reads =>
      obtain ⟨final, hfinal, hmeets⟩ := rounds_meet
        (fun reads round _ => sourceRound_meets isHm reads round) reads
        { gBuffer, io } trivial
      rw [writeTraceDataContent, hfinal]
      exact congrArg some hmeets.symm

/-! Raw pages, of which only those in the window stay in the array. -/

structure RawRound where
  gBuffer : GlobalBuffer
  bytes : Nat := 0
  endFlag : Bool := false
  pageChkFailedTime : Nat := 0
  printFirstPageTime : Bool := false
  readLen : Nat := 0
  writeLen : Int := 0
  isOverFlow : Bool := false
  status : RawStatus
  io : TraceIo

/-- The time of the page that has just been read to `bytes`. -/
def RawRound.pageTraceTime (round : RawRound) (gBuffer : GlobalBuffer) : UInt64 :=
  UInt64.ofNat (LittleEndian.decode (gBuffer.load round.bytes 8))

def RawRound.late (round : RawRound) (gBuffer : GlobalBuffer) (page : RawPage) :
    RawRound :=
  { round with
    gBuffer
    endFlag := true
    bytes := round.bytes + if round.printFirstPageTime then page.bytes.length else 0
    status := { round.status with dumpStatus := .outOfTime } }

def RawRound.hit (isHm : Bool) (round : RawRound) (gBuffer : GlobalBuffer)
    (page : RawPage) : RawRound :=
  { round with
    gBuffer
    bytes := round.bytes + page.bytes.length
    pageChkFailedTime := failedTime isHm page.pageHeaderSize
      round.pageChkFailedTime
    printFirstPageTime := true
    status := updateFirstLastPageTimeStamp (round.pageTraceTime gBuffer)
      round.printFirstPageTime round.status }

/-- A page that is skipped stays behind in the array, at the index of the next
one. -/
def readTracePipeRawLoop (isHm : Bool) (request : TraceDumpRequest) :
    List RawPage → RawRound → Option (List RawPage × RawRound)
  | [], round =>
      if round.bytes ≤ bufferSize - pageSize then
        some ([],
          { round with
            endFlag := true
            status := { round.status with dumpStatus := .success } })
      else some ([], round)
  | page :: rest, round =>
      if round.bytes ≤ bufferSize - pageSize then
        match round.gBuffer.store round.bytes page.bytes with
        | none => none
        | some gBuffer =>
            match isCurrentTracePageValid (round.pageTraceTime gBuffer)
                request.traceStartTime request.traceEndTime with
            | .late => some (rest, round.late gBuffer page)
            | .early => readTracePipeRawLoop isHm request rest { round with gBuffer }
            | .hit =>
                let round := round.hit isHm gBuffer page
                if round.pageChkFailedTime ≥ 2 then
                  some (rest, { round with endFlag := true })
                else readTracePipeRawLoop isHm request rest round
      else some (page :: rest, round)

/-- What follows `ReadTracePipeRawLoop` in the loop of `WriteTracePipeRawData`. -/
def RawRound.flush (request : TraceDumpRequest) (round : RawRound) :
    Bool × RawRound :=
  let (writeLen, io) :=
    doWriteTraceData (round.gBuffer.load 0 round.bytes) round.writeLen round.io
  let overflow := overflows request io.outputFileSize writeLen
  (overflow,
    { round with
      readLen := round.readLen + round.bytes
      writeLen
      io
      isOverFlow := round.isOverFlow || overflow })

def pipeRound (isHm : Bool) (request : TraceDumpRequest) (pages : List RawPage)
    (round : RawRound) : Option (Option (List RawPage) × RawRound) :=
  match readTracePipeRawLoop isHm request pages { round with bytes := 0 } with
  | none => none
  | some (rest, round) =>
      let (overflow, next) := round.flush request
      some (if overflow || round.endFlag then none else some rest, next)

def writeTracePipeRawData (isHm : Bool) (request : TraceDumpRequest)
    (pipe : RawPipe) (cpuIdx : Nat) (gBuffer : GlobalBuffer) (content : RawContent) :
    Option (Bool × RawContent) :=
  let (found, io) := content.io.isFileExist
  if !found || !pipe.opens then some (false, { content with io })
  else
    let (written, rawtraceHdr, io) :=
      doWriteTraceContentHeader {} (ContentType.cpuRaw + UInt8.ofNat cpuIdx) io
    if !written then some (false, { content with io })
    else
      match rounds (pipeRound isHm request) pipe.pages
          { gBuffer, status := content.status, isOverFlow := content.isOverFlow,
            io } with
      | none => none
      | some state =>
          let (_, io) := updateTraceContentHeader rawtraceHdr
            (UInt32.ofNat state.writeLen.toNat) state.io
          let dumpStatus :=
            if state.readLen > 0 then
              if state.writeLen > 0 then .success else .writeTraceInfoError
            else state.status.dumpStatus
          some (true, ⟨{ state.status with dumpStatus }, state.isOverFlow, io⟩)

/-- The round as the loop over lists sees it. -/
def RawRound.pipe (round : RawRound) : PipeState where
  buffer := round.gBuffer.load 0 round.bytes
  pageChkFailedTime := round.pageChkFailedTime
  printFirstPageTime := round.printFirstPageTime
  readLen := round.readLen
  writeLen := round.writeLen
  isOverFlow := round.isOverFlow
  status := round.status
  io := round.io

def RawRound.loop (isHm : Bool) (request : TraceDumpRequest) (pages : List RawPage)
    (round : RawRound) : PipeState :=
  writeTracePipeRawLoop isHm request pages round.pipe

structure PagesGathered (isHm : Bool) (request : TraceDumpRequest)
    (pages : List RawPage) (round : RawRound) (rest : List RawPage)
    (next : RawRound) : Prop where
  loop : round.loop isHm request pages =
    if next.endFlag then (next.pipe.flush request).2 else next.loop isHm request rest
  full : next.endFlag = false → ¬ next.bytes ≤ bufferSize - pageSize
  fits : next.bytes ≤ bufferSize
  less : rest.length < pages.length ∨ rest = pages ∧ next.bytes = round.bytes

theorem pipe_buffer_length {round : RawRound} (hfits : round.bytes ≤ bufferSize) :
    round.pipe.buffer.length = round.bytes :=
  round.gBuffer.length_load_front hfits

/-- The page itself holds the time that is read out of the array. -/
theorem pageTraceTime_stored {round : RawRound} {gBuffer : GlobalBuffer}
    {page : RawPage}
    (hstored : round.gBuffer.Stored round.bytes page.bytes gBuffer) :
    round.pageTraceTime gBuffer = page.pageTraceTime := by
  rw [RawRound.pageTraceTime, RawPage.pageTraceTime,
    ← gBuffer.take_load round.bytes page.size.1, hstored.slot]

theorem late_pipe {round : RawRound} {gBuffer : GlobalBuffer} {page : RawPage}
    (hstored : round.gBuffer.Stored round.bytes page.bytes gBuffer) :
    (round.late gBuffer page).pipe = round.pipe.late page := by
  have hbuffer : (round.late gBuffer page).pipe.buffer =
      (round.pipe.late page).buffer := by
    have hlate : (round.late gBuffer page).pipe.buffer = gBuffer.load 0
        (round.bytes + if round.printFirstPageTime then page.bytes.length else 0) :=
      rfl
    have hpipe : (round.pipe.late page).buffer = round.gBuffer.load 0 round.bytes ++
        if round.printFirstPageTime then page.bytes else [] := rfl
    rw [hlate, hpipe]
    split
    · exact hstored.grown
    · rw [List.append_nil]
      exact hstored.kept
  calc (round.late gBuffer page).pipe
      = { round.pipe.late page with
          buffer := (round.late gBuffer page).pipe.buffer } := rfl
    _ = round.pipe.late page := by rw [hbuffer]

theorem hit_pipe (isHm : Bool) {round : RawRound} {gBuffer : GlobalBuffer}
    {page : RawPage}
    (hstored : round.gBuffer.Stored round.bytes page.bytes gBuffer) :
    (round.hit isHm gBuffer page).pipe = round.pipe.hit isHm page := by
  have hbuffer : (round.hit isHm gBuffer page).pipe.buffer =
      (round.pipe.hit isHm page).buffer := hstored.grown
  have htime := pageTraceTime_stored hstored
  calc (round.hit isHm gBuffer page).pipe
      = { round.pipe.hit isHm page with
          buffer := (round.hit isHm gBuffer page).pipe.buffer
          status := updateFirstLastPageTimeStamp (round.pageTraceTime gBuffer)
            round.printFirstPageTime round.status } := rfl
    _ = round.pipe.hit isHm page := by
        rw [hbuffer, htime]
        rfl

theorem skipped_pipe {round : RawRound} {gBuffer : GlobalBuffer} {page : RawPage}
    (hstored : round.gBuffer.Stored round.bytes page.bytes gBuffer) :
    RawRound.pipe { round with gBuffer } = round.pipe := by
  have hbuffer : gBuffer.load 0 round.bytes = round.pipe.buffer := hstored.kept
  calc RawRound.pipe { round with gBuffer }
      = { round.pipe with buffer := gBuffer.load 0 round.bytes } := rfl
    _ = round.pipe := by rw [hbuffer]

theorem flush_pipe (request : TraceDumpRequest) {round : RawRound}
    (hfits : round.bytes ≤ bufferSize) :
    (round.pipe.flush request).1 = (round.flush request).1 ∧
      (round.pipe.flush request).2 =
        RawRound.pipe { (round.flush request).2 with bytes := 0 } := by
  refine ⟨rfl, ?_⟩
  have hlength := pipe_buffer_length hfits
  have hempty : (round.flush request).2.gBuffer.load 0 0 = [] :=
    FixedBuffer.load_zero _ _
  calc (round.pipe.flush request).2
      = { RawRound.pipe { (round.flush request).2 with bytes := 0 } with
          buffer := []
          readLen := round.readLen + round.pipe.buffer.length } := rfl
    _ = RawRound.pipe { (round.flush request).2 with bytes := 0 } := by
        rw [hlength, ← hempty]
        rfl

theorem flushFull_of_room (request : TraceDumpRequest) {round : RawRound}
    (hroom : round.bytes ≤ bufferSize - pageSize) :
    round.pipe.flushFull request = (false, round.pipe) := by
  rw [PipeState.flushFull, pipe_buffer_length (hroom.trans (Nat.sub_le _ _)),
    if_pos hroom]

theorem pagesGathered_refl (isHm : Bool) (request : TraceDumpRequest)
    (pages : List RawPage) {round : RawRound} (hfits : round.bytes ≤ bufferSize)
    (hend : round.endFlag = false)
    (hfull : ¬ round.bytes ≤ bufferSize - pageSize) :
    PagesGathered isHm request pages round pages round := by
  refine ⟨?_, fun _ => hfull, hfits, Or.inr ⟨rfl, rfl⟩⟩
  rw [hend]
  rfl

theorem pagesGathered_nil (isHm : Bool) (request : TraceDumpRequest)
    {round : RawRound} (hfits : round.bytes ≤ bufferSize)
    (hroom : round.bytes ≤ bufferSize - pageSize) :
    PagesGathered isHm request [] round []
      { round with
        endFlag := true
        status := { round.status with dumpStatus := .success } } := by
  refine ⟨?_, ?_, hfits, Or.inr ⟨rfl, rfl⟩⟩
  · rw [RawRound.loop, writeTracePipeRawLoop, flushFull_of_room request hroom]
    rfl
  · intro hgoes
    cases hgoes

theorem PagesGathered.cons {isHm : Bool} {request : TraceDumpRequest}
    {pages rest : List RawPage} {round stored next : RawRound} {page : RawPage}
    (hgathered : PagesGathered isHm request pages stored rest next)
    (hloop : round.loop isHm request (page :: pages) =
      stored.loop isHm request pages) :
    PagesGathered isHm request (page :: pages) round rest next := by
  refine ⟨hloop.trans hgathered.loop, hgathered.full, hgathered.fits, Or.inl ?_⟩
  rw [List.length_cons]
  rcases hgathered.less with hless | ⟨hsame, _⟩
  · exact hless.trans (Nat.lt_succ_self _)
  · exact hsame ▸ Nat.lt_succ_self _

/-- The page at which the loop ends. -/
theorem pagesGathered_last {isHm : Bool} {request : TraceDumpRequest}
    {rest : List RawPage} {round next : RawRound} {page : RawPage}
    (hend : next.endFlag = true) (hfits : next.bytes ≤ bufferSize)
    (hloop : round.loop isHm request (page :: rest) = (next.pipe.flush request).2) :
    PagesGathered isHm request (page :: rest) round rest next := by
  refine ⟨?_, ?_, hfits, Or.inl (Nat.lt_succ_self _)⟩
  · rw [hend]
    exact hloop
  · intro hgoes
    rw [hend] at hgoes
    cases hgoes

theorem readTracePipeRawLoop_gathered (isHm : Bool) (request : TraceDumpRequest)
    (pages : List RawPage) (round : RawRound) (hfits : round.bytes ≤ bufferSize)
    (hend : round.endFlag = false) :
    ∃ rest next, readTracePipeRawLoop isHm request pages round =
        some (rest, next) ∧ PagesGathered isHm request pages round rest next := by
  induction pages generalizing round with
  | nil =>
      rw [readTracePipeRawLoop]
      by_cases hroom : round.bytes ≤ bufferSize - pageSize
      · rw [if_pos hroom]
        exact ⟨_, _, rfl, pagesGathered_nil isHm request hfits hroom⟩
      · rw [if_neg hroom]
        exact ⟨_, _, rfl, pagesGathered_refl isHm request [] hfits hend hroom⟩
  | cons page rest ih =>
      rw [readTracePipeRawLoop]
      by_cases hroom : round.bytes ≤ bufferSize - pageSize
      · have hpage := page.size.2
        have hsize := pageSize_le_bufferSize
        have hstoreRoom : round.bytes + page.bytes.length ≤ bufferSize := by omega
        obtain ⟨gBuffer, hstore, hstored⟩ := round.gBuffer.exists_store hstoreRoom
        have hloop : round.loop isHm request (page :: rest) =
            writeTracePipeRawLoop isHm request (page :: rest) round.pipe := rfl
        rw [writeTracePipeRawLoop, flushFull_of_room request hroom] at hloop
        rw [if_pos hroom, hstore]
        dsimp only at hloop ⊢
        have hvalid : isCurrentTracePageValid (round.pageTraceTime gBuffer)
            request.traceStartTime request.traceEndTime = pageValid request page := by
          rw [pageTraceTime_stored hstored]
          rfl
        rw [hvalid]
        cases hpageValid : pageValid request page with
        | late =>
            rw [hpageValid, ← late_pipe hstored] at hloop
            refine ⟨rest, _, rfl, pagesGathered_last rfl ?_ hloop⟩
            rw [RawRound.late]
            dsimp only
            split
            · exact hstoreRoom
            · exact hfits
        | early =>
            rw [hpageValid, ← skipped_pipe hstored] at hloop
            obtain ⟨left, next, hnext, hgathered⟩ :=
              ih { round with gBuffer } hfits hend
            exact ⟨left, next, hnext, hgathered.cons hloop⟩
        | hit =>
            rw [hpageValid, ← hit_pipe isHm hstored] at hloop
            have hfailedTime : (round.hit isHm gBuffer page).pipe.pageChkFailedTime =
                (round.hit isHm gBuffer page).pageChkFailedTime := rfl
            dsimp only at hloop ⊢
            rw [hfailedTime] at hloop
            by_cases hfailed : (round.hit isHm gBuffer page).pageChkFailedTime ≥ 2
            · rw [if_pos hfailed] at hloop ⊢
              exact ⟨rest, _, rfl, pagesGathered_last rfl hstoreRoom hloop⟩
            · rw [if_neg hfailed] at hloop ⊢
              obtain ⟨left, next, hnext, hgathered⟩ :=
                ih (round.hit isHm gBuffer page) hstoreRoom hend
              exact ⟨left, next, hnext, hgathered.cons hloop⟩
      · rw [if_neg hroom]
        exact ⟨_, _, rfl,
          pagesGathered_refl isHm request (page :: rest) hfits hend hroom⟩

/-- The rounds end where the loop over lists ends. -/
def PipeMeets (isHm : Bool) (request : TraceDumpRequest) (pages : List RawPage)
    (round final : RawRound) : Prop :=
  RawRound.loop isHm request pages { round with bytes := 0 } =
    RawRound.pipe { final with bytes := 0 }

theorem pipeRound_meets (isHm : Bool) (request : TraceDumpRequest)
    (pages : List RawPage) (round : RawRound) (hend : round.endFlag = false) :
    ∃ result, pipeRound isHm request pages round = some result ∧
      RoundMeets (fun _ round => round.endFlag = false)
        (PipeMeets isHm request) pages round result := by
  obtain ⟨rest, next, hloop, hgathered⟩ := readTracePipeRawLoop_gathered isHm request
    pages { round with bytes := 0 } (Nat.zero_le _) hend
  obtain ⟨hoverflow, hflush⟩ := flush_pipe request hgathered.fits
  have hmeets := hgathered.loop
  rw [pipeRound, hloop]
  refine ⟨(if (next.flush request).1 || next.endFlag then none else some rest,
    (next.flush request).2), rfl, ?_⟩
  cases hflag : next.endFlag with
  | true =>
      rw [Bool.or_true]
      rw [hflag, if_pos rfl, hflush] at hmeets
      exact hmeets
  | false =>
      have hfull := hgathered.full hflag
      have hlength := pipe_buffer_length hgathered.fits
      have hrest : next.loop isHm request rest = _ :=
        writeTracePipeRawLoop_full isHm request rest (hlength.symm ▸ hfull)
      rw [hflag, if_neg Bool.false_ne_true, hrest, hoverflow, hflush] at hmeets
      cases hover : (next.flush request).1 with
      | true =>
          rw [hover] at hmeets
          exact hmeets
      | false =>
          rw [hover] at hmeets
          refine ⟨?_, hflag, ?_⟩
          · rcases hgathered.less with hless | ⟨_, hsame⟩
            · exact hless
            · exact absurd (hsame ▸ Nat.zero_le _) hfull
          · intro final hfinal
            exact hmeets.trans hfinal

/-- Whatever the array holds at the start, whatever the writes return and wherever
the size limit strikes, no byte is stored past the array, and the result is that
of the loop over lists. -/
theorem writeTracePipeRawData_eq (isHm : Bool) (request : TraceDumpRequest)
    (pipe : RawPipe) (cpuIdx : Nat) (gBuffer : GlobalBuffer) (content : RawContent) :
    writeTracePipeRawData isHm request pipe cpuIdx gBuffer content =
      some (CpuRaw.writeTracePipeRawData isHm request pipe cpuIdx content) := by
  rw [writeTracePipeRawData, CpuRaw.writeTracePipeRawData]
  generalize content.io.isFileExist = checked
  obtain ⟨found, io⟩ := checked
  dsimp only
  split
  · rfl
  · generalize doWriteTraceContentHeader {}
      (ContentType.cpuRaw + UInt8.ofNat cpuIdx) io = headed
    obtain ⟨written, rawtraceHdr, opened⟩ := headed
    dsimp only
    split
    · rfl
    · obtain ⟨final, hfinal, hmeets⟩ := rounds_meet
        (fun pages round hend => pipeRound_meets isHm request pages round hend)
        pipe.pages
        { gBuffer, status := content.status, isOverFlow := content.isOverFlow,
          io := opened } rfl
      have hloop : writeTracePipeRawLoop isHm request pipe.pages
          { status := content.status, isOverFlow := content.isOverFlow,
            io := opened } = RawRound.pipe { final with bytes := 0 } := by
        rw [← hmeets, RawRound.loop, RawRound.pipe, FixedBuffer.load_zero]
      rw [hfinal, hloop]
      rfl

end GlobalBuffer

end Hitrace
