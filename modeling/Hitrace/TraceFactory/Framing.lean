import Hitrace.HitraceConverter.RoundTrip

namespace Hitrace

open Library TraceContent CpuRaw

/-! What one writer leaves in the file, whether or not its sources open and
whether or not the trace file is still there. -/

theorem TraceIo.Writable.isFileExist {io : TraceIo} (hwritable : io.Writable) :
    io.isFileExist.2.Writable ∧ io.isFileExist.2.file = io.file ∧
      io.isFileExist.2.outputFileSize = io.outputFileSize := by
  obtain ⟨hvalid, hheaderWrites, hwrites⟩ := hwritable
  unfold TraceIo.isFileExist
  split
  · exact ⟨⟨hvalid, hheaderWrites, hwrites⟩, rfl, rfl⟩
  · exact ⟨⟨hvalid, hheaderWrites, hwrites⟩, rfl, rfl⟩

theorem TraceFileContentHeader.bytes_injective
    {left right : TraceFileContentHeader} (hbytes : left.bytes = right.bytes) :
    left = right := by
  obtain ⟨leftType, leftLength⟩ := left
  obtain ⟨rightType, rightLength⟩ := right
  obtain ⟨htype, hlength⟩ := List.append_inj hbytes rfl
  have hdecode := congrArg LittleEndian.decode hlength
  dsimp only at hdecode
  rw [LittleEndian.decode_encode 4 leftLength.toNat_lt,
    LittleEndian.decode_encode 4 rightLength.toNat_lt] at hdecode
  have htypes : leftType = rightType := (List.cons.inj htype).1
  rw [UInt32.toNat_inj.mp hdecode, htypes]

/-- A file on which nothing was written, or one header and its payload for every
segment, with the offset at the end. -/
structure Framed (segments : List Segment) (before after : PosixFile) : Prop where
  content : after.content = before.content ++ encodeSegments segments
  lengths : ∀ segment ∈ segments,
    segment.header.length.toNat = segment.payload.length
  atEnd : after.AtEnd

theorem writeSegments_atEnd {segments : List Segment} {file : PosixFile}
    (hend : file.AtEnd) (hfits : ∀ segment ∈ segments, segment.Fits) :
    (writeSegments segments file).AtEnd := by
  induction segments generalizing file with
  | nil => exact hend
  | cons segment rest ih =>
      obtain ⟨hfirst, hrest⟩ := List.forall_mem_cons.mp hfits
      rw [writeSegments_cons, segment.write_of_fits hend hfirst]
      exact ih (hend.append _) hrest

/-- A sequence of segments is framed exactly when every one of them fits. -/
theorem framed_writeSegments_iff {segments : List Segment} {file : PosixFile}
    (hend : file.AtEnd) (hplaced : PlaceholdersFit segments) :
    Framed segments file (writeSegments segments file) ↔
      ∀ segment ∈ segments, segment.Fits := by
  constructor
  · intro hframed
    by_contra hfits
    obtain ⟨good, bad, back, hsplit, _, length, hlength, hholds⟩ :=
      writeSegments_of_not_fits hend hplaced hfits
    obtain ⟨rest, hrest⟩ := hholds.starts
    have hbad : bad ∈ segments := by
      rw [hsplit]
      exact List.mem_append_right _ List.mem_cons_self
    have hencode : encodeSegments segments = encodeSegments good ++
        (bad.header.bytes ++ (bad.payload ++ encodeSegments back)) := by
      rw [hsplit, encodeSegments, List.flatMap_append, List.flatMap_cons,
        Segment.bytes, List.append_assoc]
      rfl
    rw [hframed.content, hencode, List.append_assoc, List.append_assoc] at hrest
    have hheaders := List.append_cancel_left (List.append_cancel_left hrest)
    have hsize : (TraceFileContentHeader.bytes ⟨bad.type, length⟩).length =
        bad.header.bytes.length := by
      rw [TraceFileContentHeader.length_bytes, TraceFileContentHeader.length_bytes]
    have hheader := TraceFileContentHeader.bytes_injective
      (List.append_inj hheaders hsize).1
    have hsame : length = bad.header.length :=
      congrArg TraceFileContentHeader.length hheader
    exact hlength (hsame ▸ hframed.lengths bad hbad)
  · intro hfits
    refine ⟨writeSegments_of_fits hend hfits, ?_, writeSegments_atEnd hend hfits⟩
    intro segment hmem
    rw [Segment.header, UInt32.toNat_ofNat']
    exact Nat.mod_eq_of_lt (hfits segment hmem).lt

/-- These segments, and no others, went into the file and into the count of its
bytes. -/
structure Counted (segments : List Segment) (io next : TraceIo) : Prop where
  writable : next.Writable
  file : next.file = writeSegments segments io.file
  size : next.outputFileSize = sizeAfter segments io.outputFileSize

theorem Counted.of_store (segments : List Segment) {io : TraceIo}
    (hwritable : io.Writable) :
    Counted segments io (io.isFileExist.2.store segments) := by
  obtain ⟨hstart, hfile, hsize⟩ := hwritable.isFileExist
  refine ⟨hstart.store segments, ?_, ?_⟩
  · rw [← hfile]
    rfl
  · rw [← hsize]
    rfl

theorem Counted.nothing {io : TraceIo} (hwritable : io.Writable) :
    Counted [] io io.isFileExist.2 :=
  Counted.of_store [] hwritable

theorem Counted.trans {first second : List Segment} {io middle next : TraceIo}
    (hfirst : Counted first io middle) (hsecond : Counted second middle next) :
    Counted (first ++ second) io next := by
  refine ⟨hsecond.writable, ?_, ?_⟩
  · rw [writeSegments_append, ← hfirst.file]
    exact hsecond.file
  · rw [sizeAfter, List.foldl_append, hsecond.size, hfirst.size]
    rfl

/-! The writers behind `WriteTraceData`. -/

namespace TraceContent

theorem writeTraceData_gone (contentType : UInt8)
    (content : TraceIo → Int × TraceIo) {io : TraceIo} (hwritable : io.Writable)
    (hgone : io.isFileExist.1 = false) :
    Counted [] io (writeTraceData contentType content io).2 := by
  have hnothing := Counted.nothing hwritable
  rw [writeTraceData]
  generalize io.isFileExist = exist at hgone hnothing
  obtain ⟨found, start⟩ := exist
  cases hgone
  exact hnothing

/-- A source that does not open leaves a hole behind, which is cut off again. -/
theorem writeTraceData_failed (contentType : UInt8)
    {content : TraceIo → Int × TraceIo}
    (hfailed : ∀ io : TraceIo, io.Writable → content io = (-1, io))
    {io : TraceIo} (hwritable : io.Writable) (hend : io.file.AtEnd) :
    Counted [] io (writeTraceData contentType content io).2 := by
  have hnothing := Counted.nothing hwritable
  rw [writeTraceData]
  generalize io.isFileExist = exist at hnothing
  obtain ⟨found, start⟩ := exist
  obtain ⟨hstart, hfile, hsize⟩ := hnothing
  dsimp only at hstart hfile hsize ⊢
  split
  · exact ⟨hstart, hfile, hsize⟩
  · rw [hfailed _ (hstart.seek _)]
    refine ⟨⟨hstart.valid, hstart.headerWrites, hstart.writes⟩, ?_, hsize⟩
    rw [← show start.file = io.file from hfile] at hend
    rw [← hfile]
    obtain ⟨path, valid, ⟨bytes, offset⟩, headerWrites, writes, accesses, limit,
      size⟩ := start
    have hoffset : offset = bytes.length := hend
    rw [hoffset]
    simp [TraceIo.seek, PosixFile.seek, PosixFile.truncate]

/-- The offset ends where the count says, wherever the payload ends. -/
theorem writeTraceData_counted (contentType : UInt8)
    {content : TraceIo → Int × TraceIo} {payload : List UInt8} {count : Nat}
    (hcontent : ∀ io : TraceIo, io.Writable →
      content io = ((count : Int), io.put payload))
    {io : TraceIo} (hwritable : io.Writable) (hfound : io.isFileExist.1 = true)
    (hend : io.file.AtEnd) :
    (writeTraceData contentType content io).2.file =
      ⟨io.file.content ++
          (TraceFileContentHeader.bytes ⟨contentType, UInt32.ofNat count⟩ ++ payload),
        io.file.offset + contentHeaderSize + count⟩ := by
  obtain ⟨hstart, hfile, _⟩ := hwritable.isFileExist
  rw [writeTraceData]
  generalize io.isFileExist = exist at hfound hstart hfile
  obtain ⟨found, start⟩ := exist
  dsimp only at hfound hstart hfile ⊢
  rw [← hfile] at hend ⊢
  have hseek := hstart.seek (start.file.offset + contentHeaderSize)
  have hback := (hseek.put payload).seek start.file.offset
  have hcount : ¬ ((count : Int) < 0) := Int.not_lt.mpr (Int.natCast_nonneg _)
  let header : TraceFileContentHeader := ⟨contentType, UInt32.ofNat count⟩
  have hheader : (header.bytes.length : Int) = contentHeaderSize := by
    rw [header.length_bytes]
  have hstored := hend.write_behind (Segment.header_ne_nil header) payload
  rw [header.length_bytes] at hstored
  rw [hfound, hstart.valid, hcontent _ hseek]
  dsimp only
  rw [if_neg hcount, hback.write]
  dsimp only
  rw [Int.toNat_natCast, show (⟨contentType, UInt32.ofNat count⟩ :
    TraceFileContentHeader) = header from rfl, hheader]
  exact congrArg (fun file => file.seek (file.offset + count)) hstored

/-- Where one byte more is written than is counted, the offset ends one byte
early. -/
theorem writeTraceData_short (contentType : UInt8)
    {content : TraceIo → Int × TraceIo} {payload : List UInt8}
    (hpayload : payload ≠ [])
    (hcontent : ∀ io : TraceIo, io.Writable →
      content io = (((payload.length - 1 : Nat) : Int), io.put payload))
    {io : TraceIo} (hwritable : io.Writable) (hfound : io.isFileExist.1 = true)
    (hend : io.file.AtEnd) :
    ¬ (writeTraceData contentType content io).2.file.AtEnd := by
  have hlength : 0 < payload.length := List.length_pos_iff.mpr hpayload
  rw [writeTraceData_counted contentType hcontent hwritable hfound hend]
  intro hatEnd
  rw [PosixFile.AtEnd] at hatEnd hend
  rw [List.length_append, List.length_append,
    TraceFileContentHeader.length_bytes] at hatEnd
  dsimp only at hatEnd
  omega

/-- Without a filter, the process lines follow even when `saved_cmdlines` does not
open, and then they are counted from minus one. -/
theorem cmdLinesContent_unopened (isHm : Bool)
    (processes : Option (List (List UInt8))) {io : TraceIo}
    (hwritable : io.Writable) :
    cmdLinesContent isHm (.kernel none) processes io =
      (-1 + ((keptLines (processes.getD []) 0).length : Int),
        io.put (keptLines (processes.getD []) 0)) := by
  cases processes with
  | none => rfl
  | some lines => exact writeProcessLoop_writable lines [] (-1) hwritable

end TraceContent

namespace CpuRaw

/-- The segments of the pipes read before one does not open, or before the trace
file is found gone. -/
def pipesWritten (isHm : Bool) (request : TraceDumpRequest) :
    List RawPipe → Nat → TraceIo → List Segment
  | [], _, _ => []
  | pipe :: rest, cpuIdx, io =>
      if io.isFileExist.1 && pipe.opens then
        let segment := pipeSegment isHm request io.outputFileSize pipe cpuIdx
        segment :: pipesWritten isHm request rest (cpuIdx + 1)
          (io.isFileExist.2.store [segment])
      else []

theorem writeTracePipeRawData_refused (isHm : Bool) (request : TraceDumpRequest)
    {pipe : RawPipe} (cpuIdx : Nat) {content : RawContent}
    (hwritable : content.io.Writable)
    (hrefused : (content.io.isFileExist.1 && pipe.opens) = false) :
    ∃ next, writeTracePipeRawData isHm request pipe cpuIdx content = (false, next) ∧
      Counted [] content.io next.io := by
  have hnothing := Counted.nothing hwritable
  rw [writeTracePipeRawData]
  generalize content.io.isFileExist = exist at hrefused hnothing
  obtain ⟨found, start⟩ := exist
  dsimp only at hrefused hnothing ⊢
  rw [← Bool.not_and, hrefused]
  exact ⟨_, rfl, hnothing⟩

theorem writePipes_written (isHm : Bool) (request : TraceDumpRequest)
    (pipes : List RawPipe) (cpuIdx : Nat) (content : RawContent)
    (hwritable : content.io.Writable) :
    Counted (pipesWritten isHm request pipes cpuIdx content.io) content.io
      (writePipes isHm request pipes cpuIdx content).2.io := by
  induction pipes generalizing cpuIdx content with
  | nil => exact ⟨hwritable, rfl, rfl⟩
  | cons pipe rest ih =>
      rw [writePipes, pipesWritten]
      cases hserved : content.io.isFileExist.1 && pipe.opens with
      | false =>
          obtain ⟨next, hwrite, hnothing⟩ :=
            writeTracePipeRawData_refused isHm request cpuIdx hwritable hserved
          rw [hwrite]
          exact hnothing
      | true =>
          obtain ⟨hfound, hopens⟩ := Bool.and_eq_true_iff.mp hserved
          obtain ⟨hstart, _, hsize⟩ := hwritable.isFileExist
          obtain ⟨next, hwrite, hio⟩ := writeTracePipeRawData_store isHm request
            hopens cpuIdx (Prod.ext hfound rfl) hstart hsize
          have hcounted := Counted.of_store
            [pipeSegment isHm request content.io.outputFileSize pipe cpuIdx] hwritable
          rw [← hio] at hcounted
          have hrest := ih (cpuIdx + 1) next hcounted.writable
          rw [hio] at hrest
          rw [hwrite, if_pos rfl]
          exact hcounted.trans (hio ▸ hrest)

theorem placeholdersFit_pipesWritten (isHm : Bool) (request : TraceDumpRequest)
    (pipes : List RawPipe) (cpuIdx : Nat) (io : TraceIo) :
    PlaceholdersFit (pipesWritten isHm request pipes cpuIdx io) := by
  induction pipes generalizing cpuIdx io with
  | nil => exact placeholdersFit_nil
  | cons pipe rest ih =>
      rw [pipesWritten]
      split
      · exact PlaceholdersFit.append (placeholdersFit_singleton (.inr rfl))
          (ih (cpuIdx + 1) _)
      · exact placeholdersFit_nil

end CpuRaw

namespace SegmentWrite

/-- The segments whose headers the writer puts down, with the bytes it puts behind
each of them. -/
def written (isHm : Bool) (io : TraceIo) : SegmentWrite → List Segment
  | .baseInfo info => [⟨ContentType.baseInfo, baseInfoPayload info, some 0⟩]
  | .eventFmt (.saved source) =>
      if io.isFileExist.1 && source.isSome then
        [⟨ContentType.eventsFormat, sourcePayload isHm source, none⟩]
      else []
  | .eventFmt (.inline events) =>
      if io.isFileExist.1 then
        [⟨ContentType.eventsFormat, events.flatMap eventPayload, some 0⟩]
      else []
  | .cpuRaw request pipe others =>
      pipesWritten isHm request (if isHm then [pipe] else pipe :: others) 0 io
  | .cpuRawWrite taskId taskBuffers =>
      if io.isFileExist.1 then taskSegments isHm (taskBuffers.bucket taskId) else []
  | .cmdLines source processes =>
      if io.isFileExist.1 && (ListSource.opens source ||
          decide (keptLines (processes.getD []) 0 ≠ [])) then
        [⟨ContentType.cmdLines, cmdLinesPayload isHm source processes, none⟩]
      else []
  | .tgids source =>
      if io.isFileExist.1 && ListSource.opens source then
        [⟨ContentType.tgids, tgidsPayload isHm source, none⟩]
      else []
  | .headerPage source =>
      if !isHm && (io.isFileExist.1 && source.isSome) then
        [⟨ContentType.headerPage, sourcePayload isHm source, none⟩]
      else []
  | .printkFmt source =>
      if !isHm && (io.isFileExist.1 && source.isSome) then
        [⟨ContentType.printkFormats, sourcePayload isHm source, none⟩]
      else []

/-- The command lines are written without a filter, `saved_cmdlines` does not
open, and there is a process line to write. -/
def LosesByte (io : TraceIo) : SegmentWrite → Prop
  | .cmdLines (.kernel none) processes =>
      io.isFileExist.1 = true ∧ keptLines (processes.getD []) 0 ≠ []
  | _ => False

/-- Every block of the task belongs to a processor. -/
def Indexed : SegmentWrite → Prop
  | .cpuRawWrite taskId taskBuffers =>
      ∀ block ∈ taskBuffers.bucket taskId, 0 ≤ block.cpu
  | _ => True

theorem writeTraceData_written (contentType : UInt8)
    {content : TraceIo → Int × TraceIo} {payload : List UInt8} {opens : Bool}
    (hopens : opens = true → ∀ io : TraceIo, io.Writable →
      content io = ((payload.length : Int), io.put payload))
    (hfailed : opens = false → ∀ io : TraceIo, io.Writable → content io = (-1, io))
    {io : TraceIo} (hwritable : io.Writable) (hend : io.file.AtEnd) :
    Counted (if io.isFileExist.1 && opens then [⟨contentType, payload, none⟩] else [])
      io (writeTraceData contentType content io).2 := by
  cases hfound : io.isFileExist.1 with
  | false => exact writeTraceData_gone contentType content hwritable hfound
  | true =>
      cases opens with
      | false => exact writeTraceData_failed contentType (hfailed rfl) hwritable hend
      | true =>
          rw [writeTraceData_store contentType (hopens rfl) (Prod.ext hfound rfl)
            hwritable.isFileExist.1]
          exact Counted.of_store _ hwritable

theorem sourceData_written (isHm : Bool) (contentType : UInt8)
    (source : Option (List SourceRead)) {io : TraceIo} (hwritable : io.Writable)
    (hend : io.file.AtEnd) :
    Counted (if io.isFileExist.1 && source.isSome then
        [⟨contentType, sourcePayload isHm source, none⟩] else []) io
      (writeTraceData contentType (writeTraceDataContent isHm source) io).2 := by
  refine writeTraceData_written contentType ?_ ?_ hwritable hend
  · exact fun hsome _ hio => writeTraceDataContent_writable isHm source hsome hio
  · intro hnone io _
    rw [Option.isSome_eq_false_iff, Option.isNone_iff_eq_none] at hnone
    rw [hnone]
    rfl

theorem opens_eq_false {source : ListSource}
    (hopens : ListSource.opens source = false) : source = .kernel none := by
  cases source with
  | kernel source =>
      cases source with
      | none => rfl
      | some pages => exact nomatch hopens
  | filter lines => exact nomatch hopens

theorem tgids_written (isHm : Bool) (source : ListSource) {io : TraceIo}
    (hwritable : io.Writable) (hend : io.file.AtEnd) :
    Counted (written isHm io (.tgids source)) io (traceTgids isHm source io).2 := by
  refine writeTraceData_written ContentType.tgids ?_ ?_ hwritable hend
  · exact fun hopens _ hio => tgidsContent_writable isHm hopens hio
  · intro hopens io _
    rw [opens_eq_false hopens]
    rfl

theorem cmdLines_written (isHm : Bool) {source : ListSource}
    (processes : Option (List (List UInt8))) {io : TraceIo}
    (hsafe : ¬ LosesByte io (.cmdLines source processes))
    (hwritable : io.Writable) (hend : io.file.AtEnd) :
    Counted (written isHm io (.cmdLines source processes)) io
      (traceCmdLines isHm source processes io).2 := by
  cases hfound : io.isFileExist.1 with
  | false =>
      rw [written, hfound]
      exact writeTraceData_gone _ _ hwritable hfound
  | true =>
      cases hopens : ListSource.opens source with
      | true =>
          rw [written, hfound, hopens, traceCmdLines,
            writeTraceData_store ContentType.cmdLines
              (fun _ hio => cmdLinesContent_writable isHm processes hopens hio)
              (Prod.ext hfound rfl) hwritable.isFileExist.1]
          exact Counted.of_store _ hwritable
      | false =>
          obtain rfl := opens_eq_false hopens
          have hkept : keptLines (processes.getD []) 0 = [] := by
            by_contra hkept
            exact hsafe ⟨hfound, hkept⟩
          rw [written, hfound, hopens, hkept]
          refine writeTraceData_failed _ ?_ hwritable hend
          intro io hio
          rw [cmdLinesContent_unopened isHm processes hio, hkept]
          rfl

theorem writeTraceContent_counted {isHm : Bool} {write : SegmentWrite}
    {io : TraceIo} (hindexed : write.Indexed) (hsafe : ¬ write.LosesByte io)
    (hwritable : io.Writable) (hend : io.file.AtEnd) :
    Counted (write.written isHm io) io (write.writeTraceContent isHm io) := by
  have hstart := hwritable.isFileExist.1
  have hnothing := Counted.nothing hwritable
  cases write with
  | baseInfo info =>
      rw [writeTraceContent, traceBaseInfo_store info hwritable]
      exact ⟨hwritable.store _, rfl, rfl⟩
  | eventFmt source =>
      cases source with
      | saved source => exact sourceData_written isHm _ source hwritable hend
      | inline events =>
          cases hfound : io.isFileExist.1 with
          | true =>
              rw [writeTraceContent, written, hfound, traceEventFmt,
                writeTraceContentInline_store events (Prod.ext hfound rfl) hstart]
              exact Counted.of_store _ hwritable
          | false =>
              rw [writeTraceContent, written, hfound, traceEventFmt,
                writeTraceContentInline]
              generalize io.isFileExist = exist at hfound hnothing
              obtain ⟨found, start⟩ := exist
              cases hfound
              exact hnothing
  | cpuRaw request pipe others =>
      cases isHm with
      | true => exact writePipes_written true request [pipe] 0 { io } hwritable
      | false =>
          exact writePipes_written false request (pipe :: others) 0 { io } hwritable
  | cpuRawWrite taskId taskBuffers =>
      cases hfound : io.isFileExist.1 with
      | true =>
          have hcounted := Counted.of_store
            (taskSegments isHm (taskBuffers.bucket taskId)) hwritable
          rw [written, hfound]
          cases isHm with
          | true =>
              rw [← traceCpuRawWriteHM_store (Prod.ext hfound rfl) hstart] at hcounted
              exact hcounted
          | false =>
              rw [← traceCpuRawWriteLinux_store hindexed (Prod.ext hfound rfl) hstart]
                at hcounted
              exact hcounted
      | false =>
          rw [written, hfound, writeTraceContent, traceCpuRawWriteHM,
            traceCpuRawWriteLinux]
          generalize io.isFileExist = exist at hfound hnothing
          obtain ⟨found, start⟩ := exist
          cases hfound
          cases isHm with
          | true => exact hnothing
          | false => exact hnothing
  | cmdLines source processes =>
      exact cmdLines_written isHm processes hsafe hwritable hend
  | tgids source => exact tgids_written isHm source hwritable hend
  | headerPage source =>
      cases isHm with
      | true => exact ⟨hwritable, rfl, rfl⟩
      | false => exact sourceData_written false _ source hwritable hend
  | printkFmt source =>
      cases isHm with
      | true => exact ⟨hwritable, rfl, rfl⟩
      | false => exact sourceData_written false _ source hwritable hend

theorem not_atEnd_of_losesByte {isHm : Bool} {write : SegmentWrite} {io : TraceIo}
    (hloses : write.LosesByte io) (hwritable : io.Writable)
    (hend : io.file.AtEnd) : ¬ (write.writeTraceContent isHm io).file.AtEnd := by
  match write, hloses with
  | .cmdLines (.kernel none) processes, ⟨hfound, hkept⟩ =>
      refine writeTraceData_short ContentType.cmdLines hkept ?_ hwritable hfound hend
      intro io hio
      have hlength := List.length_pos_iff.mpr hkept
      rw [cmdLinesContent_unopened isHm processes hio]
      refine Prod.ext ?_ rfl
      dsimp only
      omega

theorem placeholdersFit_written (isHm : Bool) (io : TraceIo) (write : SegmentWrite) :
    PlaceholdersFit (write.written isHm io) := by
  have hplain : ∀ (found : Bool) (type : UInt8) (payload : List UInt8)
      (placeholder : Option UInt32), placeholder = none ∨ placeholder = some 0 →
        PlaceholdersFit (if found then [⟨type, payload, placeholder⟩] else []) := by
    intro found type payload placeholder hplaceholder
    cases found with
    | true => exact placeholdersFit_singleton hplaceholder
    | false => exact placeholdersFit_nil
  cases write with
  | baseInfo info => exact placeholdersFit_singleton (.inr rfl)
  | eventFmt source =>
      cases source with
      | saved source => exact hplain _ _ _ _ (.inl rfl)
      | inline events => exact hplain _ _ _ _ (.inr rfl)
  | cpuRaw request pipe others => exact placeholdersFit_pipesWritten _ _ _ _ _
  | cpuRawWrite taskId taskBuffers =>
      rw [written]
      split
      · exact placeholdersFit_taskSegments isHm _
      · exact placeholdersFit_nil
  | cmdLines source processes => exact hplain _ _ _ _ (.inl rfl)
  | tgids source => exact hplain _ _ _ _ (.inl rfl)
  | headerPage source => exact hplain _ _ _ _ (.inl rfl)
  | printkFmt source => exact hplain _ _ _ _ (.inl rfl)

/-- A writer frames what it writes exactly when every segment fits its length
field and the command lines do not lose a byte. -/
theorem segment_framing_iff (isHm : Bool) {write : SegmentWrite} {io : TraceIo}
    (hindexed : write.Indexed) (hwritable : io.Writable) (hend : io.file.AtEnd) :
    Framed (write.written isHm io) io.file (write.writeTraceContent isHm io).file ↔
      ¬ write.LosesByte io ∧ ∀ segment ∈ write.written isHm io, segment.Fits := by
  by_cases hloses : write.LosesByte io
  · constructor
    · intro hframed
      exact absurd hframed.atEnd (not_atEnd_of_losesByte hloses hwritable hend)
    · intro hsafe
      exact absurd hloses hsafe.1
  · rw [(writeTraceContent_counted hindexed hloses hwritable hend).file,
      framed_writeSegments_iff hend (placeholdersFit_written isHm io write)]
    exact ⟨fun hfits => ⟨hloses, hfits⟩, fun hfits => hfits.2⟩

def emptyIo : TraceIo where
  traceFilePath := ['t']
  fdValid := true

/-- One thread group, from the kernel. -/
def oneTgid : SegmentWrite :=
  .tgids (.kernel (some
    [⟨bytesOf "1 1\n", 4096, by decide, by decide⟩]))

theorem segment_framing_iff_tgids :
    Framed (oneTgid.written false emptyIo) emptyIo.file
      (oneTgid.writeTraceContent false emptyIo).file := by
  refine (segment_framing_iff false ?_ ?_ ?_).mpr ?_
  · trivial
  · exact ⟨rfl, rfl, rfl⟩
  · rfl
  · exact ⟨id, by decide⟩

/-- `saved_cmdlines` does not open, and one process is listed. -/
def unopenedCmdLines : SegmentWrite :=
  .cmdLines (.kernel none) (some [bytesOf "1 a\n"])

theorem unopened_cmdlines_lose_byte :
    ¬ ∀ (isHm : Bool) (write : SegmentWrite) (io : TraceIo), write.Indexed →
      io.Writable → io.file.AtEnd →
        Framed (write.written isHm io) io.file
          (write.writeTraceContent isHm io).file := by
  intro hframed
  have hwritable : emptyIo.Writable := ⟨rfl, rfl, rfl⟩
  have hone := hframed false unopenedCmdLines emptyIo trivial hwritable rfl
  have hloses : unopenedCmdLines.LosesByte emptyIo := ⟨rfl, by decide⟩
  exact not_atEnd_of_losesByte hloses hwritable rfl hone.atEnd

end SegmentWrite

end Hitrace
