import Hitrace.HitraceConverter.TraceFile
import Hitrace.TraceFactory.RawSegments

namespace Hitrace

open Library TraceContent CpuRaw HitraceConverter

/-! Files made of a header and any sequence of segment writes. -/

/-- One writer of the factory, with the sources it reads.  The Linux kernel has a
raw pipe for each processor; HM has only the first. -/
inductive SegmentWrite
  | baseInfo (info : BaseInfo)
  | eventFmt (source : EventFmt)
  | cpuRaw (request : TraceDumpRequest) (pipe : RawPipe) (others : List RawPipe)
  | cpuRawWrite (taskId : UInt64) (taskBuffers : Multimap UInt64 BufferBlock)
  | cmdLines (source : ListSource) (processes : Option (List (List UInt8)))
  | tgids (source : ListSource)
  | headerPage (source : Option (List SourceRead))
  | printkFmt (source : Option (List SourceRead))

namespace SegmentWrite

def writeTraceContent (isHm : Bool) (io : TraceIo) : SegmentWrite → TraceIo
  | .baseInfo info => (traceBaseInfo info io).2
  | .eventFmt source => (traceEventFmt isHm source io).2
  | .cpuRaw request pipe others =>
      if isHm then (traceCpuRawHM request pipe io).2.io
      else (traceCpuRawLinux request (pipe :: others) io).2.io
  | .cpuRawWrite taskId taskBuffers =>
      if isHm then (traceCpuRawWriteHM taskId taskBuffers io).2.2
      else (traceCpuRawWriteLinux taskId taskBuffers io).2.2
  | .cmdLines source processes => (traceCmdLines isHm source processes io).2
  | .tgids source => (traceTgids isHm source io).2
  | .headerPage source => (traceHeaderPage isHm source io).2
  | .printkFmt source => (tracePrintkFmt isHm source io).2

/-- The sources can be opened, and the blocks belong to processors. -/
def Openable (isHm : Bool) : SegmentWrite → Prop
  | .baseInfo _ => True
  | .eventFmt (.saved source) => source.isSome = true
  | .eventFmt (.inline _) => True
  | .cpuRaw _ pipe others =>
      pipe.opens = true ∧ (isHm = false → ∀ other ∈ others, other.opens = true)
  | .cpuRawWrite taskId taskBuffers =>
      ∀ block ∈ taskBuffers.bucket taskId, 0 ≤ block.cpu
  | .cmdLines source _ => ListSource.opens source = true
  | .tgids source => ListSource.opens source = true
  | .headerPage source => source.isSome = true
  | .printkFmt source => source.isSome = true

/-- The segments it puts into a file of which `outputFileSize` bytes are
written. -/
def segments (isHm : Bool) (outputFileSize : Int32) : SegmentWrite → List Segment
  | .baseInfo info => [⟨ContentType.baseInfo, baseInfoPayload info, some 0⟩]
  | .eventFmt (.saved source) =>
      [⟨ContentType.eventsFormat, sourcePayload isHm source, none⟩]
  | .eventFmt (.inline events) =>
      [⟨ContentType.eventsFormat, events.flatMap eventPayload, some 0⟩]
  | .cpuRaw request pipe others =>
      pipeSegments isHm request (if isHm then [pipe] else pipe :: others) 0
        outputFileSize
  | .cpuRawWrite taskId taskBuffers =>
      taskSegments isHm (taskBuffers.bucket taskId)
  | .cmdLines source processes =>
      [⟨ContentType.cmdLines, cmdLinesPayload isHm source processes, none⟩]
  | .tgids source => [⟨ContentType.tgids, tgidsPayload isHm source, none⟩]
  | .headerPage source =>
      if isHm then []
      else [⟨ContentType.headerPage, sourcePayload isHm source, none⟩]
  | .printkFmt source =>
      if isHm then []
      else [⟨ContentType.printkFormats, sourcePayload isHm source, none⟩]

theorem writeTraceContent_wrote {isHm : Bool} {write : SegmentWrite}
    (hopens : write.Openable isHm) {io : TraceIo} (hready : io.Ready) :
    Wrote (write.segments isHm io.outputFileSize) io
      (write.writeTraceContent isHm io) := by
  cases write with
  | baseInfo info => exact traceBaseInfo_wrote info hready
  | eventFmt source =>
      cases source with
      | saved source => exact traceEventFmt_saved_wrote isHm hopens hready
      | inline events => exact writeTraceContentInline_wrote events hready
  | cpuRaw request pipe others =>
      cases isHm with
      | true =>
          exact traceCpuRaw_wrote true request
            (List.forall_mem_singleton.mpr hopens.1) hready
      | false =>
          exact traceCpuRaw_wrote false request
            (List.forall_mem_cons.mpr ⟨hopens.1, hopens.2 rfl⟩) hready
  | cpuRawWrite taskId taskBuffers =>
      cases isHm with
      | true => exact traceCpuRawWriteHM_wrote hready
      | false => exact traceCpuRawWriteLinux_wrote hopens hready
  | cmdLines source processes =>
      exact writeTraceData_wrote _
        (fun _ hio => cmdLinesContent_writable isHm processes hopens hio) hready
  | tgids source =>
      exact writeTraceData_wrote _
        (fun _ hio => tgidsContent_writable isHm hopens hio) hready
  | headerPage source =>
      cases isHm with
      | true => exact Wrote.nil hready
      | false =>
          exact writeTraceData_wrote _
            (fun _ hio => writeTraceDataContent_writable false source hopens hio) hready
  | printkFmt source =>
      cases isHm with
      | true => exact Wrote.nil hready
      | false =>
          exact writeTraceData_wrote _
            (fun _ hio => writeTraceDataContent_writable false source hopens hio) hready

theorem placeholdersFit_segments (isHm : Bool) (outputFileSize : Int32)
    (write : SegmentWrite) :
    PlaceholdersFit (write.segments isHm outputFileSize) := by
  cases write with
  | baseInfo _ => exact placeholdersFit_singleton (.inr rfl)
  | eventFmt source =>
      cases source with
      | saved _ => exact placeholdersFit_singleton (.inl rfl)
      | inline _ => exact placeholdersFit_singleton (.inr rfl)
  | cpuRaw request pipe others =>
      exact placeholdersFit_pipeSegments isHm request _ 0 outputFileSize
  | cpuRawWrite taskId taskBuffers =>
      exact placeholdersFit_taskSegments isHm (taskBuffers.bucket taskId)
  | cmdLines _ _ => exact placeholdersFit_singleton (.inl rfl)
  | tgids _ => exact placeholdersFit_singleton (.inl rfl)
  | headerPage _ =>
      cases isHm with
      | true => exact placeholdersFit_nil
      | false => exact placeholdersFit_singleton (.inl rfl)
  | printkFmt _ =>
      cases isHm with
      | true => exact placeholdersFit_nil
      | false => exact placeholdersFit_singleton (.inl rfl)

end SegmentWrite

def writeContents (isHm : Bool) (writes : List SegmentWrite) (io : TraceIo) :
    TraceIo :=
  writes.foldl (fun io write => write.writeTraceContent isHm io) io

def contentSegments (isHm : Bool) : List SegmentWrite → Int32 → List Segment
  | [], _ => []
  | write :: rest, outputFileSize =>
      let segments := write.segments isHm outputFileSize
      segments ++ contentSegments isHm rest (sizeAfter segments outputFileSize)

theorem writeContents_wrote {isHm : Bool} {writes : List SegmentWrite}
    (hopens : ∀ write ∈ writes, write.Openable isHm) {io : TraceIo}
    (hready : io.Ready) :
    Wrote (contentSegments isHm writes io.outputFileSize) io
      (writeContents isHm writes io) := by
  induction writes generalizing io with
  | nil => exact Wrote.nil hready
  | cons write rest ih =>
      obtain ⟨hfirst, hothers⟩ := List.forall_mem_cons.mp hopens
      have hwrote := SegmentWrite.writeTraceContent_wrote hfirst hready
      have hrest := ih hothers hwrote.ready
      rw [hwrote.size] at hrest
      exact hwrote.trans hrest

theorem placeholdersFit_contentSegments (isHm : Bool) (writes : List SegmentWrite)
    (outputFileSize : Int32) :
    PlaceholdersFit (contentSegments isHm writes outputFileSize) := by
  induction writes generalizing outputFileSize with
  | nil => exact placeholdersFit_nil
  | cons write rest ih =>
      exact (write.placeholdersFit_segments isHm outputFileSize).append (ih _)

/-- A trace file: the file header, then the segments. -/
def writeTraceFile (isHm is32Bit : Bool) (cpuNums : Int)
    (writes : List SegmentWrite) (io : TraceIo) : TraceIo :=
  writeContents isHm writes (traceFileHdr isHm is32Bit cpuNums io).2

/-- The number of processors survives the way through the reserved word. -/
theorem reserved_cpuNums (is32Bit : Bool) {cpuNums : Int} (hlow : 1 ≤ cpuNums)
    (hhigh : cpuNums ≤ 24) :
    (((if is32Bit then (1 : UInt32) else 0) |||
      (UInt32.ofNat cpuNums.toNat <<< 1)).toNat >>> 1) &&& 0b00011111 =
        cpuNums.toNat := by
  cases is32Bit with
  | true => interval_cases cpuNums <;> rfl
  | false => interval_cases cpuNums <;> rfl

theorem traceFileHdr_ready (isHm is32Bit : Bool) {cpuNums : Int}
    (hlow : 1 ≤ cpuNums) (hhigh : cpuNums ≤ 24) {io : TraceIo} (hready : io.Ready) :
    ∃ header : TraceFileHeader,
      (traceFileHdr isHm is32Bit cpuNums io).2 = io.put header.bytes ∧
      (header.reserved.toNat >>> 1) &&& 0b00011111 = cpuNums.toNat := by
  have hcpus : ¬ (cpuNums > maxCpuNums ∨ cpuNums ≤ 0) := by
    rw [maxCpuNums]
    omega
  let reserved : UInt32 :=
    (if is32Bit then (1 : UInt32) else 0) |||
      (UInt32.ofNat cpuNums.toNat <<< 1)
  have hreserved : (reserved.toNat >>> 1) &&& 0b00011111 = cpuNums.toNat :=
    reserved_cpuNums is32Bit hlow hhigh
  let header : TraceFileHeader :=
    if isHm then { reserved, fileType := hmFileRawTrace } else { reserved }
  refine ⟨header, ?_, ?_⟩
  · rw [traceFileHdr, initTraceFileHdr, if_neg hcpus]
    exact congrArg Prod.snd (hready.writable.write header.bytes)
  · cases isHm with
    | true => exact hreserved
    | false => exact hreserved

theorem fileHeader_accept (file : TraceFile) {header : TraceFileHeader} {padding : Padding}
    {back : List UInt8} (hrest : file.Rest (header.padded padding ++ back)) :
    ∃ next : TraceFile, FileHeader.accept file =
        (some ((header.reserved.toNat >>> 1) &&& 0b00011111), next) ∧
      next.Rest back ∧ next.content = file.content := by
  obtain ⟨next, hread, hnext, hcontent⟩ := hrest.readData
  refine ⟨next, ?_, hnext, hcontent⟩
  rw [FileHeader.accept, ← length_fileHeader header padding, hread]
  dsimp only
  rw [parseSimpleField_fileHeader]

/-- The converter finds the number of processors and the segments, and stops at
the end of the file. -/
def Recovers (content : List UInt8) (cpuNums : Int) (segments : List Segment) :
    Prop :=
  traceFileFormat content = some
    ⟨cpuNums.toNat, segments.map fun segment =>
      (segment.type.toNat, some segment.payload), content.length⟩

instance (content : List UInt8) (cpuNums : Int) (segments : List Segment) :
    Decidable (Recovers content cpuNums segments) :=
  inferInstanceAs (Decidable (_ = _))

theorem recovers_of_fits {cpuNums : Int} {header : TraceFileHeader}
    (hcpu : (header.reserved.toNat >>> 1) &&& 0b00011111 = cpuNums.toNat)
    {segments : List Segment} (hcount : segments.length ≤ 256)
    (hfits : ∀ segment ∈ segments, segment.Fits) :
    Recovers (header.bytes ++ encodeSegments segments) cpuNums segments := by
  obtain ⟨next, haccept, hnext, hcontent⟩ := fileHeader_accept
    { content := header.bytes ++ encodeSegments segments } ⟨rfl, Nat.zero_le _⟩
  obtain ⟨final, hpost, hloop⟩ :=
    SegmentWrapper.acceptLoop_segments hcount hfits hnext
  have hsegments : SegmentWrapper.accept next = some
      (segments.map (fun segment =>
        (segment.type.toNat, some segment.payload)), final) := hloop
  rw [Recovers, traceFileFormat, haccept]
  dsimp only
  rw [hsegments, hcpu, Option.map_some, hpost, TraceFile.size, hcontent]

theorem not_recovers_of_wrong {cpuNums : Int} {header : TraceFileHeader}
    {segments good back : List Segment} {bad : Segment}
    (hsplit : segments = good ++ bad :: back)
    (hgood : ∀ segment ∈ good, segment.Fits) {length : UInt32}
    (hlength : length.toNat ≠ bad.payload.length) (tail : List UInt8) :
    ¬ Recovers (header.bytes ++ encodeSegments good ++
      TraceFileContentHeader.bytes ⟨bad.type, length⟩ ++ tail) cpuNums
        segments := by
  intro hrecovers
  let wrong : TraceFileContentHeader := ⟨bad.type, length⟩
  have hrest : TraceFile.Rest
      { content := header.bytes ++ encodeSegments good ++ wrong.bytes ++ tail }
      (header.bytes ++ (encodeSegments good ++ (wrong.bytes ++ tail))) := by
    refine ⟨?_, Nat.zero_le _⟩
    rw [List.append_assoc, List.append_assoc]
    rfl
  obtain ⟨next, haccept, hnext, _⟩ := fileHeader_accept _ hrest
  rw [Recovers, traceFileFormat, haccept] at hrecovers
  obtain ⟨⟨parsed, final⟩, hloop, hparsed⟩ := Option.map_eq_some_iff.mp hrecovers
  obtain ⟨data, hdata, hbytes⟩ :=
    SegmentWrapper.acceptLoop_wrong hgood hnext hloop
  have hsegments := congrArg Parsed.segments hparsed
  dsimp only at hsegments
  rw [hsegments, hsplit] at hdata
  have hpayload : data = some bad.payload := by
    simpa using (congrArg (Option.map Prod.snd) hdata).symm
  exact hlength (hbytes bad.payload hpayload).symm

/-! The file the writers leave behind. -/

/-- The file holds its header and the segments, as far as those fit. -/
theorem writeTraceFile_segments {isHm is32Bit : Bool} {cpuNums : Int}
    (hlow : 1 ≤ cpuNums) (hhigh : cpuNums ≤ 24) {writes : List SegmentWrite}
    (hopens : ∀ write ∈ writes, write.Openable isHm) {io : TraceIo}
    (hready : io.Ready) (hfile : io.file = {}) :
    ∃ header : TraceFileHeader,
      (header.reserved.toNat >>> 1) &&& 0b00011111 = cpuNums.toNat ∧
      (writeTraceFile isHm is32Bit cpuNums writes io).file =
        writeSegments (contentSegments isHm writes io.outputFileSize)
          ⟨header.bytes, header.bytes.length⟩ := by
  obtain ⟨header, hheader, hcpu⟩ :=
    traceFileHdr_ready isHm is32Bit hlow hhigh hready
  have hwrote := writeContents_wrote hopens (hready.put header.bytes)
  have hstart : (io.put header.bytes).file =
      ⟨header.bytes, header.bytes.length⟩ := by
    have hempty : PosixFile.AtEnd {} := rfl
    rw [TraceIo.put, hfile, hempty.write, PosixFile.append, List.nil_append,
      Nat.zero_add]
  refine ⟨header, hcpu, ?_⟩
  rw [writeTraceFile, hheader, hwrote.file, hstart]
  rfl

theorem recovers_writeTraceFile {isHm is32Bit : Bool} {cpuNums : Int}
    (hlow : 1 ≤ cpuNums) (hhigh : cpuNums ≤ 24) {writes : List SegmentWrite}
    (hopens : ∀ write ∈ writes, write.Openable isHm) {io : TraceIo}
    (hready : io.Ready) (hfile : io.file = {})
    (hcount : (contentSegments isHm writes io.outputFileSize).length ≤ 256)
    (hfits : ∀ segment ∈ contentSegments isHm writes io.outputFileSize,
      segment.Fits) :
    Recovers (writeTraceFile isHm is32Bit cpuNums writes io).file.content cpuNums
      (contentSegments isHm writes io.outputFileSize) := by
  obtain ⟨header, hcpu, hwritten⟩ :=
    writeTraceFile_segments hlow hhigh hopens hready hfile
  have hend : PosixFile.AtEnd ⟨header.bytes, header.bytes.length⟩ := rfl
  rw [hwritten, writeSegments_of_fits hend hfits]
  exact recovers_of_fits hcpu hcount hfits

theorem not_recovers_writeTraceFile {isHm is32Bit : Bool} {cpuNums : Int}
    (hlow : 1 ≤ cpuNums) (hhigh : cpuNums ≤ 24) {writes : List SegmentWrite}
    (hopens : ∀ write ∈ writes, write.Openable isHm) {io : TraceIo}
    (hready : io.Ready) (hfile : io.file = {})
    (hfits : ¬ ∀ segment ∈ contentSegments isHm writes io.outputFileSize,
      segment.Fits) :
    ¬ Recovers (writeTraceFile isHm is32Bit cpuNums writes io).file.content
      cpuNums (contentSegments isHm writes io.outputFileSize) := by
  obtain ⟨header, _, hwritten⟩ :=
    writeTraceFile_segments hlow hhigh hopens hready hfile
  have hplaced :=
    placeholdersFit_contentSegments isHm writes io.outputFileSize
  have hend : PosixFile.AtEnd ⟨header.bytes, header.bytes.length⟩ := rfl
  obtain ⟨good, bad, back, hsplit, hgood, length, hlength, hholds⟩ :=
    writeSegments_of_not_fits hend hplaced hfits
  obtain ⟨tail, htail⟩ := hholds.starts
  rw [hwritten, ← htail]
  exact not_recovers_of_wrong hsplit hgood hlength tail

/-- The converter recovers a trace file exactly when every payload fits its
length field and, where the header is patched, so does the way back to the
header. -/
theorem container_round_trip_iff {isHm is32Bit : Bool} {cpuNums : Int}
    (hlow : 1 ≤ cpuNums) (hhigh : cpuNums ≤ 24) {writes : List SegmentWrite}
    (hopens : ∀ write ∈ writes, write.Openable isHm) {io : TraceIo}
    (hready : io.Ready) (hfile : io.file = {})
    (hcount : (contentSegments isHm writes io.outputFileSize).length ≤ 256) :
    Recovers (writeTraceFile isHm is32Bit cpuNums writes io).file.content cpuNums
        (contentSegments isHm writes io.outputFileSize) ↔
      ∀ segment ∈ contentSegments isHm writes io.outputFileSize,
        segment.Fits := by
  constructor
  · intro hrecovers
    by_contra hfits
    exact not_recovers_writeTraceFile hlow hhigh hopens hready hfile hfits
      hrecovers
  · exact recovers_writeTraceFile hlow hhigh hopens hready hfile hcount

/-- A Linux dump of two processors, one of them without a page. -/
theorem container_round_trip_iff_two_cpus :
    ∃ (writes : List SegmentWrite) (io : TraceIo), io.Ready ∧
      (contentSegments false writes io.outputFileSize).map
        (fun segment => (segment.type, segment.payload)) =
          [(1, [7, 7]), (4, [0, 0, 0, 0, 0, 0, 0, 0]), (5, []), (3, [])] ∧
      Recovers (writeTraceFile false false 2 writes io).file.content 2
        (contentSegments false writes io.outputFileSize) := by
  let read : SourceRead := ⟨[7, 7], 0, List.cons_ne_nil _ _, by decide⟩
  let page : RawPage := ⟨List.replicate 8 0, 0, by decide⟩
  let writes : List SegmentWrite :=
    [.eventFmt (.inline [⟨true, some [read]⟩]),
      .cpuRaw { traceEndTime := 100 } ⟨true, [page]⟩ [⟨true, []⟩],
      .tgids (.kernel (some []))]
  let io : TraceIo := { traceFilePath := ['a'], fdValid := true }
  have hready : io.Ready := ⟨List.cons_ne_nil _ _, rfl, rfl, rfl, rfl⟩
  have hopens : ∀ write ∈ writes, write.Openable false := by
    simp [writes, SegmentWrite.Openable, ListSource.opens]
  have hcount : (contentSegments false writes io.outputFileSize).length ≤ 256 := by
    decide
  have hfits : ∀ segment ∈ contentSegments false writes io.outputFileSize,
      segment.Fits := by
    decide
  exact ⟨writes, io, hready, by decide,
    (container_round_trip_iff (by decide) (by decide) hopens hready rfl hcount).mpr
      hfits⟩

def zeroRead (length : Nat) (hlength : 0 < length ∧ length ≤ pageSize) :
    SourceRead where
  bytes := List.replicate length 0
  pageHeaderSize := 0
  nonempty := by
    rw [ne_eq, List.replicate_eq_nil_iff]
    omega
  fits := by
    rw [List.length_replicate]
    exact hlength.2

/-- A source of zeros, read page by page. -/
def zeroReads (pages rest : Nat) (hrest : 0 < rest ∧ rest ≤ pageSize) :
    List SourceRead :=
  List.replicate pages (zeroRead pageSize ⟨by decide, Nat.le_refl _⟩) ++
    [zeroRead rest hrest]

theorem length_zeroReads (pages rest : Nat) (hrest : 0 < rest ∧ rest ≤ pageSize) :
    ((zeroReads pages rest hrest).flatMap SourceRead.bytes).length =
      pages * pageSize + rest := by
  simp [zeroReads, zeroRead, List.flatMap_append, List.length_flatMap]

/-- Event formats of 2^32 - 8 bytes: the way back to the header wraps to zero,
the length is written behind the payload, and the segment reads as empty. -/
theorem wrapped_patch_loses_payload :
    ¬ ∀ (isHm is32Bit : Bool) (cpuNums : Int) (writes : List SegmentWrite)
      (io : TraceIo), 1 ≤ cpuNums → cpuNums ≤ 24 →
      (∀ write ∈ writes, write.Openable isHm) → io.Ready → io.file = {} →
      (∀ segment ∈ contentSegments isHm writes io.outputFileSize,
        segment.payload.length < 2 ^ 32) →
      (contentSegments isHm writes io.outputFileSize).length ≤ 256 →
        Recovers (writeTraceFile isHm is32Bit cpuNums writes io).file.content
          cpuNums (contentSegments isHm writes io.outputFileSize) := by
  intro hclaim
  let reads := zeroReads (2 ^ 20 - 1) 4088 ⟨by decide, by decide⟩
  let writes : List SegmentWrite := [.eventFmt (.inline [⟨true, some reads⟩])]
  let io : TraceIo := { traceFilePath := ['a'], fdValid := true }
  let segment : Segment :=
    ⟨ContentType.eventsFormat, reads.flatMap SourceRead.bytes ++ [], some 0⟩
  have hsegments : contentSegments false writes io.outputFileSize = [segment] := rfl
  have hlength : segment.payload.length = 2 ^ 32 - 8 := by
    have hreads := length_zeroReads (2 ^ 20 - 1) 4088 ⟨by decide, by decide⟩
    rw [show segment.payload = reads.flatMap SourceRead.bytes ++ [] from rfl,
      List.append_nil, hreads, pageSize]
    decide
  have hready : io.Ready := ⟨List.cons_ne_nil _ _, rfl, rfl, rfl, rfl⟩
  have hopens : ∀ write ∈ writes, write.Openable false :=
    List.forall_mem_singleton.mpr trivial
  have hshort : ∀ segment ∈ contentSegments false writes io.outputFileSize,
      segment.payload.length < 2 ^ 32 := by
    rw [hsegments]
    refine List.forall_mem_singleton.mpr ?_
    rw [hlength]
    decide
  have hfits : ¬ ∀ segment ∈ contentSegments false writes io.outputFileSize,
      segment.Fits := by
    rw [hsegments]
    intro hall
    have hfit : segment.payload.length + contentHeaderSize < 2 ^ 32 :=
      hall segment (List.mem_singleton.mpr rfl)
    rw [hlength] at hfit
    exact absurd hfit (by decide)
  have hcount : (contentSegments false writes io.outputFileSize).length ≤ 256 := by
    rw [hsegments]
    decide
  have hrecovers := hclaim false false 1 writes io (by decide) (by decide) hopens
    hready rfl hshort hcount
  exact not_recovers_writeTraceFile (by decide) (by decide) hopens hready rfl hfits
    hrecovers

end Hitrace
