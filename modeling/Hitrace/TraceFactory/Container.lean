import Hitrace.TracedumpExecutor.DumpStrategy
import Hitrace.TraceFactory.Segment

namespace Hitrace

open Library TraceContent CpuRaw

/-! The writers on a file on which every call succeeds. -/

/-- Every write completes; the trace file itself may be gone. -/
structure TraceIo.Writable (io : TraceIo) : Prop where
  valid : io.fdValid = true
  headerWrites : io.headerWrites = []
  writes : io.writes = []

structure TraceIo.Ready (io : TraceIo) : Prop where
  path : io.traceFilePath ≠ []
  valid : io.fdValid = true
  headerWrites : io.headerWrites = []
  writes : io.writes = []
  accesses : io.accesses = []

theorem TraceIo.Ready.writable {io : TraceIo} (hready : io.Ready) : io.Writable :=
  ⟨hready.valid, hready.headerWrites, hready.writes⟩

namespace TraceIo

def put (io : TraceIo) (bytes : List UInt8) : TraceIo :=
  { io with file := io.file.write bytes }

@[simp] theorem put_nil (io : TraceIo) : io.put [] = io := rfl

@[simp] theorem put_put (io : TraceIo) (first second : List UInt8) :
    (io.put first).put second = io.put (first ++ second) := by
  rw [put, put, put, PosixFile.write_append]

theorem Ready.put {io : TraceIo} (hready : io.Ready) (bytes : List UInt8) :
    (io.put bytes).Ready :=
  ⟨hready.path, hready.valid, hready.headerWrites, hready.writes,
    hready.accesses⟩

theorem Writable.put {io : TraceIo} (hwritable : io.Writable)
    (bytes : List UInt8) : (io.put bytes).Writable :=
  ⟨hwritable.valid, hwritable.headerWrites, hwritable.writes⟩

theorem Writable.seek {io : TraceIo} (hwritable : io.Writable) (offset : Nat) :
    (io.seek offset).Writable :=
  ⟨hwritable.valid, hwritable.headerWrites, hwritable.writes⟩

theorem Writable.write {io : TraceIo} (hwritable : io.Writable)
    (bytes : List UInt8) :
    io.write bytes = ((bytes.length : Int), io.put bytes) := by
  obtain ⟨path, valid, file, headerWrites, writes, accesses, limit, size⟩ := io
  obtain ⟨hvalid, _, hwrites⟩ := hwritable
  cases hvalid
  cases hwrites
  rfl

theorem Writable.writeHeader {io : TraceIo} (hwritable : io.Writable)
    (bytes : List UInt8) :
    io.writeHeader bytes = ((bytes.length : Int), io.put bytes) := by
  obtain ⟨path, valid, file, headerWrites, writes, accesses, limit, size⟩ := io
  obtain ⟨hvalid, hheaderWrites, _⟩ := hwritable
  cases hvalid
  cases hheaderWrites
  rfl

/-- The existence check passes and counts. -/
theorem Ready.isFileExist {io : TraceIo} (hready : io.Ready) :
    ∃ next : TraceIo, io.isFileExist = (true, next) ∧ next.Ready ∧
      next.file = io.file ∧ next.outputFileSize = io.outputFileSize := by
  have hlimit : ∀ writeFileLimit : Nat, Ready { io with writeFileLimit } :=
    fun _ => ⟨hready.path, hready.valid, hready.headerWrites, hready.writes,
      hready.accesses⟩
  unfold TraceIo.isFileExist
  split
  · have hnonempty : io.traceFilePath.isEmpty = false := by
      simpa using hready.path
    refine ⟨{ io with writeFileLimit := 0 }, ?_, hlimit 0, rfl, rfl⟩
    rw [access, hready.accesses, hnonempty]
    rfl
  · exact ⟨_, rfl, hlimit _, rfl, rfl⟩

end TraceIo

/-! Segments on such a file. -/

def sizeAfter (segments : List Segment) (outputFileSize : Int32) : Int32 :=
  segments.foldl (fun size segment =>
    size + Int32.ofNat (contentHeaderSize + segment.payload.length)) outputFileSize

/-- The output with these segments put into it. -/
def TraceIo.store (io : TraceIo) (segments : List Segment) : TraceIo :=
  { io with
    file := writeSegments segments io.file
    outputFileSize := sizeAfter segments io.outputFileSize }

theorem TraceIo.Writable.store {io : TraceIo} (hwritable : io.Writable)
    (segments : List Segment) : (io.store segments).Writable :=
  ⟨hwritable.valid, hwritable.headerWrites, hwritable.writes⟩

/-- The writer has put these segments into the file. -/
structure Wrote (segments : List Segment) (io next : TraceIo) : Prop where
  ready : next.Ready
  file : next.file = writeSegments segments io.file
  size : next.outputFileSize = sizeAfter segments io.outputFileSize

theorem Wrote.nil {io : TraceIo} (hready : io.Ready) : Wrote [] io io :=
  ⟨hready, rfl, rfl⟩

theorem Wrote.trans {first second : List Segment} {io middle next : TraceIo}
    (hfirst : Wrote first io middle) (hsecond : Wrote second middle next) :
    Wrote (first ++ second) io next := by
  refine ⟨hsecond.ready, ?_, ?_⟩
  · rw [writeSegments_append, ← hfirst.file]
    exact hsecond.file
  · rw [sizeAfter, List.foldl_append]
    rw [hsecond.size, hfirst.size]
    rfl

theorem Wrote.of_store (segments : List Segment) {io start : TraceIo}
    (hstart : start.Ready) (hfile : start.file = io.file)
    (hsize : start.outputFileSize = io.outputFileSize) :
    Wrote segments io (start.store segments) := by
  refine ⟨⟨hstart.path, hstart.valid, hstart.headerWrites, hstart.writes,
    hstart.accesses⟩, ?_, ?_⟩
  · rw [← hfile]
    rfl
  · rw [← hsize]
    rfl

theorem int32_ofNat_eq {first second : Nat}
    (hmod : first % 2 ^ 32 = second % 2 ^ 32) :
    Int32.ofNat first = Int32.ofNat second := by
  have hbits : BitVec.ofNat 32 first = BitVec.ofNat 32 second := by
    apply BitVec.eq_of_toNat_eq
    rw [BitVec.toNat_ofNat, BitVec.toNat_ofNat, hmod]
  exact congrArg (fun bits => Int32.ofBitVec bits) hbits

namespace TraceContent

/-- The header goes into the place left in front of the payload. -/
theorem writeTraceData_store {content : TraceIo → Int × TraceIo}
    {payload : List UInt8} (contentType : UInt8) {io start : TraceIo}
    (hcontent : ∀ io : TraceIo, io.Writable →
      content io = ((payload.length : Int), io.put payload))
    (hexist : io.isFileExist = (true, start)) (hstart : start.Writable) :
    writeTraceData contentType content io =
      (true, start.store [⟨contentType, payload, none⟩]) := by
  have hseek := hstart.seek (start.file.offset + contentHeaderSize)
  have hback := (hseek.put payload).seek start.file.offset
  have hpayload : ¬ ((payload.length : Int) < 0) :=
    Int.not_lt.mpr (Int.natCast_nonneg _)
  have hheader : ((TraceFileContentHeader.bytes
      ⟨contentType, UInt32.ofNat payload.length⟩).length : Int) =
        (contentHeaderSize : Int) := by
    rw [TraceFileContentHeader.length_bytes]
  have hsize : Int32.ofNat ((UInt32.ofNat payload.length).toNat +
      contentHeaderSize) = Int32.ofNat (contentHeaderSize + payload.length) := by
    apply int32_ofNat_eq
    rw [UInt32.toNat_ofNat']
    omega
  unfold writeTraceData
  rw [hexist]
  dsimp only
  rw [hstart.valid, hcontent _ hseek]
  dsimp only
  rw [if_neg hpayload, Int.toNat_natCast, hback.write]
  dsimp only
  rw [hheader]
  simp only [TraceIo.addOutputFileSize, hsize]
  rfl

theorem writeTraceData_wrote {content : TraceIo → Int × TraceIo}
    {payload : List UInt8} (contentType : UInt8)
    (hcontent : ∀ io : TraceIo, io.Writable →
      content io = ((payload.length : Int), io.put payload)) {io : TraceIo}
    (hready : io.Ready) :
    Wrote [⟨contentType, payload, none⟩] io
      (writeTraceData contentType content io).2 := by
  obtain ⟨start, hexist, hstart, hfile, hsize⟩ := hready.isFileExist
  rw [writeTraceData_store contentType hcontent hexist hstart.writable]
  exact Wrote.of_store _ hstart hfile hsize

/-- A header, what is written behind it, and the patch of the header. -/
theorem updateTraceContentHeader_store {io : TraceIo} (hwritable : io.Writable)
    (segment : Segment) {length : UInt32}
    (hplaceholder : segment.placeholder = some length) :
    updateTraceContentHeader ⟨segment.type, length⟩
        (UInt32.ofNat segment.payload.length)
        (io.put (TraceFileContentHeader.bytes ⟨segment.type, length⟩ ++
          segment.payload)) =
      (segment.header, io.store [segment]) := by
  have hfile : (io.file.write (TraceFileContentHeader.bytes ⟨segment.type, length⟩ ++
      segment.payload)) = (io.file.write (TraceFileContentHeader.bytes
        ⟨segment.type, length⟩)).write segment.payload :=
    (PosixFile.write_append ..).symm
  have hstored := hwritable.put (TraceFileContentHeader.bytes
    ⟨segment.type, length⟩ ++ segment.payload)
  have hback : (UInt32.ofNat segment.payload.length + 8).toNat =
      segment.patchOffset := rfl
  have hpos : ¬ (io.put (TraceFileContentHeader.bytes ⟨segment.type, length⟩ ++
      segment.payload)).file.offset < segment.patchOffset := by
    have hle := segment.patchOffset_le
    rw [TraceIo.put, hfile, PosixFile.write_offset, PosixFile.write_offset,
      TraceFileContentHeader.length_bytes]
    omega
  have hheader : (segment.header.bytes.length : Int) = contentHeaderSize := by
    rw [TraceFileContentHeader.length_bytes]
  have hsize : Int32.ofNat segment.patchOffset =
      Int32.ofNat (contentHeaderSize + segment.payload.length) := by
    apply int32_ofNat_eq
    rw [segment.patchOffset_eq]
    omega
  unfold updateTraceContentHeader
  dsimp only
  rw [hback, hstored.valid, decide_eq_false hpos]
  rw [show (⟨segment.type, UInt32.ofNat segment.payload.length⟩ :
    TraceFileContentHeader) = segment.header from rfl, (hstored.seek _).write]
  dsimp only
  rw [hheader, Bool.not_true, Bool.or_false, if_neg Bool.false_ne_true,
    if_neg (not_not_intro rfl)]
  simp only [TraceIo.addOutputFileSize, hsize, TraceIo.store, writeSegments,
    List.foldl_cons, List.foldl_nil, Segment.write, hplaceholder, ← hfile, TraceIo.seek,
    TraceIo.put]
  rfl

theorem doWriteTraceData_writable {io : TraceIo} (hwritable : io.Writable)
    (buffer : List UInt8) (writeLen : Int) :
    doWriteTraceData buffer writeLen io =
      (writeLen + buffer.length, io.put buffer) := by
  rw [doWriteTraceData, hwritable.write]
  dsimp only
  rw [if_neg (Int.not_lt.mpr (Int.natCast_nonneg _))]

/-! What each source contributes to the payload. -/

/-- The reads up to the second one that fails the page check. -/
def takenReads (isHm : Bool) : List SourceRead → Nat → List UInt8
  | [], _ => []
  | page :: rest, pageChkFailedTime =>
      let pageChkFailedTime :=
        failedTime isHm page.pageHeaderSize pageChkFailedTime
      page.bytes ++
        if pageChkFailedTime ≥ 2 then []
        else takenReads isHm rest pageChkFailedTime

theorem flushFull_writable {io : TraceIo} (hwritable : io.Writable) (buffer : List UInt8)
    (writeLen : Int) :
    ∃ flushed kept, buffer = flushed ++ kept ∧
      flushFull buffer writeLen io =
        (kept, writeLen + flushed.length, io.put flushed) := by
  unfold flushFull
  split
  · exact ⟨[], buffer, rfl, by simp⟩
  · refine ⟨buffer, [], (List.append_nil _).symm, ?_⟩
    rw [doWriteTraceData_writable hwritable]

theorem writeTraceDataLoop_writable (isHm : Bool) (pages : List SourceRead)
    (buffer : List UInt8) (pageChkFailedTime : Nat) (writeLen : Int) {io : TraceIo}
    (hwritable : io.Writable) :
    writeTraceDataLoop isHm pages buffer pageChkFailedTime writeLen io =
      (writeLen + (buffer ++ takenReads isHm pages pageChkFailedTime).length,
        io.put (buffer ++ takenReads isHm pages pageChkFailedTime)) := by
  induction pages generalizing buffer pageChkFailedTime writeLen io with
  | nil =>
      obtain ⟨flushed, kept, rfl, hflush⟩ := flushFull_writable hwritable buffer writeLen
      rw [writeTraceDataLoop, hflush]
      dsimp only
      rw [doWriteTraceData_writable (hwritable.put flushed), TraceIo.put_put, takenReads,
        List.append_nil, List.length_append, Int.natCast_add, Int.add_assoc]
  | cons page rest ih =>
      obtain ⟨flushed, kept, rfl, hflush⟩ := flushFull_writable hwritable buffer writeLen
      rw [writeTraceDataLoop, hflush]
      dsimp only
      rw [takenReads]
      split
      · rw [doWriteTraceData_writable (hwritable.put flushed), TraceIo.put_put]
        simp [Int.add_assoc]
      · rw [ih _ _ _ (hwritable.put flushed), TraceIo.put_put]
        simp [Int.add_assoc]

/-- The lines of processes that still fit into the buffer, of which `used` bytes
are taken. -/
def keptLines : List (List UInt8) → Nat → List UInt8
  | [], _ => []
  | line :: rest, used =>
      if line.length > bufferSize - used then keptLines rest used
      else if used + line.length ≤ bufferSize - pageSize then
        line ++ keptLines rest (used + line.length)
      else line ++ keptLines rest 0

theorem writeProcessLoop_writable (lines : List (List UInt8)) (buffer : List UInt8)
    (writeLen : Int) {io : TraceIo} (hwritable : io.Writable) :
    writeProcessLoop lines buffer writeLen io =
      (writeLen + (buffer ++ keptLines lines buffer.length).length,
        io.put (buffer ++ keptLines lines buffer.length)) := by
  induction lines generalizing buffer writeLen io with
  | nil =>
      rw [writeProcessLoop, keptLines, List.append_nil]
      split
      · exact doWriteTraceData_writable hwritable buffer writeLen
      · next hempty =>
          have hnil : buffer = [] := by
            apply List.eq_nil_of_length_eq_zero
            omega
          rw [hnil]
          simp
  | cons line rest ih =>
      rw [writeProcessLoop, appendToBuffer, keptLines]
      by_cases hdropped : line.length > bufferSize - buffer.length
      · rw [if_pos hdropped, if_pos hdropped]
        exact ih buffer writeLen hwritable
      · rw [if_neg hdropped, if_neg hdropped, flushFull, List.length_append]
        by_cases hroom : buffer.length + line.length ≤ bufferSize - pageSize
        · rw [if_pos hroom, if_pos hroom]
          have hlength : (buffer ++ line).length = buffer.length + line.length :=
            List.length_append
          dsimp only
          rw [ih _ _ hwritable, List.append_assoc, hlength]
        · rw [if_neg hroom, if_neg hroom, doWriteTraceData_writable hwritable]
          dsimp only
          rw [ih _ _ (hwritable.put _), TraceIo.put_put]
          simp [Int.add_assoc]

theorem writeFilterLines_writable (lines : List FilterLine) (buffer : List UInt8)
    (writeLen : Int) {io : TraceIo} (hwritable : io.Writable) :
    writeFilterLines lines buffer writeLen io =
      (writeLen + (buffer ++ lines.flatMap FilterLine.bytes).length,
        io.put (buffer ++ lines.flatMap FilterLine.bytes)) := by
  induction lines generalizing buffer writeLen io with
  | nil =>
      rw [writeFilterLines, List.flatMap_nil, List.append_nil]
      exact doWriteTraceData_writable hwritable buffer writeLen
  | cons line rest ih =>
      rw [writeFilterLines, List.flatMap_cons]
      split
      · rw [doWriteTraceData_writable hwritable]
        dsimp only
        rw [ih _ _ (hwritable.put buffer), TraceIo.put_put]
        simp [Int.add_assoc]
      · rw [ih _ _ hwritable, List.append_assoc]

def sourcePayload (isHm : Bool) (source : Option (List SourceRead)) : List UInt8 :=
  takenReads isHm (source.getD []) 0

theorem writeTraceDataContent_writable (isHm : Bool)
    (source : Option (List SourceRead)) (hopens : source.isSome = true)
    {io : TraceIo} (hwritable : io.Writable) :
    writeTraceDataContent isHm source io =
      (((sourcePayload isHm source).length : Int),
        io.put (sourcePayload isHm source)) := by
  obtain ⟨pages, rfl⟩ := Option.isSome_iff_exists.mp hopens
  have hloop := writeTraceDataLoop_writable isHm pages [] 0 0 hwritable
  rw [Int.zero_add] at hloop
  exact hloop

def ListSource.opens : ListSource → Bool
  | .kernel source => source.isSome
  | .filter _ => true

def cmdLinesPayload (isHm : Bool) (source : ListSource)
    (processes : Option (List (List UInt8))) : List UInt8 :=
  match source with
  | .kernel source => sourcePayload isHm source ++ keptLines (processes.getD []) 0
  | .filter lines => lines.flatMap FilterLine.bytes

theorem cmdLinesContent_writable (isHm : Bool) {source : ListSource}
    (processes : Option (List (List UInt8))) (hopens : ListSource.opens source = true)
    {io : TraceIo} (hwritable : io.Writable) :
    cmdLinesContent isHm source processes io =
      (((cmdLinesPayload isHm source processes).length : Int),
        io.put (cmdLinesPayload isHm source processes)) := by
  cases source with
  | kernel source =>
      have hcontent := writeTraceDataContent_writable isHm source hopens hwritable
      rw [cmdLinesContent, hcontent]
      cases processes with
      | none => simp [cmdLinesPayload, writeProcessLists, keptLines]
      | some lines =>
          dsimp only [writeProcessLists]
          rw [writeProcessLoop_writable _ _ _ (hwritable.put _), TraceIo.put_put]
          simp [cmdLinesPayload]
  | filter lines =>
      have hlines := writeFilterLines_writable lines [] 0 hwritable
      rw [Int.zero_add] at hlines
      exact hlines

def tgidsPayload (isHm : Bool) : ListSource → List UInt8
  | .kernel source => sourcePayload isHm source
  | .filter lines => lines.flatMap FilterLine.bytes

theorem tgidsContent_writable (isHm : Bool) {source : ListSource}
    (hopens : ListSource.opens source = true) {io : TraceIo} (hwritable : io.Writable) :
    tgidsContent isHm source io =
      (((tgidsPayload isHm source).length : Int),
        io.put (tgidsPayload isHm source)) := by
  cases source with
  | kernel source => exact writeTraceDataContent_writable isHm source hopens hwritable
  | filter lines =>
      have hlines := writeFilterLines_writable lines [] 0 hwritable
      rw [Int.zero_add] at hlines
      exact hlines

def keyValueBytes (key value : List UInt8) : List UInt8 :=
  if key.isEmpty || value.isEmpty then []
  else key ++ bytesOf ": " ++ value ++ bytesOf "\n"

theorem writeKeyValue_writable (key value : List UInt8) {io : TraceIo}
    (hwritable : io.Writable) :
    writeKeyValue key value io =
      (((keyValueBytes key value).length : Int), io.put (keyValueBytes key value)) := by
  unfold writeKeyValue keyValueBytes
  split
  · rfl
  · rw [hwritable.write]
    dsimp only
    rw [if_neg (Int.not_lt.mpr (Int.natCast_nonneg _))]

def baseInfoPayload (info : BaseInfo) : List UInt8 :=
  keyValueBytes (bytesOf "KERNEL_VERSION") info.kernelVersion ++
    (keyValueBytes (bytesOf "UNIX_TIME_MS")
        (bytesOf (toString info.unixTimeMs.toNat)) ++
      keyValueBytes (bytesOf "BOOT_TIME_MS")
        (bytesOf (toString info.bootTimeMs.toNat)))

theorem traceBaseInfo_store (info : BaseInfo) {io : TraceIo}
    (hwritable : io.Writable) :
    traceBaseInfo info io =
      (true, io.store [⟨ContentType.baseInfo, baseInfoPayload info, some 0⟩]) := by
  let segment : Segment := ⟨ContentType.baseInfo, baseInfoPayload info, some 0⟩
  let header : TraceFileContentHeader := ⟨ContentType.baseInfo, 0⟩
  have hupdate := updateTraceContentHeader_store hwritable segment rfl
  have hheader : (header.bytes.length : Int) = contentHeaderSize := by
    rw [header.length_bytes]
  have hlength : ∀ first second third : List UInt8,
      ((first.length : Int) + second.length + third.length).toNat =
        (first ++ (second ++ third)).length := by
    intro first second third
    rw [List.length_append, List.length_append]
    omega
  have hopened := hwritable.put header.bytes
  unfold traceBaseInfo
  dsimp only
  rw [show ({ type := ContentType.baseInfo } : TraceFileContentHeader) = header
    from rfl, hwritable.write]
  dsimp only
  rw [hheader, if_neg (not_not_intro rfl), writeKeyValue_writable _ _ hopened]
  dsimp only
  rw [writeKeyValue_writable _ _ (hopened.put _)]
  dsimp only
  rw [writeKeyValue_writable _ _ ((hopened.put _).put _)]
  dsimp only
  rw [TraceIo.put_put, TraceIo.put_put, TraceIo.put_put, hlength]
  exact congrArg (fun result => (true, Prod.snd result)) hupdate

theorem traceBaseInfo_wrote (info : BaseInfo) {io : TraceIo} (hready : io.Ready) :
    Wrote [⟨ContentType.baseInfo, baseInfoPayload info, some 0⟩] io
      (traceBaseInfo info io).2 := by
  rw [traceBaseInfo_store info hready.writable]
  exact Wrote.of_store _ hready rfl rfl

theorem doWriteTraceContentHeader_writable {io : TraceIo} (hwritable : io.Writable)
    (header : TraceFileContentHeader) (contentType : UInt8) :
    doWriteTraceContentHeader header contentType io =
      (true, ⟨contentType, header.length⟩,
        io.put (TraceFileContentHeader.bytes ⟨contentType, header.length⟩)) := by
  rw [doWriteTraceContentHeader, hwritable.writeHeader]
  dsimp only
  rw [TraceFileContentHeader.length_bytes]
  rfl

def eventPayload (event : EventFile) : List UInt8 :=
  if event.accessible then (event.source.getD []).flatMap SourceRead.bytes else []

theorem writeEventFileLoop_writable (pages : List SourceRead) {io : TraceIo}
    (hwritable : io.Writable) :
    writeEventFileLoop pages io = io.put (pages.flatMap SourceRead.bytes) := by
  induction pages generalizing io with
  | nil => rfl
  | cons page rest ih =>
      rw [writeEventFileLoop, hwritable.write]
      dsimp only
      rw [if_neg (Int.not_lt.mpr (Int.natCast_nonneg _)), ih (hwritable.put _),
        TraceIo.put_put, List.flatMap_cons]

theorem writeEventFiles_writable (events : List EventFile) (writeLen : Nat)
    {io : TraceIo} (hwritable : io.Writable) :
    writeEventFiles events writeLen io =
      (writeLen + (events.flatMap eventPayload).length,
        io.put (events.flatMap eventPayload)) := by
  induction events generalizing writeLen io with
  | nil => rfl
  | cons event rest ih =>
      rw [writeEventFiles, List.flatMap_cons, eventPayload]
      cases haccessible : event.accessible with
      | false => exact ih writeLen hwritable
      | true =>
          have hfile : writeEventFile event.source io =
              io.put ((event.source.getD []).flatMap SourceRead.bytes) := by
            cases event.source with
            | none => rfl
            | some pages => exact writeEventFileLoop_writable pages hwritable
          have hgrown : ∀ bytes : List UInt8,
              (io.put bytes).file.offset - io.file.offset = bytes.length := by
            intro bytes
            rw [TraceIo.put, PosixFile.write_offset, Nat.add_sub_cancel_left]
          simp only [Bool.not_true, Bool.false_eq_true, if_false, if_true]
          rw [hfile, hgrown, ih _ (hwritable.put _), TraceIo.put_put,
            List.length_append, Nat.add_assoc]

theorem writeTraceContentInline_store (events : List EventFile)
    {io start : TraceIo} (hexist : io.isFileExist = (true, start))
    (hstart : start.Writable) :
    writeTraceContentInline events io =
      (true, start.store
        [⟨ContentType.eventsFormat, events.flatMap eventPayload, some 0⟩]) := by
  let segment : Segment :=
    ⟨ContentType.eventsFormat, events.flatMap eventPayload, some 0⟩
  have hupdate := updateTraceContentHeader_store hstart segment rfl
  unfold writeTraceContentInline
  rw [hexist]
  dsimp only
  rw [doWriteTraceContentHeader_writable hstart]
  dsimp only
  rw [writeEventFiles_writable _ _ (hstart.put _), TraceIo.put_put, Nat.zero_add]
  exact congrArg (fun result => (true, Prod.snd result)) hupdate

theorem writeTraceContentInline_wrote (events : List EventFile) {io : TraceIo}
    (hready : io.Ready) :
    Wrote [⟨ContentType.eventsFormat, events.flatMap eventPayload, some 0⟩] io
      (writeTraceContentInline events io).2 := by
  obtain ⟨start, hexist, hstart, hfile, hsize⟩ := hready.isFileExist
  rw [writeTraceContentInline_store events hexist hstart.writable]
  exact Wrote.of_store _ hstart hfile hsize

theorem traceEventFmt_saved_wrote (isHm : Bool) {source : Option (List SourceRead)}
    (hopens : source.isSome = true) {io : TraceIo} (hready : io.Ready) :
    Wrote [⟨ContentType.eventsFormat, sourcePayload isHm source, none⟩] io
      (traceEventFmt isHm (.saved source) io).2 :=
  writeTraceData_wrote ContentType.eventsFormat
    (fun _ hio => writeTraceDataContent_writable isHm source hopens hio) hready

end TraceContent

end Hitrace
