import Hitrace.Library.LittleEndian
import Hitrace.Library.PosixFile

namespace Hitrace

open Library

def pageSize : Nat := 4096

def bufferSize : Nat := 256 * pageSize

def judgeFileExist : Nat := 10

def bytesOf (text : String) : List UInt8 :=
  text.toList.map fun char => UInt8.ofNat char.toNat

namespace ContentType

def eventsFormat : UInt8 := 1
def cmdLines : UInt8 := 2
def tgids : UInt8 := 3
def cpuRaw : UInt8 := 4
def headerPage : UInt8 := 30
def printkFormats : UInt8 := 31
def baseInfo : UInt8 := 33

end ContentType

/-! The two records of the container, as the compiler lays them out: every field
at its natural alignment. Nothing is assigned to the padding, which keeps what the
stack holds; `bytes` has it zero, `padded` whatever it is. -/

structure Padding where
  first : UInt8 := 0
  second : UInt8 := 0
  third : UInt8 := 0
deriving Repr, DecidableEq

structure TraceFileHeader where
  magicNumber : UInt16 := 57161
  fileType : UInt8 := 0
  versionNumber : UInt16 := 1
  reserved : UInt32 := 0
deriving Repr, DecidableEq

def TraceFileHeader.padded (header : TraceFileHeader) (padding : Padding) : List UInt8 :=
  LittleEndian.encode 2 header.magicNumber.toNat ++ [header.fileType, padding.first] ++
    LittleEndian.encode 2 header.versionNumber.toNat ++ [padding.second, padding.third] ++
    LittleEndian.encode 4 header.reserved.toNat

def TraceFileHeader.bytes (header : TraceFileHeader) : List UInt8 :=
  header.padded {}

structure TraceFileContentHeader where
  type : UInt8 := 0
  length : UInt32 := 0
deriving Repr, DecidableEq

def TraceFileContentHeader.padded (header : TraceFileContentHeader) (padding : Padding) :
    List UInt8 :=
  [header.type, padding.first, padding.second, padding.third] ++
    LittleEndian.encode 4 header.length.toNat

def TraceFileContentHeader.bytes (header : TraceFileContentHeader) : List UInt8 :=
  header.padded {}

def contentHeaderSize : Nat := 8

@[simp] theorem TraceFileContentHeader.length_padded (header : TraceFileContentHeader)
    (padding : Padding) : (header.padded padding).length = contentHeaderSize := by
  simp [padded, contentHeaderSize]

@[simp] theorem TraceFileContentHeader.length_bytes
    (header : TraceFileContentHeader) :
    header.bytes.length = contentHeaderSize :=
  header.length_padded {}

/-! The output file and everything outside the program that decides what a
system call on it returns. -/

inductive WriteOutcome
  | complete
  | short (count : Nat)
  | failed
deriving Repr, DecidableEq

/-- The write accepts at least `size` bytes. -/
def WriteOutcome.Covers (size : Nat) : WriteOutcome → Prop
  | .complete => True
  | .short count => size ≤ count
  | .failed => False

instance (size : Nat) : DecidablePred (WriteOutcome.Covers size)
  | .complete => inferInstanceAs (Decidable True)
  | .short count => inferInstanceAs (Decidable (size ≤ count))
  | .failed => inferInstanceAs (Decidable False)

/-- The output file of one dump.  `headerWrites` are the outcomes of the coming
writes of `DoWriteTraceContentHeader`, `writes` those of all other writes, and
`accesses` those of the coming `access` calls; a list that is used up stands for
success from then on. -/
structure TraceIo where
  traceFilePath : List Char
  fdValid : Bool
  file : PosixFile := {}
  headerWrites : List WriteOutcome := []
  writes : List WriteOutcome := []
  accesses : List Bool := []
  writeFileLimit : Nat := 0
  outputFileSize : Int32 := 0
deriving Repr, DecidableEq

namespace TraceIo

def syscallWrite (io : TraceIo) (outcome : WriteOutcome) (bytes : List UInt8) :
    Int × TraceIo :=
  if io.fdValid then
    match outcome with
    | .complete => (bytes.length, { io with file := io.file.write bytes })
    | .short count =>
        let accepted := bytes.take count
        (accepted.length, { io with file := io.file.write accepted })
    | .failed => (-1, io)
  else (-1, io)

def writeHeader (io : TraceIo) (bytes : List UInt8) : Int × TraceIo :=
  { io with headerWrites := io.headerWrites.tail }.syscallWrite
    (io.headerWrites.headD .complete) bytes

def write (io : TraceIo) (bytes : List UInt8) : Int × TraceIo :=
  { io with writes := io.writes.tail }.syscallWrite
    (io.writes.headD .complete) bytes

def seek (io : TraceIo) (offset : Nat) : TraceIo :=
  { io with file := io.file.seek offset }

def addOutputFileSize (io : TraceIo) (bytes : Nat) : TraceIo :=
  { io with outputFileSize := io.outputFileSize + Int32.ofNat bytes }

/-- `access` of the empty path fails whatever the file system holds. -/
def access (io : TraceIo) : Bool × TraceIo :=
  (!io.traceFilePath.isEmpty && io.accesses.headD true,
    { io with accesses := io.accesses.tail })

def isFileExist (io : TraceIo) : Bool × TraceIo :=
  if io.writeFileLimit + 1 > judgeFileExist then
    { io with writeFileLimit := 0 }.access
  else (true, { io with writeFileLimit := io.writeFileLimit + 1 })

end TraceIo

/-- One successful `read` of a source.  `pageHeaderSize` is what `CheckPage`
finds behind its own argument: it casts the address of the pointer, so the size
it tests does not come from the page. -/
structure SourceRead where
  bytes : List UInt8
  pageHeaderSize : UInt64
  nonempty : bytes ≠ []
  fits : bytes.length ≤ pageSize
deriving Repr, DecidableEq

def checkPage (isHm : Bool) (pageHeaderSize : UInt64) : Bool :=
  isHm || !decide (pageHeaderSize.toNat < pageSize / 2)

def failedTime (isHm : Bool) (pageHeaderSize : UInt64) (pageChkFailedTime : Nat) :
    Nat :=
  if checkPage isHm pageHeaderSize then pageChkFailedTime
  else pageChkFailedTime + 1

namespace TraceContent

def doWriteTraceData (buffer : List UInt8) (writeLen : Int) (io : TraceIo) :
    Int × TraceIo :=
  let (writeRet, io) := io.write buffer
  (if writeRet < 0 then writeLen else writeLen + writeRet, io)

def doWriteTraceContentHeader (contentHeader : TraceFileContentHeader)
    (contentType : UInt8) (io : TraceIo) :
    Bool × TraceFileContentHeader × TraceIo :=
  let contentHeader := { contentHeader with type := contentType }
  let (writeRet, io) := io.writeHeader contentHeader.bytes
  (decide (writeRet = contentHeaderSize), contentHeader, io)

/-- The offset back to the header is a `uint32_t`. -/
def updateTraceContentHeader (contentHeader : TraceFileContentHeader)
    (writeLen : UInt32) (io : TraceIo) : TraceFileContentHeader × TraceIo :=
  let contentHeader := { contentHeader with length := writeLen }
  let offset : UInt32 := contentHeader.length + 8
  let pos := io.file.offset
  if !io.fdValid || pos < offset.toNat then (contentHeader, io)
  else
    let (writeRet, io) := (io.seek (pos - offset.toNat)).write contentHeader.bytes
    if writeRet ≠ contentHeaderSize then (contentHeader, io)
    else (contentHeader, (io.seek pos).addOutputFileSize offset.toNat)

/-- Round off a full buffer: the inner loop of the source reads on only while a
whole page still fits. -/
def flushFull (buffer : List UInt8) (writeLen : Int) (io : TraceIo) :
    List UInt8 × Int × TraceIo :=
  if buffer.length ≤ bufferSize - pageSize then (buffer, writeLen, io)
  else ([], doWriteTraceData buffer writeLen io)

/-- Both loops of `ITraceContent::WriteTraceDataContent`, over the reads that
are still to come; `buffer` is what the inner loop has gathered. -/
def writeTraceDataLoop (isHm : Bool) :
    List SourceRead → List UInt8 → Nat → Int → TraceIo → Int × TraceIo
  | [], buffer, _, writeLen, io =>
      let (buffer, writeLen, io) := flushFull buffer writeLen io
      doWriteTraceData buffer writeLen io
  | page :: rest, buffer, pageChkFailedTime, writeLen, io =>
      let (buffer, writeLen, io) := flushFull buffer writeLen io
      let pageChkFailedTime :=
        failedTime isHm page.pageHeaderSize pageChkFailedTime
      let buffer := buffer ++ page.bytes
      if pageChkFailedTime ≥ 2 then doWriteTraceData buffer writeLen io
      else writeTraceDataLoop isHm rest buffer pageChkFailedTime writeLen io

/-- `none` is a source that could not be opened. -/
def writeTraceDataContent (isHm : Bool) (source : Option (List SourceRead))
    (io : TraceIo) : Int × TraceIo :=
  match source with
  | none => (-1, io)
  | some pages => writeTraceDataLoop isHm pages [] 0 0 io

def writeTraceData (contentType : UInt8)
    (writeTraceDataContent : TraceIo → Int × TraceIo) (io : TraceIo) :
    Bool × TraceIo :=
  let (found, io) := io.isFileExist
  if !found || !io.fdValid then (false, io)
  else
    let dataHeaderStart := io.file.offset
    let (writeLength, io) :=
      writeTraceDataContent (io.seek (dataHeaderStart + contentHeaderSize))
    let io := io.seek dataHeaderStart
    if writeLength < 0 then
      (false, { io with file := io.file.truncate dataHeaderStart })
    else
      let contentHeader : TraceFileContentHeader :=
        ⟨contentType, UInt32.ofNat writeLength.toNat⟩
      let (writeRet, io) := io.write contentHeader.bytes
      if writeRet ≠ contentHeaderSize then (false, io)
      else
        let io := io.seek (io.file.offset + writeLength.toNat)
        (true, io.addOutputFileSize
          (contentHeader.length.toNat + contentHeaderSize))

/-! File header and base information. -/

def maxCpuNums : Int := 24

def initTraceFileHdr (is32Bit : Bool) (cpuNums : Int) : Option TraceFileHeader :=
  if cpuNums > maxCpuNums ∨ cpuNums ≤ 0 then none
  else
    let archWord : UInt32 := if is32Bit then 1 else 0
    some { reserved := archWord ||| (UInt32.ofNat cpuNums.toNat <<< 1) }

def hmFileRawTrace : UInt8 := 1

def traceFileHdr (isHm is32Bit : Bool) (cpuNums : Int) (io : TraceIo) :
    Bool × TraceIo :=
  match initTraceFileHdr is32Bit cpuNums with
  | none => (false, io)
  | some header =>
      let header :=
        if isHm then { header with fileType := hmFileRawTrace } else header
      let (writeRet, io) := io.write header.bytes
      (decide (writeRet = header.bytes.length), io)

def writeKeyValue (key value : List UInt8) (io : TraceIo) : Int × TraceIo :=
  if key.isEmpty || value.isEmpty then (0, io)
  else
    let (writeRet, io) := io.write (key ++ bytesOf ": " ++ value ++ bytesOf "\n")
    (if writeRet < 0 then 0 else writeRet, io)

structure BaseInfo where
  kernelVersion : List UInt8
  unixTimeMs : UInt64
  bootTimeMs : UInt64
deriving Repr, DecidableEq

def traceBaseInfo (info : BaseInfo) (io : TraceIo) : Bool × TraceIo :=
  let contentHeader : TraceFileContentHeader := { type := ContentType.baseInfo }
  let (writeRet, io) := io.write contentHeader.bytes
  if writeRet ≠ contentHeaderSize then (false, io)
  else
    let (version, io) :=
      writeKeyValue (bytesOf "KERNEL_VERSION") info.kernelVersion io
    let (unixTime, io) := writeKeyValue (bytesOf "UNIX_TIME_MS")
      (bytesOf (toString info.unixTimeMs.toNat)) io
    let (bootTime, io) := writeKeyValue (bytesOf "BOOT_TIME_MS")
      (bytesOf (toString info.bootTimeMs.toNat)) io
    let writeLen := version + unixTime + bootTime
    (true, (updateTraceContentHeader contentHeader
      (UInt32.ofNat writeLen.toNat) io).2)

/-! Event formats: the file saved beforehand, or inline, one format file after
the other. -/

structure EventFile where
  accessible : Bool
  source : Option (List SourceRead)
deriving Repr, DecidableEq

def writeEventFileLoop : List SourceRead → TraceIo → TraceIo
  | [], io => io
  | page :: rest, io =>
      let (writeRet, io) := io.write page.bytes
      if writeRet < 0 then io else writeEventFileLoop rest io

def writeEventFile (source : Option (List SourceRead)) (io : TraceIo) : TraceIo :=
  match source with
  | none => io
  | some pages => writeEventFileLoop pages io

def writeEventFiles : List EventFile → Nat → TraceIo → Nat × TraceIo
  | [], writeLen, io => (writeLen, io)
  | event :: rest, writeLen, io =>
      if !event.accessible then writeEventFiles rest writeLen io
      else
        let before := io.file.offset
        let io := writeEventFile event.source io
        writeEventFiles rest (writeLen + (io.file.offset - before)) io

def writeTraceContentInline (events : List EventFile) (io : TraceIo) :
    Bool × TraceIo :=
  let (found, io) := io.isFileExist
  if !found then (false, io)
  else
    let (written, contentHeader, io) :=
      doWriteTraceContentHeader {} ContentType.eventsFormat io
    if !written then (false, io)
    else
      let (writeLen, io) := writeEventFiles events 0 io
      (true, (updateTraceContentHeader contentHeader (UInt32.ofNat writeLen) io).2)

/-! Lists built in memory: processes of `/proc`, and the lines a filter saved. -/

/-- A line that does not fit into the buffer is dropped. -/
def appendToBuffer (line buffer : List UInt8) (writeLen : Int) (io : TraceIo) :
    List UInt8 × Int × TraceIo :=
  if line.length > bufferSize - buffer.length then (buffer, writeLen, io)
  else flushFull (buffer ++ line) writeLen io

def writeProcessLoop :
    List (List UInt8) → List UInt8 → Int → TraceIo → Int × TraceIo
  | [], buffer, writeLen, io =>
      if buffer.length > 0 then doWriteTraceData buffer writeLen io
      else (writeLen, io)
  | line :: rest, buffer, writeLen, io =>
      let (buffer, writeLen, io) := appendToBuffer line buffer writeLen io
      writeProcessLoop rest buffer writeLen io

/-- `none` is a `/proc` that could not be opened. -/
def writeProcessLists (processes : Option (List (List UInt8))) (writeLen : Int)
    (io : TraceIo) : Int × TraceIo :=
  match processes with
  | none => (writeLen, io)
  | some lines => writeProcessLoop lines [] writeLen io

/-- A line that a filter context hands to the writer, no longer than its
buffer. -/
structure FilterLine where
  bytes : List UInt8
  fits : bytes.length ≤ bufferSize
deriving Repr, DecidableEq

def writeFilterLines :
    List FilterLine → List UInt8 → Int → TraceIo → Int × TraceIo
  | [], buffer, writeLen, io => doWriteTraceData buffer writeLen io
  | line :: rest, buffer, writeLen, io =>
      if buffer.length + line.bytes.length > bufferSize then
        let (writeLen, io) := doWriteTraceData buffer writeLen io
        writeFilterLines rest line.bytes writeLen io
      else writeFilterLines rest (buffer ++ line.bytes) writeLen io

/-- Where the command lines and thread groups come from. -/
inductive ListSource
  | kernel (source : Option (List SourceRead))
  | filter (lines : List FilterLine)
deriving Repr, DecidableEq

def cmdLinesContent (isHm : Bool) (source : ListSource)
    (processes : Option (List (List UInt8))) (io : TraceIo) : Int × TraceIo :=
  match source with
  | .kernel source =>
      let (size, io) := writeTraceDataContent isHm source io
      writeProcessLists processes size io
  | .filter lines => writeFilterLines lines [] 0 io

def tgidsContent (isHm : Bool) (source : ListSource) (io : TraceIo) :
    Int × TraceIo :=
  match source with
  | .kernel source => writeTraceDataContent isHm source io
  | .filter lines => writeFilterLines lines [] 0 io

/-! The writers neither open nor close the file. -/

structure SameFile (io next : TraceIo) : Prop where
  traceFilePath : next.traceFilePath = io.traceFilePath
  fdValid : next.fdValid = io.fdValid

theorem SameFile.refl (io : TraceIo) : SameFile io io := ⟨rfl, rfl⟩

theorem SameFile.trans {first second third : TraceIo}
    (hfirst : SameFile first second) (hsecond : SameFile second third) :
    SameFile first third :=
  ⟨hsecond.traceFilePath.trans hfirst.traceFilePath,
    hsecond.fdValid.trans hfirst.fdValid⟩

/-- A `write` changes the file and nothing else of what it is given. -/
theorem syscallWrite_eq (io : TraceIo) (outcome : WriteOutcome)
    (bytes : List UInt8) :
    ∃ file, (io.syscallWrite outcome bytes).2 = { io with file } := by
  unfold TraceIo.syscallWrite
  split
  · cases outcome with
    | complete => exact ⟨_, rfl⟩
    | short count => exact ⟨_, rfl⟩
    | failed => exact ⟨io.file, rfl⟩
  · exact ⟨io.file, rfl⟩

theorem write_eq (io : TraceIo) (bytes : List UInt8) :
    ∃ file, (io.write bytes).2 = { io with writes := io.writes.tail, file } :=
  syscallWrite_eq { io with writes := io.writes.tail } _ bytes

theorem writeHeader_eq (io : TraceIo) (bytes : List UInt8) :
    ∃ file, (io.writeHeader bytes).2 =
      { io with headerWrites := io.headerWrites.tail, file } :=
  syscallWrite_eq { io with headerWrites := io.headerWrites.tail } _ bytes

theorem write_sameFile (io : TraceIo) (bytes : List UInt8) :
    SameFile io (io.write bytes).2 := by
  obtain ⟨file, hwrite⟩ := write_eq io bytes
  rw [hwrite]
  exact ⟨rfl, rfl⟩

theorem doWriteTraceData_eq (buffer : List UInt8) (writeLen : Int) (io : TraceIo) :
    ∃ file, (doWriteTraceData buffer writeLen io).2 =
      { io with writes := io.writes.tail, file } :=
  write_eq io buffer

theorem doWriteTraceData_sameFile (buffer : List UInt8) (writeLen : Int)
    (io : TraceIo) : SameFile io (doWriteTraceData buffer writeLen io).2 :=
  write_sameFile io buffer

theorem doWriteTraceContentHeader_sameFile (header : TraceFileContentHeader)
    (contentType : UInt8) (io : TraceIo) :
    SameFile io (doWriteTraceContentHeader header contentType io).2.2 := by
  obtain ⟨file, hwrite⟩ :=
    writeHeader_eq io { header with type := contentType }.bytes
  rw [doWriteTraceContentHeader, hwrite]
  exact ⟨rfl, rfl⟩

theorem updateTraceContentHeader_eq (header : TraceFileContentHeader)
    (writeLen : UInt32) (io : TraceIo) :
    ∃ file writes outputFileSize,
      (updateTraceContentHeader header writeLen io).2 =
        { io with file, writes, outputFileSize } := by
  unfold updateTraceContentHeader
  dsimp only
  split
  · exact ⟨io.file, io.writes, io.outputFileSize, rfl⟩
  · next hseek =>
      obtain ⟨file, hwrite⟩ := write_eq
        (io.seek (io.file.offset - (writeLen + 8).toNat))
        { header with length := writeLen }.bytes
      rw [hwrite]
      split
      · exact ⟨_, _, _, rfl⟩
      · exact ⟨_, _, _, rfl⟩

theorem updateTraceContentHeader_sameFile (header : TraceFileContentHeader)
    (writeLen : UInt32) (io : TraceIo) :
    SameFile io (updateTraceContentHeader header writeLen io).2 := by
  obtain ⟨file, writes, outputFileSize, hupdate⟩ :=
    updateTraceContentHeader_eq header writeLen io
  rw [hupdate]
  exact ⟨rfl, rfl⟩

theorem isFileExist_sameFile (io : TraceIo) : SameFile io io.isFileExist.2 := by
  unfold TraceIo.isFileExist
  split
  · exact ⟨rfl, rfl⟩
  · exact ⟨rfl, rfl⟩

theorem flushFull_sameFile (buffer : List UInt8) (writeLen : Int) (io : TraceIo) :
    SameFile io (flushFull buffer writeLen io).2.2 := by
  unfold flushFull
  split
  · exact .refl io
  · exact doWriteTraceData_sameFile buffer writeLen io

theorem writeTraceDataLoop_sameFile (isHm : Bool) (pages : List SourceRead)
    (buffer : List UInt8) (pageChkFailedTime : Nat) (writeLen : Int)
    (io : TraceIo) :
    SameFile io
      (writeTraceDataLoop isHm pages buffer pageChkFailedTime writeLen io).2 := by
  induction pages generalizing buffer pageChkFailedTime writeLen io with
  | nil =>
      exact (flushFull_sameFile buffer writeLen io).trans
        (doWriteTraceData_sameFile ..)
  | cons page rest ih =>
      have hflush := flushFull_sameFile buffer writeLen io
      rw [writeTraceDataLoop]
      dsimp only
      split
      · exact hflush.trans (doWriteTraceData_sameFile ..)
      · exact hflush.trans (ih ..)

theorem writeTraceDataContent_sameFile (isHm : Bool)
    (source : Option (List SourceRead)) (io : TraceIo) :
    SameFile io (writeTraceDataContent isHm source io).2 := by
  cases source with
  | none => exact .refl io
  | some pages => exact writeTraceDataLoop_sameFile isHm pages [] 0 0 io

theorem writeTraceData_sameFile (contentType : UInt8)
    (content : TraceIo → Int × TraceIo)
    (hcontent : ∀ io, SameFile io (content io).2) (io : TraceIo) :
    SameFile io (writeTraceData contentType content io).2 := by
  have hexist := isFileExist_sameFile io
  unfold writeTraceData
  generalize io.isFileExist = checked at hexist ⊢
  obtain ⟨found, opened⟩ := checked
  dsimp only at hexist ⊢
  split
  · exact hexist
  · have hdata := hcontent
      (opened.seek (opened.file.offset + contentHeaderSize))
    generalize content
      (opened.seek (opened.file.offset + contentHeaderSize)) = written at hdata ⊢
    obtain ⟨writeLength, after⟩ := written
    have hafter : SameFile io after :=
      hexist.trans ⟨hdata.traceFilePath, hdata.fdValid⟩
    dsimp only
    split
    · exact ⟨hafter.traceFilePath, hafter.fdValid⟩
    · have hheader := write_sameFile (after.seek opened.file.offset)
        (TraceFileContentHeader.bytes
          ⟨contentType, UInt32.ofNat writeLength.toNat⟩)
      have hlast : SameFile io _ := hafter.trans
        ⟨hheader.traceFilePath, hheader.fdValid⟩
      split
      · exact hlast
      · exact ⟨hlast.traceFilePath, hlast.fdValid⟩

theorem traceFileHdr_sameFile (isHm is32Bit : Bool) (cpuNums : Int) (io : TraceIo) :
    SameFile io (traceFileHdr isHm is32Bit cpuNums io).2 := by
  unfold traceFileHdr
  split
  · exact .refl io
  · exact write_sameFile io _

theorem writeKeyValue_sameFile (key value : List UInt8) (io : TraceIo) :
    SameFile io (writeKeyValue key value io).2 := by
  unfold writeKeyValue
  split
  · exact .refl io
  · exact write_sameFile io _

theorem traceBaseInfo_sameFile (info : BaseInfo) (io : TraceIo) :
    SameFile io (traceBaseInfo info io).2 := by
  have hheader := write_sameFile io
    (TraceFileContentHeader.bytes { type := ContentType.baseInfo })
  unfold traceBaseInfo
  dsimp only
  split
  · exact hheader
  · exact hheader.trans ((writeKeyValue_sameFile ..).trans
      ((writeKeyValue_sameFile ..).trans ((writeKeyValue_sameFile ..).trans
        (updateTraceContentHeader_sameFile ..))))

theorem writeEventFileLoop_sameFile (pages : List SourceRead) (io : TraceIo) :
    SameFile io (writeEventFileLoop pages io) := by
  induction pages generalizing io with
  | nil => exact .refl io
  | cons page rest ih =>
      have hwrite := write_sameFile io page.bytes
      rw [writeEventFileLoop]
      dsimp only
      split
      · exact hwrite
      · exact hwrite.trans (ih _)

theorem writeEventFiles_sameFile (events : List EventFile) (writeLen : Nat)
    (io : TraceIo) : SameFile io (writeEventFiles events writeLen io).2 := by
  induction events generalizing writeLen io with
  | nil => exact .refl io
  | cons event rest ih =>
      rw [writeEventFiles]
      split
      · exact ih ..
      · cases hsource : event.source with
        | none => exact ih ..
        | some pages =>
            exact (writeEventFileLoop_sameFile pages io).trans (ih ..)

theorem writeTraceContentInline_sameFile (events : List EventFile) (io : TraceIo) :
    SameFile io (writeTraceContentInline events io).2 := by
  have hexist := isFileExist_sameFile io
  unfold writeTraceContentInline
  generalize io.isFileExist = checked at hexist ⊢
  obtain ⟨found, opened⟩ := checked
  dsimp only at hexist ⊢
  split
  · exact hexist
  · have hheader := hexist.trans (doWriteTraceContentHeader_sameFile {}
      ContentType.eventsFormat opened)
    split
    · exact hheader
    · exact hheader.trans ((writeEventFiles_sameFile ..).trans
        (updateTraceContentHeader_sameFile ..))

end TraceContent

end Hitrace
