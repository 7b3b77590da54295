import Hitrace.TraceFactory.Segment
import Mathlib.Tactic.IntervalCases

namespace Hitrace.HitraceConverter

open Library

/-! The converter's side of the container. -/

/-- The items of a `struct` format, in native size and alignment. -/
inductive DataType
  | B
  | H
  | I
  | Q
deriving Repr, DecidableEq

def DataType.size : DataType → Nat
  | .B => 1
  | .H => 2
  | .I => 4
  | .Q => 8

def DataType.start (item : DataType) (offset : Nat) : Nat :=
  (offset + item.size - 1) / item.size * item.size

def getDataBytes (format : List DataType) : Nat :=
  format.foldl (fun offset item => item.start offset + item.size) 0

def unpackFrom : List DataType → Nat → List UInt8 → List Nat
  | [], _, _ => []
  | item :: rest, offset, data =>
      LittleEndian.decode ((data.drop (item.start offset)).take item.size) ::
        unpackFrom rest (item.start offset + item.size) data

def unpack (format : List DataType) (data : List UInt8) : List Nat :=
  unpackFrom format 0 data

structure TraceFile where
  content : List UInt8
  curPost : Nat := 0
deriving Repr, DecidableEq

namespace TraceFile

def size (file : TraceFile) : Nat := file.content.length

def readData (file : TraceFile) (blockSize : Nat) :
    Option (List UInt8) × TraceFile :=
  if file.curPost + blockSize > file.size then (none, file)
  else
    (some ((file.content.drop file.curPost).take blockSize),
      { file with curPost := file.curPost + blockSize })

end TraceFile

def parseSimpleField (format : List DataType) (data : Option (List UInt8)) :
    List Nat :=
  match data with
  | none => []
  | some data => if getDataBytes format ≠ data.length then [] else unpack format data

namespace FileHeader

def format : List DataType := [.H, .B, .H, .I]

/-- The number of processors, unless the header is refused. -/
def accept (file : TraceFile) : Option Nat × TraceFile :=
  let (data, file) := file.readData (getDataBytes format)
  match parseSimpleField format data with
  | [_, _, _, reserved] => (some ((reserved >>> 1) &&& 0b00011111), file)
  | _ => (none, file)

end FileHeader

namespace SegmentWrapper

def format : List DataType := [.I, .I]

def maxSegments : Nat := 256

/-- The type of a segment and what `get_segment_data` returns for it. -/
abbrev ParsedSegment := Nat × Option (List UInt8)

/-- The loop of `accept`; `room` is how many segments it may still record before
it raises. -/
def acceptLoop : Nat → TraceFile → Option (List ParsedSegment × TraceFile)
  | 0, file =>
      let (data, file) := file.readData (getDataBytes format)
      match parseSimpleField format data with
      | [_, _] => none
      | _ => some ([], file)
  | room + 1, file =>
      let (data, file) := file.readData (getDataBytes format)
      match parseSimpleField format data with
      | [segmentType, segmentSize] =>
          let (segmentData, file) := file.readData segmentSize
          (acceptLoop room file).map fun (segments, file) =>
            ((segmentType, segmentData) :: segments, file)
      | _ => some ([], file)

def accept (file : TraceFile) : Option (List ParsedSegment × TraceFile) :=
  acceptLoop maxSegments file

end SegmentWrapper

structure Parsed where
  cpuNum : Nat
  segments : List SegmentWrapper.ParsedSegment
  curPost : Nat
deriving Repr, DecidableEq

/-- `TraceFileFormat.accept` on a file: the header, then the segments. -/
def traceFileFormat (content : List UInt8) : Option Parsed :=
  match FileHeader.accept { content } with
  | (none, _) => none
  | (some cpuNum, file) =>
      (SegmentWrapper.accept file).map fun (segments, file) =>
        ⟨cpuNum, segments, file.curPost⟩

/-! Reading on from a position. -/

/-- What is left to read. -/
structure TraceFile.Rest (file : TraceFile) (bytes : List UInt8) : Prop where
  drop : file.content.drop file.curPost = bytes
  within : file.curPost ≤ file.content.length

theorem TraceFile.Rest.length {file : TraceFile} {bytes : List UInt8}
    (hrest : file.Rest bytes) : file.curPost + bytes.length = file.size := by
  have hwithin := hrest.within
  rw [← hrest.drop, List.length_drop, TraceFile.size]
  omega

theorem TraceFile.Rest.readData {file : TraceFile} {front back : List UInt8}
    (hrest : file.Rest (front ++ back)) :
    ∃ next, file.readData front.length = (some front, next) ∧ next.Rest back ∧
      next.content = file.content := by
  have hlength := hrest.length
  rw [List.length_append] at hlength
  refine ⟨{ file with curPost := file.curPost + front.length }, ?_, ⟨?_, ?_⟩, rfl⟩
  · rw [TraceFile.readData, if_neg (by omega), hrest.drop, List.take_left]
  · rw [← List.drop_drop, hrest.drop, List.drop_left]
  · rw [TraceFile.size] at hlength
    dsimp only
    omega

/-- The four bytes that are read for the type of a segment. -/
def word (header : TraceFileContentHeader) (padding : Padding) : Nat :=
  LittleEndian.decode [header.type, padding.first, padding.second, padding.third]

theorem word_eq (header : TraceFileContentHeader) (padding : Padding) :
    word header padding = header.type.toNat + 256 * (padding.first.toNat +
      256 * (padding.second.toNat + 256 * padding.third.toNat)) := by
  simp [word, LittleEndian.decode]

@[simp] theorem word_unpadded (header : TraceFileContentHeader) :
    word header {} = header.type.toNat := by
  simp [word_eq]

theorem parseSimpleField_padded (header : TraceFileContentHeader) (padding : Padding) :
    parseSimpleField SegmentWrapper.format (some (header.padded padding)) =
      [word header padding, header.length.toNat] := by
  have hlength : header.length.toNat < 256 ^ 4 := header.length.toNat_lt
  have hdecode := LittleEndian.decode_encode 4 hlength
  have hsize : getDataBytes SegmentWrapper.format = (header.padded padding).length := by
    rw [header.length_padded]
    rfl
  have hunpack : unpack SegmentWrapper.format (header.padded padding) =
      [word header padding,
        LittleEndian.decode (LittleEndian.encode 4 header.length.toNat)] := rfl
  rw [parseSimpleField, if_neg (not_not_intro hsize), hunpack, hdecode]

theorem parseSimpleField_header (header : TraceFileContentHeader) :
    parseSimpleField SegmentWrapper.format (some header.bytes) =
      [header.type.toNat, header.length.toNat] := by
  rw [TraceFileContentHeader.bytes, parseSimpleField_padded, word_unpadded]

theorem length_fileHeader (header : TraceFileHeader) (padding : Padding) :
    (header.padded padding).length = getDataBytes FileHeader.format := by
  simp [TraceFileHeader.padded]
  rfl

theorem parseSimpleField_fileHeader (header : TraceFileHeader) (padding : Padding) :
    parseSimpleField FileHeader.format (some (header.padded padding)) =
      [header.magicNumber.toNat, header.fileType.toNat,
        header.versionNumber.toNat, header.reserved.toNat] := by
  have hmagic := LittleEndian.decode_encode 2 header.magicNumber.toNat_lt
  have hversion := LittleEndian.decode_encode 2 header.versionNumber.toNat_lt
  have hreserved := LittleEndian.decode_encode 4 header.reserved.toNat_lt
  have hsize := (length_fileHeader header padding).symm
  have hunpack : unpack FileHeader.format (header.padded padding) =
      [LittleEndian.decode (LittleEndian.encode 2 header.magicNumber.toNat),
        LittleEndian.decode [header.fileType],
        LittleEndian.decode (LittleEndian.encode 2 header.versionNumber.toNat),
        LittleEndian.decode (LittleEndian.encode 4 header.reserved.toNat)] := rfl
  rw [parseSimpleField, if_neg (not_not_intro hsize), hunpack, hmagic, hversion,
    hreserved]
  simp [LittleEndian.decode]

/-! The loop over the segments. -/

namespace SegmentWrapper

/-- One turn of the loop, from a header that is there. -/
theorem acceptLoop_header (room : Nat) {file : TraceFile}
    {header : TraceFileContentHeader} {back : List UInt8}
    (hrest : file.Rest (header.bytes ++ back)) :
    ∃ next : TraceFile, next.Rest back ∧ next.content = file.content ∧
      acceptLoop (room + 1) file =
        (acceptLoop room (next.readData header.length.toNat).2).map
          fun (segments, file) =>
            ((header.type.toNat, (next.readData header.length.toNat).1) ::
              segments, file) := by
  obtain ⟨next, hread, hnext, hcontent⟩ := hrest.readData
  have hsize : getDataBytes format = header.bytes.length := by
    rw [header.length_bytes]
    rfl
  refine ⟨next, hnext, hcontent, ?_⟩
  rw [acceptLoop, hsize, hread]
  dsimp only
  rw [parseSimpleField_header]

theorem acceptLoop_end {room : Nat} {file : TraceFile} (hrest : file.Rest []) :
    acceptLoop room file = some ([], file) := by
  have hlength := hrest.length
  rw [List.length_nil, Nat.add_zero] at hlength
  have hread : file.readData (getDataBytes format) = (none, file) := by
    rw [TraceFile.readData, if_pos]
    rw [hlength]
    exact Nat.lt_add_of_pos_right (by decide)
  cases room with
  | zero => rw [acceptLoop, hread]; rfl
  | succ room => rw [acceptLoop, hread]; rfl

theorem acceptLoop_segment (room : Nat) {file : TraceFile} {segment : Segment}
    {back : List UInt8} (hfits : segment.Fits)
    (hrest : file.Rest (segment.bytes ++ back)) :
    ∃ next : TraceFile, next.Rest back ∧ next.content = file.content ∧
      acceptLoop (room + 1) file =
        (acceptLoop room next).map fun (segments, file) =>
          ((segment.type.toNat, some segment.payload) :: segments, file) := by
  rw [Segment.bytes, List.append_assoc] at hrest
  obtain ⟨opened, hopened, hsame, hloop⟩ := acceptLoop_header room hrest
  obtain ⟨next, hread, hnext, hcontent⟩ := hopened.readData
  have hlength : segment.header.length.toNat = segment.payload.length := by
    rw [Segment.header, UInt32.toNat_ofNat', Nat.mod_eq_of_lt hfits.lt]
  rw [hlength, hread] at hloop
  exact ⟨next, hnext, hcontent.trans hsame, hloop⟩

theorem acceptLoop_segments {room : Nat} {file : TraceFile}
    {segments : List Segment} (hroom : segments.length ≤ room)
    (hfits : ∀ segment ∈ segments, segment.Fits)
    (hrest : file.Rest (encodeSegments segments)) :
    ∃ next : TraceFile, next.curPost = file.size ∧
      acceptLoop room file = some
        (segments.map (fun segment =>
          (segment.type.toNat, some segment.payload)), next) := by
  induction segments generalizing room file with
  | nil =>
      have hlength := hrest.length
      exact ⟨file, by simpa [encodeSegments] using hlength, acceptLoop_end hrest⟩
  | cons segment rest ih =>
      obtain ⟨hfirst, hothers⟩ := List.forall_mem_cons.mp hfits
      cases room with
      | zero => exact absurd hroom (by simp)
      | succ room =>
          obtain ⟨next, hnext, hcontent, hloop⟩ :=
            acceptLoop_segment room hfirst hrest
          obtain ⟨final, hpost, hothersLoop⟩ :=
            ih (Nat.le_of_succ_le_succ hroom) hothers hnext
          refine ⟨final, ?_, by rw [hloop, hothersLoop]; rfl⟩
          rw [hpost, TraceFile.size, TraceFile.size, hcontent]

theorem acceptLoop_full {file : TraceFile} {header : TraceFileContentHeader}
    {back : List UInt8} (hrest : file.Rest (header.bytes ++ back)) :
    acceptLoop 0 file = none := by
  obtain ⟨next, hread, _, _⟩ := hrest.readData
  have hsize : getDataBytes format = header.bytes.length := by
    rw [header.length_bytes]
    rfl
  rw [acceptLoop, hsize, hread]
  dsimp only
  rw [parseSimpleField_header]

/-- A header with a wrong length is read with that length. -/
theorem acceptLoop_wrong {room : Nat} {file final : TraceFile}
    {good : List Segment} {header : TraceFileContentHeader} {back : List UInt8}
    {parsed : List ParsedSegment} (hfits : ∀ segment ∈ good, segment.Fits)
    (hrest : file.Rest (encodeSegments good ++ (header.bytes ++ back)))
    (hloop : acceptLoop room file = some (parsed, final)) :
    ∃ data, parsed[good.length]? = some (header.type.toNat, data) ∧
      ∀ bytes, data = some bytes → bytes.length = header.length.toNat := by
  induction good generalizing room file parsed with
  | nil =>
      cases room with
      | zero => exact nomatch (acceptLoop_full hrest).symm.trans hloop
      | succ room =>
          obtain ⟨next, hnext, _, hturn⟩ := acceptLoop_header room hrest
          rw [hturn, Option.map_eq_some_iff] at hloop
          obtain ⟨others, _, hparsed⟩ := hloop
          cases hparsed
          refine ⟨_, rfl, ?_⟩
          intro bytes hbytes
          rw [TraceFile.readData] at hbytes
          split at hbytes
          · exact nomatch hbytes
          · next hroom =>
              cases hbytes
              rw [TraceFile.size] at hroom
              rw [List.length_take, List.length_drop]
              omega
  | cons segment rest ih =>
      obtain ⟨hfirst, hothers⟩ := List.forall_mem_cons.mp hfits
      have hsplit : encodeSegments (segment :: rest) ++ (header.bytes ++ back) =
          segment.bytes ++
            (encodeSegments rest ++ (header.bytes ++ back)) := by
        rw [encodeSegments, List.flatMap_cons, List.append_assoc]
        rfl
      rw [hsplit] at hrest
      cases room with
      | zero =>
          rw [Segment.bytes, List.append_assoc] at hrest
          exact nomatch (acceptLoop_full hrest).symm.trans hloop
      | succ room =>
          obtain ⟨next, hnext, _, hturn⟩ := acceptLoop_segment room hfirst hrest
          rw [hturn, Option.map_eq_some_iff] at hloop
          obtain ⟨⟨others, last⟩, hothersLoop, hparsed⟩ := hloop
          cases hparsed
          exact ih hothers hnext hothersLoop

end SegmentWrapper

end Hitrace.HitraceConverter
