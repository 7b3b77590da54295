import Hitrace.HitraceMeter.AppTrace
import Hitrace.Library.Transition
import Mathlib.Data.List.Forall2

namespace Hitrace

open Library

namespace AppTrace

/-! What a capture has put into its file and its cache. -/

def reservedHeader : List UInt8 := traceTxtHeader [] []

/-- The header of a file with this many records. -/
def finalHeader (eventNum : Nat) : List UInt8 :=
  traceTxtHeader (decimal eventNum ++ bytesOf "/" ++ decimal eventNum)
    (decimal cpuCoreNum)

theorem length_traceTxtHeader {eventNum cpuNum : List UInt8}
    (heventNum : eventNum.length ≤ 21) (hcpuNum : cpuNum.length ≤ 3) :
    (traceTxtHeader eventNum cpuNum).length = reservedHeader.length := by
  simp only [reservedHeader, traceTxtHeader, padRight, List.length_append,
    List.length_replicate, List.length_nil]
  omega

theorem length_bytesOf_ofList (chars : List Char) :
    (bytesOf (String.ofList chars)).length = chars.length := by
  simp [bytesOf]

theorem length_append_bytesOf {front : List UInt8} {length : Nat}
    (hfront : front.length = length) (chars : List Char) :
    (front ++ bytesOf (String.ofList chars)).length = length + chars.length := by
  rw [List.length_append, hfront, length_bytesOf_ofList]

theorem length_headerBack : headerBack.length = 451 := by
  apply length_append_bytesOf
  apply length_append_bytesOf
  apply length_append_bytesOf
  apply length_append_bytesOf
  apply length_append_bytesOf
  apply length_append_bytesOf
  apply length_append_bytesOf
  apply length_bytesOf_ofList

theorem length_reservedHeader : reservedHeader.length = 534 := by
  have hfront : headerFront.length = 53 := length_bytesOf_ofList _
  have hcpu : (bytesOf "   #P:").length = 6 := length_bytesOf_ofList _
  simp only [reservedHeader, traceTxtHeader, padRight, List.length_append,
    List.length_replicate, List.length_nil, hfront, hcpu, length_headerBack]

theorem length_decimal_le {number width : Nat} (hwidth : 0 < width)
    (hnumber : number < 10 ^ width) : (decimal number).length ≤ width := by
  rw [decimal, bytesOf, List.length_map]
  exact (Nat.length_repr_le_iff hwidth).mpr hnumber

theorem length_finalHeader {eventNum : Nat} (heventNum : eventNum < 10 ^ 10) :
    (finalHeader eventNum).length = reservedHeader.length := by
  have hdecimal := length_decimal_le (by decide) heventNum
  apply length_traceTxtHeader
  · have hslash : (bytesOf "/").length = 1 := rfl
    rw [List.length_append, List.length_append, hslash]
    omega
  · decide +kernel

theorem formatHeader_eq {eventNum cpuNum : List UInt8}
    (hlength : (traceTxtHeader eventNum cpuNum).length = reservedHeader.length) :
    formatHeader eventNum cpuNum = some (traceTxtHeader eventNum cpuNum) := by
  rw [formatHeader, hlength, length_reservedHeader]
  exact if_pos (by decide)

namespace Capture

/-- The counters of a capture agree with its file and with the records that were
formatted since it began. -/
structure Sound (capture : Capture) (records : List (List UInt8)) : Prop where
  traceBuffer : capture.traceBuffer.length = defaultCacheSize
  writeOffset_nonneg : 0 ≤ capture.writeOffset
  writeOffset_le : capture.writeOffset ≤ defaultCacheSize
  fileSize : capture.fileSize = capture.file.content.length
  fileLimitSize : capture.fileSize + capture.writeOffset ≤ capture.fileLimitSize
  limit_le : capture.fileLimitSize ≤ maxFileSize
  traceEventNum : capture.traceEventNum = records.length
  atEnd : capture.file.AtEnd
  content : capture.file.content ++
      capture.traceBuffer.take capture.writeOffset.toNat =
    reservedHeader ++ records.flatten
  nonempty : ∀ record ∈ records, record ≠ []

variable {capture : Capture} {records : List (List UInt8)}

theorem Sound.length_cached (hsound : capture.Sound records) :
    ((capture.traceBuffer.take capture.writeOffset.toNat).length : Int) =
      capture.writeOffset := by
  have hbuffer := hsound.traceBuffer
  have hnonneg := hsound.writeOffset_nonneg
  have hle := hsound.writeOffset_le
  rw [List.length_take]
  omega

/-- Bytes that go to the end of the file and leave the cache empty. -/
theorem Sound.written (hsound : capture.Sound records) {bytes : List UInt8}
    (hlimit : capture.fileSize + bytes.length ≤ capture.fileLimitSize)
    {written : List (List UInt8)}
    (hcontent : capture.file.content ++ bytes = reservedHeader ++ written.flatten)
    (hnonempty : ∀ record ∈ written, record ≠ []) :
    Sound { capture.writeTraceToFile bytes with traceEventNum := written.length }
      written := by
  have hfile : (capture.writeTraceToFile bytes).file = capture.file.append bytes :=
    hsound.atEnd.write bytes
  refine ⟨hsound.traceBuffer, Int.le_refl 0, Int.natCast_nonneg _, ?_, ?_, hsound.limit_le,
    rfl, ?_, ?_, hnonempty⟩
  · dsimp only
    rw [hfile, PosixFile.append, List.length_append, Int.natCast_add, ← hsound.fileSize]
    rfl
  · have hsize : (capture.writeTraceToFile bytes).fileSize =
        capture.fileSize + bytes.length := rfl
    have hoffset : (capture.writeTraceToFile bytes).writeOffset = 0 := rfl
    have hsame : (capture.writeTraceToFile bytes).fileLimitSize =
        capture.fileLimitSize := rfl
    dsimp only
    omega
  · dsimp only
    rw [hfile]
    exact hsound.atEnd.append bytes
  · have hcached : (capture.writeTraceToFile bytes).traceBuffer.take
        (capture.writeTraceToFile bytes).writeOffset.toNat = [] := List.take_zero
    dsimp only
    rw [hfile, hcached, List.append_nil]
    exact hcontent

theorem Sound.flush (hsound : capture.Sound records) :
    capture.flush.Sound records := by
  have hlimit := hsound.fileLimitSize
  have hcached := hsound.length_cached
  have hwritten := hsound.written (by omega) hsound.content hsound.nonempty
  rw [← hsound.traceEventNum] at hwritten
  exact hwritten

theorem Sound.nonempty_concat (hsound : capture.Sound records) {record : List UInt8}
    (hrecord : record ≠ []) : ∀ other ∈ records ++ [record], other ≠ [] := by
  rw [List.forall_mem_append, List.forall_mem_singleton]
  exact ⟨hsound.nonempty, hrecord⟩

theorem Sound.setThreadInfo (hsound : capture.Sound records) (call : MarkerCall) :
    (capture.setThreadInfo call).Sound records := by
  obtain ⟨h1, h2, h3, h4, h5, h6, h7, h8, h9, h10⟩ := hsound
  rw [Capture.setThreadInfo]
  split
  · split
    · exact ⟨h1, h2, h3, h4, h5, h6, h7, h8, h9, h10⟩
    · exact ⟨h1, h2, h3, h4, h5, h6, h7, h8, h9, h10⟩
  · exact ⟨h1, h2, h3, h4, h5, h6, h7, h8, h9, h10⟩

theorem recordLen_bounds (marker : TraceMarker) :
    -(2 ^ 31) ≤ recordLen marker ∧ recordLen marker < 2 ^ 31 := by
  rw [recordLen, toInt]
  constructor
  · exact Int.le_bmod (by decide)
  · exact Int.bmod_lt (by decide)

/-- A record that passes the size check fits under the limit with its whole
reserve. -/
theorem Sound.fits (hsound : capture.Sound records) {len : Int}
    (hpositive : 0 < len) (hbound : len < 2 ^ 31)
    (hchecked : capture.exceedsLimit len = false) :
    capture.fileSize + capture.writeOffset + len ≤ capture.fileLimitSize := by
  have hnonneg := hsound.writeOffset_nonneg
  have hsize := hsound.fileSize
  have hlimit := hsound.fileLimitSize
  have hmax := hsound.limit_le
  have hsum := of_decide_eq_false hchecked
  simp only [toInt, Int.bmod_def] at hsum
  simp only [maxFileSize] at hmax
  split at hsum
  · omega
  · omega

end Capture

/-! One record into its buffer. -/

/-- The record a call formats, when it fits its reserve. -/
def formatted (appTracePrefix : List UInt8) (len : Int) (call : MarkerCall) :
    Option (List UInt8) :=
  match call.cpu with
  | none => none
  | some cpu =>
      let text := recordText appTracePrefix cpu call
      if (text.length : Int) < len then some text else none

/-- The record stands behind what the buffer held. -/
structure Stored (buffer : List UInt8) (start : Nat) (record : Option (List UInt8))
    (bytes : Int) (next : List UInt8) : Prop where
  length : next.length = buffer.length
  content : next.take (start + (record.getD []).length) =
    buffer.take start ++ record.getD []
  bytes : bytes = record.elim (-1) fun text => (text.length : Int)

theorem recordText_ne_nil (appTracePrefix : List UInt8) (cpu : Nat)
    (call : MarkerCall) : recordText appTracePrefix cpu call ≠ [] := by
  have hend : bytesOf "\n" ≠ [] := by decide
  rw [recordText]
  exact List.append_ne_nil_of_right_ne_nil _ hend

theorem formatted_ne_nil {appTracePrefix : List UInt8} {len : Int}
    {call : MarkerCall} {record : List UInt8}
    (hformatted : formatted appTracePrefix len call = some record) :
    record ≠ [] ∧ (record.length : Int) < len := by
  rw [formatted] at hformatted
  split at hformatted
  · cases hformatted
  · dsimp only at hformatted
    split at hformatted
    · next hfits =>
        cases hformatted
        exact ⟨recordText_ne_nil _ _ _, hfits⟩
    · cases hformatted

theorem snprintfS_stored {buffer : List UInt8} {start : Nat} {len : Int}
    (hroom : 0 < len → start + len ≤ buffer.length) (text : List UInt8) :
    ∃ bytes next, snprintfS buffer start len text = some (bytes, next) ∧
      Stored buffer start (if (text.length : Int) < len then some text else none)
        bytes next := by
  rw [snprintfS]
  by_cases hlen : len ≤ 0
  · have hlong : ¬ (text.length : Int) < len := by omega
    rw [if_pos hlen, if_neg hlong]
    exact ⟨-1, buffer, rfl, rfl, (List.append_nil _).symm, rfl⟩
  · have hinside := hroom (by omega)
    rw [if_neg hlen, if_neg (by omega)]
    by_cases htext : (text.length : Int) < len
    · rw [if_pos (by omega), if_pos htext]
      obtain ⟨hlength, htake⟩ := PosixFile.overwrite_inside buffer start text [0]
        (by simp; omega)
      exact ⟨_, _, rfl, hlength, htake, rfl⟩
    · rw [if_neg (by omega), if_neg htext]
      obtain ⟨hlength, htake⟩ := PosixFile.overwrite_inside buffer start []
        (text.take (len.toNat - 1) ++ [0]) (by simp; omega)
      exact ⟨_, _, rfl, hlength, htake, rfl⟩

theorem setAppTraceBuffer_stored {buffer : List UInt8} {start : Nat} {len : Int}
    (hroom : 0 < len → start + len ≤ buffer.length) (appTracePrefix : List UInt8)
    (call : MarkerCall) :
    ∃ bytes next,
      setAppTraceBuffer buffer start len appTracePrefix call = some (bytes, next) ∧
      Stored buffer start (formatted appTracePrefix len call) bytes next := by
  rw [setAppTraceBuffer, formatted]
  cases call.cpu with
  | none => exact ⟨-1, buffer, rfl, rfl, (List.append_nil _).symm, rfl⟩
  | some cpu => exact snprintfS_stored hroom _

namespace Capture

variable {capture : Capture} {records : List (List UInt8)}

/-- The whole reserve of the record fits under the limit. -/
def Reserves (capture : Capture) (len : Int) : Prop :=
  0 < len → capture.fileSize + capture.writeOffset + len ≤ capture.fileLimitSize

theorem Reserves.flush (hsound : capture.Sound records) {len : Int}
    (hreserves : capture.Reserves len) : capture.flush.Reserves len := by
  intro hpositive
  have hlimit := hreserves hpositive
  have hcached := hsound.length_cached
  have hsize : capture.flush.fileSize = capture.fileSize +
      (capture.traceBuffer.take capture.writeOffset.toNat).length := rfl
  have hoffset : capture.flush.writeOffset = 0 := rfl
  have hsame : capture.flush.fileLimitSize = capture.fileLimitSize := rfl
  omega

theorem Sound.getTraceBuffer (hsound : capture.Sound records) {len : Int}
    (hlen : len ≤ defaultCacheSize) (hreserves : capture.Reserves len) :
    (capture.getTraceBuffer len).Sound records ∧
      (capture.getTraceBuffer len).Reserves len ∧
      (0 < len → (capture.getTraceBuffer len).writeOffset + len ≤
        defaultCacheSize) := by
  rw [Capture.getTraceBuffer]
  split
  · refine ⟨hsound.flush, hreserves.flush hsound, ?_⟩
    intro _
    have hoffset : capture.flush.writeOffset = 0 := rfl
    omega
  · next hkeeps =>
      refine ⟨hsound, hreserves, ?_⟩
      intro _
      have hle := hsound.writeOffset_le
      simp only [defaultCacheSize, maxFileSize] at hkeeps hle hlen ⊢
      omega

theorem Sound.append (hsound : capture.Sound records) {len : Int}
    (hreserves : capture.Reserves len)
    (hroom : 0 < len → capture.writeOffset + len ≤ defaultCacheSize)
    {record : List UInt8} (hrecord : record ≠ []) (hfits : (record.length : Int) < len)
    {traceBuffer : List UInt8} (hlength : traceBuffer.length = defaultCacheSize)
    (hcontent : traceBuffer.take (capture.writeOffset.toNat + record.length) =
      capture.traceBuffer.take capture.writeOffset.toNat ++ record) :
    Sound
      { capture with
        traceBuffer
        traceEventNum := capture.traceEventNum + 1
        writeOffset := capture.writeOffset + record.length }
      (records ++ [record]) where
  traceBuffer := hlength
  writeOffset_nonneg := by
    have hnonneg := hsound.writeOffset_nonneg
    dsimp only
    omega
  writeOffset_le := by
    have hoffset := hroom (by omega)
    dsimp only
    omega
  fileSize := hsound.fileSize
  fileLimitSize := by
    have hlimit := hreserves (by omega)
    dsimp only
    omega
  limit_le := hsound.limit_le
  traceEventNum := by
    rw [List.length_append, ← hsound.traceEventNum]
    rfl
  atEnd := hsound.atEnd
  content := by
    have hnonneg := hsound.writeOffset_nonneg
    have hoffset : (capture.writeOffset + record.length).toNat =
        capture.writeOffset.toNat + record.length := by omega
    dsimp only
    rw [hoffset, hcontent, ← List.append_assoc, hsound.content, List.flatten_append,
      List.flatten_singleton, List.append_assoc]
  nonempty := hsound.nonempty_concat hrecord

theorem Sound.rebuffer (hsound : capture.Sound records) {traceBuffer : List UInt8}
    (hlength : traceBuffer.length = defaultCacheSize)
    (hcontent : traceBuffer.take capture.writeOffset.toNat =
      capture.traceBuffer.take capture.writeOffset.toNat) :
    Sound { capture with traceBuffer } records where
  traceBuffer := hlength
  writeOffset_nonneg := hsound.writeOffset_nonneg
  writeOffset_le := hsound.writeOffset_le
  fileSize := hsound.fileSize
  fileLimitSize := hsound.fileLimitSize
  limit_le := hsound.limit_le
  traceEventNum := hsound.traceEventNum
  atEnd := hsound.atEnd
  content := by
    dsimp only
    rw [hcontent]
    exact hsound.content
  nonempty := hsound.nonempty

/-- A record that takes the way through the cache. -/
theorem Sound.setAppTrace (hsound : capture.Sound records) {len : Int}
    (hlen : len ≤ defaultCacheSize) (hreserves : capture.Reserves len)
    (call : MarkerCall) :
    ∃ next, capture.setAppTrace len call = some next ∧
      next.Sound
        (records ++ (formatted capture.appTracePrefix len call).toList) := by
  obtain ⟨hready, hfree, hroom⟩ := hsound.getTraceBuffer hlen hreserves
  have hkept : (capture.getTraceBuffer len).appTracePrefix =
      capture.appTracePrefix := by
    rw [Capture.getTraceBuffer]
    split <;> rfl
  rw [Capture.setAppTrace, ← hkept]
  generalize capture.getTraceBuffer len = ready at hready hfree hroom
  have hinside : 0 < len →
      ready.writeOffset.toNat + len ≤ ready.traceBuffer.length := by
    intro hpositive
    have hnonneg := hready.writeOffset_nonneg
    have hcache := hroom hpositive
    rw [hready.traceBuffer]
    omega
  obtain ⟨bytes, traceBuffer, hset, hstored⟩ :=
    setAppTraceBuffer_stored hinside ready.appTracePrefix call
  have hlength := hstored.length.trans hready.traceBuffer
  rw [hset]
  cases hrecord : formatted ready.appTracePrefix len call with
  | none =>
      rw [hrecord] at hstored
      have hbytes : bytes = -1 := hstored.bytes
      have hcontent := hstored.content
      rw [Option.getD_none, List.append_nil] at hcontent
      rw [hbytes, Option.toList_none, List.append_nil]
      exact ⟨_, rfl, hready.rebuffer hlength hcontent⟩
  | some record =>
      rw [hrecord] at hstored
      obtain ⟨hnonempty, hfits⟩ := formatted_ne_nil hrecord
      have hbytes : bytes = record.length := hstored.bytes
      have hpositive : (record.length : Int) > 0 := by
        have hpos := List.length_pos_iff.mpr hnonempty
        omega
      dsimp only
      rw [hbytes, if_pos hpositive]
      exact ⟨_, rfl, hready.append hfree hroom hnonempty hfits hlength
        hstored.content⟩

/-- With an empty cache a record goes straight to the end of the file. -/
theorem Sound.write (hsound : capture.Sound records)
    (hempty : capture.writeOffset = 0) {len : Int} (hreserves : capture.Reserves len)
    {record : List UInt8} (hrecord : record ≠ [])
    (hfits : (record.length : Int) < len) :
    Sound
      { capture.writeTraceToFile record with
        traceEventNum := capture.traceEventNum + 1 }
      (records ++ [record]) := by
  have hlimit := hreserves (by omega)
  have hcontent := hsound.content
  rw [hempty, Int.toNat_zero, List.take_zero, List.append_nil] at hcontent
  have hnumber : capture.traceEventNum + 1 = (records ++ [record]).length := by
    rw [List.length_append, ← hsound.traceEventNum]
    rfl
  rw [hnumber]
  refine hsound.written (by omega) ?_ (hsound.nonempty_concat hrecord)
  rw [hcontent, List.flatten_append, List.flatten_singleton, List.append_assoc]

theorem Sound.writeAppTraceLong (hsound : capture.Sound records) {len : Int}
    (hreserves : capture.Reserves len) (call : MarkerCall) :
    ∃ next, capture.writeAppTraceLong len call = some next ∧
      next.Sound
        (records ++ (formatted capture.appTracePrefix len call).toList) := by
  have hroom : 0 < len → (0 : Nat) + len ≤
      (List.replicate len.toNat (0 : UInt8)).length := by
    intro hpositive
    rw [List.length_replicate]
    omega
  obtain ⟨bytes, buffer, hset, hstored⟩ :=
    setAppTraceBuffer_stored hroom capture.appTracePrefix call
  have hkept : capture.flush.appTracePrefix = capture.appTracePrefix := rfl
  rw [Capture.writeAppTraceLong]
  dsimp only
  rw [hkept, hset]
  cases hrecord : formatted capture.appTracePrefix len call with
  | none =>
      rw [hrecord] at hstored
      have hbytes : bytes = -1 := hstored.bytes
      rw [hbytes, Option.toList_none, List.append_nil]
      exact ⟨_, rfl, hsound.flush⟩
  | some record =>
      rw [hrecord] at hstored
      obtain ⟨hnonempty, hfits⟩ := formatted_ne_nil hrecord
      have hbytes : bytes = record.length := hstored.bytes
      have hpositive : (record.length : Int) > 0 := by
        have hpos := List.length_pos_iff.mpr hnonempty
        omega
      have hcontent := hstored.content
      rw [Nat.zero_add, List.take_zero, List.nil_append, Option.getD_some] at hcontent
      dsimp only
      rw [hbytes, if_pos hpositive, Int.toNat_natCast, hcontent]
      exact ⟨_, rfl, hsound.flush.write rfl (hreserves.flush hsound) hnonempty hfits⟩

/-- The record that a marker call adds to the capture. -/
def formats (capture : Capture) (call : MarkerCall) : Option (List UInt8) :=
  if capture.handles call && !capture.exceedsLimit (recordLen call.marker) then
    formatted (capture.setThreadInfo call).appTracePrefix (recordLen call.marker) call
  else none

theorem Sound.writeRecord (hsound : capture.Sound records) (call : MarkerCall)
    (hchecked : capture.exceedsLimit (recordLen call.marker) = false) :
    ∃ next, capture.writeRecord call = some next ∧
      next.Sound (records ++ (formatted (capture.setThreadInfo call).appTracePrefix
        (recordLen call.marker) call).toList) := by
  have hready := hsound.setThreadInfo call
  have hreserves : (capture.setThreadInfo call).Reserves (recordLen call.marker) := by
    intro hpositive
    have hfits := hsound.fits hpositive (recordLen_bounds call.marker).2 hchecked
    rw [Capture.setThreadInfo]
    split
    · split
      · exact hfits
      · exact hfits
    · exact hfits
  rw [Capture.writeRecord]
  split
  · next hlen => exact hready.setAppTrace hlen hreserves call
  · exact hready.writeAppTraceLong hreserves call

theorem length_le_flatten {records : List (List UInt8)}
    (hnonempty : ∀ record ∈ records, record ≠ []) :
    records.length ≤ records.flatten.length := by
  induction records with
  | nil => exact Nat.le_refl 0
  | cons record rest ih =>
      obtain ⟨hrecord, hrest⟩ := List.forall_mem_cons.mp hnonempty
      have hpos := List.length_pos_iff.mpr hrecord
      have hle := ih hrest
      rw [List.flatten_cons, List.length_append, List.length_cons]
      omega

/-- The records are fewer than the bytes of the file, so their number fits the
header. -/
theorem Sound.length_records (hsound : capture.Sound records) :
    records.length < 10 ^ 10 := by
  have hflatten := length_le_flatten hsound.nonempty
  have hcontent := congrArg List.length hsound.content
  have hcached := hsound.length_cached
  have hsize := hsound.fileSize
  have hlimit := hsound.fileLimitSize
  have hmax := hsound.limit_le
  rw [List.length_append, List.length_append] at hcontent
  simp only [maxFileSize] at hmax
  omega

end Capture

/-! Whole runs of calls. -/

/-- A finished file: the header with the number of the records, in the place of
the reserved one, and the records. -/
structure Complete (content : List UInt8) (records : List (List UInt8)) : Prop where
  content : content = finalHeader records.length ++ records.flatten
  header : (finalHeader records.length).length = reservedHeader.length

theorem Capture.Sound.stop {capture : Capture} {records : List (List UInt8)}
    (hsound : capture.Sound records) :
    formatHeader capture.eventNumStr (decimal cpuCoreNum) =
        some (finalHeader records.length) ∧
      Complete (capture.patched (finalHeader records.length)).content records := by
  have hheader := length_finalHeader hsound.length_records
  have heventNum : capture.eventNumStr = decimal records.length ++ bytesOf "/" ++
      decimal records.length := by
    rw [Capture.eventNumStr, hsound.traceEventNum]
  refine ⟨?_, ?_, hheader⟩
  · rw [heventNum]
    exact formatHeader_eq hheader
  · have hflushed := hsound.flush
    have hcontent := hflushed.content
    have hcached : capture.flush.traceBuffer.take
        capture.flush.writeOffset.toNat = [] := List.take_zero
    rw [hcached, List.append_nil] at hcontent
    have hnonempty : finalHeader records.length ≠ [] := by
      rw [← List.length_pos_iff, hheader, length_reservedHeader]
      decide
    rw [Capture.patched, PosixFile.write_content hnonempty, PosixFile.seek_content,
      PosixFile.seek_offset, hcontent]
    have hmiddle := PosixFile.overwrite_middle [] reservedHeader records.flatten
      (finalHeader records.length) hheader
    exact hmiddle

theorem initTraceHead_file (args : StartArgs) (header : List UInt8) :
    (initTraceHead args header).file = ⟨header, header.length⟩ := by
  have hend : PosixFile.AtEnd {} := rfl
  rw [initTraceHead, hend.write]
  rfl

theorem sound_initTraceHead (args : StartArgs)
    (hlimit : reservedHeader.length ≤ args.limitSize.toNat) :
    (initTraceHead args reservedHeader).Sound [] where
  traceBuffer := List.length_replicate
  writeOffset_nonneg := Int.le_refl 0
  writeOffset_le := Int.natCast_nonneg _
  fileSize := by
    rw [initTraceHead_file]
    rfl
  fileLimitSize := by
    have hlength := length_reservedHeader
    have hsize : (initTraceHead args reservedHeader).fileSize =
        reservedHeader.length := rfl
    have hoffset : (initTraceHead args reservedHeader).writeOffset = 0 := rfl
    have hsame : (initTraceHead args reservedHeader).fileLimitSize =
        min args.limitSize.toNat maxFileSize := rfl
    have hmax : reservedHeader.length ≤ maxFileSize := by
      rw [hlength]
      decide
    have hle := Nat.le_min.mpr ⟨hlimit, hmax⟩
    rw [← hsame] at hle
    omega
  limit_le := Nat.min_le_right _ _
  traceEventNum := rfl
  atEnd := by
    rw [initTraceHead_file]
    rfl
  content := by
    have hcached : (initTraceHead args reservedHeader).traceBuffer.take
        (initTraceHead args reservedHeader).writeOffset.toNat = [] := List.take_zero
    rw [hcached, initTraceHead_file]
    rfl
  nonempty := nofun

/-- The globals with a history: the records of the capture that is on, and those
of every capture that is over. -/
structure CaptureLog where
  app : AppTrace := {}
  records : List (List UInt8) := []
  closed : List (List (List UInt8)) := []

namespace CaptureLog

inductive Label
  | startCaptureAppTrace (args : StartArgs)
  | addHitraceMeterMarker (call : MarkerCall)
  | stopCaptureAppTrace

/-- The record of a call, if it is captured. -/
def record (log : CaptureLog) (call : MarkerCall) : Option (List UInt8) :=
  match log.app.capture with
  | none => none
  | some capture => if reaches capture call then capture.formats call else none

def follow (log : CaptureLog) (record : Option (List UInt8)) (app : AppTrace) :
    CaptureLog :=
  if log.app.capture.isSome && app.capture.isNone then
    ⟨app, [], log.closed ++ [log.records ++ record.toList]⟩
  else ⟨app, log.records ++ record.toList, log.closed⟩

/-- There is no next state only when a record is formatted outside of its
buffer. -/
def step (log : CaptureLog) : Label → Option CaptureLog
  | .startCaptureAppTrace args =>
      some (log.follow none (log.app.startCaptureAppTrace args).2)
  | .addHitraceMeterMarker call =>
      (log.app.addHitraceMeterMarker call).map (log.follow (log.record call))
  | .stopCaptureAppTrace => some (log.follow none log.app.stopCaptureAppTrace.2)

/-- The limit leaves room for the reserved header. -/
def Label.LimitHolds : Label → Prop
  | .startCaptureAppTrace args => reservedHeader.length ≤ args.limitSize.toNat
  | _ => True

structure Sound (log : CaptureLog) : Prop where
  capturing : ∀ capture, log.app.capture = some capture →
    capture.Sound log.records
  idle : log.app.capture = none → log.records = []
  closed : List.Forall₂ Complete log.app.disk log.closed

/-- The capture is over, and its file is there behind those of the earlier captures. -/
def ClosesTo (log : CaptureLog) (app : AppTrace) : Prop :=
  app.capture = none ∧ ∃ content, app.disk = log.app.disk ++ [content] ∧
    Complete content log.records

/-- What the calls do to the capture that is on, if there is one: a start begins one, and a
stop or a marker over the limit ends it with its file. -/
structure Turns (log : CaptureLog) : Prop where
  start : log.app.capture = none → ∀ args, checkAppTraceArgs args = .succ →
    args.opened = .succ → reservedHeader.length ≤ args.limitSize.toNat →
      ∃ capture, log.app.startCaptureAppTrace args =
          (.succ, { log.app with capture := some capture }) ∧
        capture.appTag = args.tags ∧ capture.Sound []
  stop : log.app.capture.isSome = true →
    log.app.stopCaptureAppTrace.1 = .succ ∧ log.ClosesTo log.app.stopCaptureAppTrace.2
  limit : ∀ capture call, log.app.capture = some capture → reaches capture call = true →
    capture.handles call = true → capture.exceedsLimit (recordLen call.marker) = true →
      ∃ app, log.app.addHitraceMeterMarker call = some app ∧ log.ClosesTo app

theorem follow_same (log : CaptureLog) : log.follow none log.app = log := by
  rw [follow]
  cases hcapture : log.app.capture with
  | none => simp
  | some capture => simp

theorem follow_capturing (log : CaptureLog) (record : Option (List UInt8))
    (capture : Capture) :
    log.follow record { log.app with capture := some capture } =
      ⟨{ log.app with capture := some capture }, log.records ++ record.toList,
        log.closed⟩ := by
  rw [follow]
  simp

variable {log : CaptureLog}

theorem Sound.capture (hsound : log.Sound) {record : Option (List UInt8)}
    {capture : Capture} (hcapture : capture.Sound (log.records ++ record.toList)) :
    (log.follow record { log.app with capture := some capture }).Sound := by
  rw [follow_capturing]
  refine ⟨?_, nofun, hsound.closed⟩
  intro other hother
  cases hother
  exact hcapture

theorem Sound.start (hsound : log.Sound) {args : StartArgs}
    (hlimit : reservedHeader.length ≤ args.limitSize.toNat) :
    (log.follow none (log.app.startCaptureAppTrace args).2).Sound := by
  rw [startCaptureAppTrace]
  split
  · rw [follow_same]
    exact hsound
  · split
    · rw [follow_same]
      exact hsound
    · next hoff =>
        split
        · rw [follow_same]
          exact hsound
        · have hheader : formatHeader [] [] = some reservedHeader :=
            formatHeader_eq rfl
          rw [hheader]
          apply hsound.capture
          have hnone : log.app.capture = none := by
            simpa using hoff
          rw [hsound.idle hnone]
          exact sound_initTraceHead args hlimit

theorem Sound.closes (hsound : log.Sound) {capture : Capture}
    (hcapture : log.app.capture = some capture) :
    log.app.stopCaptureAppTrace.1 = .succ ∧
      log.ClosesTo log.app.stopCaptureAppTrace.2 := by
  obtain ⟨hheader, hcomplete⟩ := (hsound.capturing capture hcapture).stop
  rw [stopCaptureAppTrace, hcapture]
  dsimp only
  rw [hheader]
  exact ⟨rfl, rfl, _, rfl, hcomplete⟩

theorem Sound.follow_closed (hsound : log.Sound) {capture : Capture}
    (hcapture : log.app.capture = some capture) {app : AppTrace} (hcloses : log.ClosesTo app) :
    (log.follow none app).Sound := by
  obtain ⟨hnone, content, hdisk, hcomplete⟩ := hcloses
  have hfollow : log.follow none app = ⟨app, [], log.closed ++ [log.records]⟩ := by
    rw [follow, hcapture, hnone, Option.toList_none, List.append_nil]
    rfl
  rw [hfollow]
  refine ⟨?_, fun _ => rfl, ?_⟩
  · intro other hother
    rw [hnone] at hother
    cases hother
  · dsimp only
    rw [hdisk]
    exact List.rel_append hsound.closed (.cons hcomplete .nil)

theorem Sound.stop (hsound : log.Sound) :
    (log.follow none log.app.stopCaptureAppTrace.2).Sound := by
  cases hcapture : log.app.capture with
  | none =>
      rw [stopCaptureAppTrace, hcapture]
      dsimp only
      rw [follow_same]
      exact hsound
  | some capture =>
      exact hsound.follow_closed hcapture (hsound.closes hcapture).2

theorem Sound.turns (hsound : log.Sound) : log.Turns := by
  refine ⟨?_, ?_, ?_⟩
  · intro hnone args hargs hopened hlimit
    have hheader : formatHeader [] [] = some reservedHeader := formatHeader_eq rfl
    refine ⟨initTraceHead args reservedHeader, ?_, rfl, sound_initTraceHead args hlimit⟩
    simp only [startCaptureAppTrace, hargs, hnone, hopened, hheader, ne_eq, not_true_eq_false,
      if_false, Option.isSome_none, Bool.false_eq_true]
  · intro hcapture
    obtain ⟨capture, hcapture⟩ := Option.isSome_iff_exists.mp hcapture
    exact hsound.closes hcapture
  · intro capture call hcapture hreaches hhandles hexceeds
    refine ⟨log.app.stopCaptureAppTrace.2, ?_, (hsound.closes hcapture).2⟩
    rw [addHitraceMeterMarker, hcapture]
    dsimp only
    rw [if_pos hreaches, writeAppTrace, hhandles, hexceeds]
    rfl

theorem Sound.marker (hsound : log.Sound) (call : MarkerCall) :
    ∃ next, (log.app.addHitraceMeterMarker call).map
        (log.follow (log.record call)) = some next ∧ next.Sound := by
  rw [addHitraceMeterMarker, record]
  cases hcapture : log.app.capture with
  | none => exact ⟨_, rfl, (follow_same log).symm ▸ hsound⟩
  | some capture =>
      have hcapturing := hsound.capturing capture hcapture
      dsimp only
      cases reaches capture call with
      | false => exact ⟨_, rfl, (follow_same log).symm ▸ hsound⟩
      | true =>
          rw [if_pos rfl, if_pos rfl, writeAppTrace, Capture.formats]
          cases capture.handles call with
          | false => exact ⟨_, rfl, (follow_same log).symm ▸ hsound⟩
          | true =>
              cases hchecked : capture.exceedsLimit (recordLen call.marker) with
              | true => exact ⟨_, rfl, hsound.stop⟩
              | false =>
                  obtain ⟨next, hwrite, hnext⟩ := hcapturing.writeRecord call hchecked
                  exact ⟨_, by rw [hwrite]; rfl, hsound.capture hnext⟩

theorem sound_step (hsound : log.Sound) {label : Label} (hlimit : label.LimitHolds) :
    ∃ next, log.step label = some next ∧ next.Sound := by
  cases label with
  | startCaptureAppTrace args => exact ⟨_, rfl, hsound.start hlimit⟩
  | addHitraceMeterMarker call => exact hsound.marker call
  | stopCaptureAppTrace => exact ⟨_, rfl, hsound.stop⟩

end CaptureLog

def captureLog : Machine CaptureLog CaptureLog.Label where
  init := fun log => log = {}
  step := CaptureLog.step

open CaptureLog in
/-- Over every sequence of calls the counters, the cache and the files stay
consistent, no record leaves its buffer, and whatever ends the capture leaves its file. -/
theorem app_capture_invariant (labels : List Label)
    (hlimits : ∀ label ∈ labels, label.LimitHolds) :
    ∃ log, captureLog.run {} labels = some log ∧ log.Sound ∧ log.Turns := by
  have hstart : CaptureLog.Sound {} := ⟨nofun, fun _ => rfl, .nil⟩
  generalize ({} : CaptureLog) = log at hstart
  induction labels generalizing log with
  | nil => exact ⟨log, rfl, hstart, hstart.turns⟩
  | cons label rest ih =>
      obtain ⟨hlimit, hrest⟩ := List.forall_mem_cons.mp hlimits
      obtain ⟨next, hstep, hnext⟩ := sound_step hstart hlimit
      rw [captureLog.run_cons_of_step hstep]
      exact ih hrest next hnext

def hitraceTagApp : UInt64 := (1 : UInt64) <<< 62

def sampleCall (type : MarkerType) : MarkerCall where
  marker := ⟨type, .info, hitraceTagApp, -5, bytesOf "load", [],
    bytesOf "k=v", ⟨123, by decide⟩⟩
  tid := ⟨124, by decide⟩
  procName := bytesOf "app"
  comm := some (bytesOf "worker\n")
  cpu := some 3
  sec := 77
  nsec := 123456789

def sampleLabels : List CaptureLog.Label :=
  [.startCaptureAppTrace ⟨.allThread, hitraceTagApp, 4096, ⟨123, by decide⟩, .succ⟩,
    .addHitraceMeterMarker (sampleCall .begin), .addHitraceMeterMarker (sampleCall .end)]

open CaptureLog in
/-- The stop behind two markers leaves a file of two records. -/
theorem app_capture_invariant_two_markers :
    ∃ log, captureLog.run {} sampleLabels = some log ∧ log.Sound ∧
      log.records.length = 2 ∧ log.app.stopCaptureAppTrace.1 = .succ ∧
        log.ClosesTo log.app.stopCaptureAppTrace.2 := by
  have hlimits : ∀ label ∈ sampleLabels, label.LimitHolds := by
    intro label hmem
    simp only [sampleLabels, List.mem_cons, List.not_mem_nil, or_false] at hmem
    rcases hmem with rfl | rfl | rfl
    · rw [Label.LimitHolds, length_reservedHeader]
      decide
    · trivial
    · trivial
  have hcaptured : (captureLog.run {} sampleLabels).map
      (fun log => (log.app.capture.isSome, log.records.length)) = some (true, 2) := by
    decide +kernel
  obtain ⟨log, hrun, hsound, hturns⟩ := app_capture_invariant sampleLabels hlimits
  rw [hrun, Option.map_some, Option.some_inj, Prod.mk.injEq] at hcaptured
  obtain ⟨hstopped, hcloses⟩ := hturns.stop hcaptured.1
  exact ⟨log, hrun, hsound, hcaptured.2, hstopped, hcloses⟩

end AppTrace

end Hitrace
