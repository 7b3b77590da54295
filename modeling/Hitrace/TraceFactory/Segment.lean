import Hitrace.TraceFactory.TraceContent

namespace Hitrace

open Library

/-! What the writers do to the file, segment by segment. -/

/-- One segment of the container.  Without a placeholder the payload goes first
and the header into the hole in front of it; otherwise a header with that length
stands there while the payload is written, and is patched afterwards. -/
structure Segment where
  type : UInt8
  payload : List UInt8
  placeholder : Option UInt32
deriving Repr, DecidableEq

namespace Segment

def header (segment : Segment) : TraceFileContentHeader :=
  ⟨segment.type, UInt32.ofNat segment.payload.length⟩

def bytes (segment : Segment) : List UInt8 :=
  segment.header.bytes ++ segment.payload

/-- The way back from the end of a segment to its header. -/
def patchOffset (segment : Segment) : Nat :=
  (UInt32.ofNat segment.payload.length + 8).toNat

def write (segment : Segment) (file : PosixFile) : PosixFile :=
  match segment.placeholder with
  | none =>
      let stored := (file.seek (file.offset + contentHeaderSize)).write
        segment.payload
      let headed := (stored.seek file.offset).write segment.header.bytes
      headed.seek (headed.offset + segment.payload.length)
  | some length =>
      let opened := file.write (TraceFileContentHeader.bytes ⟨segment.type, length⟩)
      let stored := opened.write segment.payload
      let patched := (stored.seek (stored.offset - segment.patchOffset)).write
        segment.header.bytes
      patched.seek stored.offset

/-- The length field holds the length and, where the header is patched, so does
the way back to it. -/
def Fits (segment : Segment) : Prop :=
  match segment.placeholder with
  | none => segment.payload.length < 2 ^ 32
  | some _ => segment.payload.length + contentHeaderSize < 2 ^ 32

instance : DecidablePred Fits := fun segment =>
  match hplaceholder : segment.placeholder with
  | none => decidable_of_iff (segment.payload.length < 2 ^ 32) (by
      simp only [Fits, hplaceholder])
  | some _ => decidable_of_iff (segment.payload.length + contentHeaderSize < 2 ^ 32)
      (by simp only [Fits, hplaceholder])

theorem length_bytes (segment : Segment) :
    segment.bytes.length = contentHeaderSize + segment.payload.length := by
  rw [bytes, List.length_append, TraceFileContentHeader.length_bytes]

theorem patchOffset_eq (segment : Segment) :
    segment.patchOffset =
      (segment.payload.length + contentHeaderSize) % 2 ^ 32 := by
  have height : (8 : UInt32).toNat = contentHeaderSize := rfl
  rw [patchOffset, UInt32.toNat_add, height, UInt32.toNat_ofNat']
  omega

theorem patchOffset_le (segment : Segment) :
    segment.patchOffset ≤ contentHeaderSize + segment.payload.length := by
  rw [patchOffset_eq, Nat.add_comm contentHeaderSize]
  exact Nat.mod_le _ _

theorem Fits.lt {segment : Segment} (hfits : segment.Fits) :
    segment.payload.length < 2 ^ 32 := by
  unfold Fits at hfits
  split at hfits
  · exact hfits
  · omega

theorem header_ne_nil (header : TraceFileContentHeader) : header.bytes ≠ [] :=
  List.cons_ne_nil _ _

theorem write_of_none {segment : Segment} {file : PosixFile}
    (hend : file.AtEnd) (hplaceholder : segment.placeholder = none) :
    segment.write file = file.append segment.bytes := by
  have hwrite := hend.write_behind (header_ne_nil segment.header) segment.payload
  rw [TraceFileContentHeader.length_bytes] at hwrite
  simp only [write, hplaceholder, hwrite]
  rw [PosixFile.append, length_bytes, ← Nat.add_assoc]
  rfl

theorem write_of_fits {segment : Segment} {file : PosixFile}
    (hend : file.AtEnd) (hfits : segment.Fits) :
    segment.write file = file.append segment.bytes := by
  have hlength := segment.header.length_bytes
  cases hplaceholder : segment.placeholder with
  | none => exact write_of_none hend hplaceholder
  | some length =>
      unfold Fits at hfits
      rw [hplaceholder] at hfits
      have hback : segment.patchOffset =
          segment.payload.length + contentHeaderSize := by
        rw [patchOffset_eq]
        exact Nat.mod_eq_of_lt hfits
      have hold : segment.header.bytes.length =
          (TraceFileContentHeader.bytes ⟨segment.type, length⟩).length := by
        rw [hlength, TraceFileContentHeader.length_bytes]
      have hwrite := hend.patch (header_ne_nil segment.header) hold segment.payload
      have hstart : ((file.write (TraceFileContentHeader.bytes
          ⟨segment.type, length⟩)).write segment.payload).offset -
            segment.patchOffset = file.offset := by
        rw [PosixFile.write_offset, PosixFile.write_offset, hback,
          TraceFileContentHeader.length_bytes]
        omega
      simp only [write, hplaceholder, hstart, hwrite]
      rw [PosixFile.append, length_bytes, PosixFile.write_offset,
        PosixFile.write_offset, TraceFileContentHeader.length_bytes, Nat.add_assoc]
      rfl

/-- The patched header comes to lie at `start` or behind it. -/
theorem write_patched_holds {front : List UInt8} {file : PosixFile}
    {segment : Segment} {length : UInt32}
    (hplaceholder : segment.placeholder = some length)
    (hopened : PosixFile.Holds front (file.write
      (TraceFileContentHeader.bytes ⟨segment.type, length⟩)))
    (hstart : front.length ≤ file.offset +
      (contentHeaderSize + segment.payload.length - segment.patchOffset)) :
    (segment.write file).Holds front := by
  have hback := segment.patchOffset_le
  have hstored := hopened.write segment.payload
  have hoffset : ((file.write (TraceFileContentHeader.bytes
      ⟨segment.type, length⟩)).write segment.payload).offset =
        file.offset + (contentHeaderSize + segment.payload.length) := by
    rw [PosixFile.write_offset, PosixFile.write_offset,
      TraceFileContentHeader.length_bytes, Nat.add_assoc]
  simp only [write, hplaceholder]
  refine ((hstored.seek ?_).write _).seek hstored.behind
  rw [hoffset, Nat.add_sub_assoc hback]
  exact hstart

/-- No segment is written in front of where it starts. -/
theorem write_holds {front : List UInt8} {file : PosixFile}
    (hholds : file.Holds front) (segment : Segment) :
    (segment.write file).Holds front := by
  have hbehind := hholds.behind
  cases hplaceholder : segment.placeholder with
  | none =>
      have hroom : front.length ≤ file.offset + contentHeaderSize :=
        Nat.le_add_right_of_le hbehind
      have hstored := (hholds.seek hroom).write segment.payload
      have hheaded := (hstored.seek hbehind).write segment.header.bytes
      simp only [write, hplaceholder]
      exact hheaded.seek (Nat.le_add_right_of_le hheaded.behind)
  | some length =>
      exact write_patched_holds hplaceholder (hholds.write _) (by omega)

theorem write_solid {file : PosixFile} (hsolid : file.Solid) (segment : Segment) :
    (segment.write file).Solid := by
  cases hplaceholder : segment.placeholder with
  | none =>
      let stored := (file.seek (file.offset + contentHeaderSize)).write segment.payload
      have hstored : (stored.seek file.offset).Solid :=
        Nat.le_trans hsolid (PosixFile.length_le_seek_write _ _ _)
      have hheaded := hstored.write segment.header.bytes
      have hlonger := PosixFile.length_le_write (stored.seek file.offset)
        segment.header.bytes
      have hoffset := PosixFile.write_offset (stored.seek file.offset)
        segment.header.bytes
      rw [segment.header.length_bytes, PosixFile.seek_offset] at hoffset
      rw [write, hplaceholder]
      dsimp only
      rw [PosixFile.Solid, PosixFile.seek_offset, PosixFile.seek_content]
      by_cases hpayload : segment.payload = []
      · rw [hpayload, List.length_nil, Nat.add_zero]
        rw [PosixFile.Solid] at hheaded
        simpa [stored, hpayload] using hheaded
      · have hbehind := PosixFile.offset_le_write
          (file.seek (file.offset + contentHeaderSize)) hpayload
        rw [PosixFile.seek_offset] at hbehind
        rw [hoffset]
        exact Nat.le_trans hbehind hlonger
  | some length =>
      have hstored := (hsolid.write (TraceFileContentHeader.bytes
        ⟨segment.type, length⟩)).write segment.payload
      rw [write, hplaceholder]
      exact Nat.le_trans hstored (PosixFile.length_le_seek_write _ _ _)

/-- Wherever the file ends, a patched segment follows what lies in front of it. -/
theorem past_write {segment : Segment} {file : PosixFile} {length : UInt32}
    (hsolid : file.Solid) (hplaceholder : segment.placeholder = some length)
    (hfits : segment.Fits) :
    (segment.write file).Solid ∧
      (segment.write file).past = file.past ++ segment.bytes := by
  let old := TraceFileContentHeader.bytes ⟨segment.type, length⟩
  have hheader := segment.header.length_bytes
  have hold : old.length = contentHeaderSize := TraceFileContentHeader.length_bytes _
  unfold Fits at hfits
  rw [hplaceholder] at hfits
  have hback : segment.patchOffset = segment.payload.length + contentHeaderSize := by
    rw [patchOffset_eq]
    exact Nat.mod_eq_of_lt hfits
  have hstored : (file.write (old ++ segment.payload)).offset =
      file.offset + (contentHeaderSize + segment.payload.length) := by
    rw [PosixFile.write_offset, List.length_append, hold]
  have hstart : (file.write (old ++ segment.payload)).offset - segment.patchOffset =
      file.offset := by
    rw [hstored, hback]
    omega
  have hpatch := hsolid.patch (header_ne_nil segment.header) (hheader.trans hold.symm)
    segment.payload
  have hwrite : segment.write file = (((file.write (old ++ segment.payload)).seek
      file.offset).write segment.header.bytes).seek
        (file.write (old ++ segment.payload)).offset := by
    rw [write, hplaceholder]
    dsimp only
    rw [PosixFile.write_append, hstart]
  have hend : (file.write (old ++ segment.payload)).offset =
      (file.past ++ segment.bytes).length := by
    rw [hstored, List.length_append, hsolid.length_past, length_bytes]
  rw [hwrite]
  constructor
  · rw [PosixFile.Solid, PosixFile.seek_content, PosixFile.seek_offset, hpatch, hend]
    exact (List.prefix_append _ _).length_le
  · rw [PosixFile.past, PosixFile.seek_content, PosixFile.seek_offset, hpatch, hend]
    exact List.take_left

/-- A segment that does not fit leaves a header with another length in front of
its payload. -/
theorem write_of_not_fits {segment : Segment} {file : PosixFile}
    (hend : file.AtEnd) (hfits : ¬ segment.Fits)
    (hplaceholder : ∀ length, segment.placeholder = some length →
      length.toNat + contentHeaderSize < 2 ^ 32) :
    ∃ length : UInt32, length.toNat ≠ segment.payload.length ∧
      (segment.write file).Holds (file.content ++
        TraceFileContentHeader.bytes ⟨segment.type, length⟩) := by
  unfold Fits at hfits
  cases hcase : segment.placeholder with
  | none =>
      rw [hcase] at hfits
      refine ⟨segment.header.length, ?_, ?_⟩
      · rw [header, UInt32.toNat_ofNat']
        omega
      · rw [write_of_none hend hcase]
        refine ⟨⟨segment.payload, List.append_assoc ..⟩, ?_⟩
        rw [List.length_append, PosixFile.append, hend, length_bytes,
          TraceFileContentHeader.length_bytes]
        dsimp only
        omega
  | some length =>
      rw [hcase] at hfits
      have hlength := hplaceholder length hcase
      have hheader := TraceFileContentHeader.length_bytes ⟨segment.type, length⟩
      refine ⟨length, by omega, write_patched_holds hcase ?_ ?_⟩
      · rw [hend.write]
        refine ⟨List.prefix_rfl, Nat.le_of_eq ?_⟩
        rw [List.length_append, PosixFile.append, hend]
      · have hsmall : segment.patchOffset < 2 ^ 32 := by
          rw [patchOffset_eq]
          exact Nat.mod_lt _ (by decide)
        have hmod := segment.patchOffset_eq
        rw [List.length_append, hheader, ← hend]
        omega

end Segment

/-! Whole files. -/

def encodeSegments (segments : List Segment) : List UInt8 :=
  segments.flatMap Segment.bytes

def writeSegments (segments : List Segment) (file : PosixFile) : PosixFile :=
  segments.foldl (fun file segment => segment.write file) file

/-- As long as all segments before it fit, a placeholder is one that fits. -/
def PlaceholdersFit (segments : List Segment) : Prop :=
  ∀ (good : List Segment) (bad : Segment) (back : List Segment),
    segments = good ++ bad :: back → (∀ segment ∈ good, segment.Fits) →
      ∀ length, bad.placeholder = some length →
        length.toNat + contentHeaderSize < 2 ^ 32

theorem PlaceholdersFit.tail {segment : Segment} {rest : List Segment}
    (hplaced : PlaceholdersFit (segment :: rest)) (hfits : segment.Fits) :
    PlaceholdersFit rest := by
  intro good bad back hsplit hgood
  refine hplaced (segment :: good) bad back (by rw [hsplit]; rfl) ?_
  exact List.forall_mem_cons.mpr ⟨hfits, hgood⟩

theorem PlaceholdersFit.append {first second : List Segment}
    (hfirst : PlaceholdersFit first) (hsecond : PlaceholdersFit second) :
    PlaceholdersFit (first ++ second) := by
  induction first with
  | nil => exact hsecond
  | cons segment rest ih =>
      intro good bad back hsplit hgood
      cases good with
      | nil =>
          cases hsplit
          exact hfirst [] segment rest rfl nofun
      | cons head good =>
          obtain ⟨rfl, hrest⟩ := List.cons.inj hsplit
          obtain ⟨hfits, hgood⟩ := List.forall_mem_cons.mp hgood
          exact ih (hfirst.tail hfits) good bad back hrest hgood

theorem placeholdersFit_nil : PlaceholdersFit [] := by
  intro good bad back hsplit
  cases good with
  | nil => exact nomatch hsplit
  | cons head rest => exact nomatch hsplit

theorem placeholdersFit_singleton {segment : Segment}
    (hplaceholder : segment.placeholder = none ∨ segment.placeholder = some 0) :
    PlaceholdersFit [segment] := by
  intro good bad back hsplit _ length hlength
  have hmem : bad ∈ [segment] := by
    rw [hsplit]
    exact List.mem_append_right _ List.mem_cons_self
  rw [List.mem_singleton.mp hmem] at hlength
  rcases hplaceholder with hnone | hzero
  · exact nomatch hnone.symm.trans hlength
  · cases hzero.symm.trans hlength
    decide

theorem writeSegments_cons (segment : Segment) (rest : List Segment)
    (file : PosixFile) :
    writeSegments (segment :: rest) file =
      writeSegments rest (segment.write file) := rfl

theorem writeSegments_append (first second : List Segment) (file : PosixFile) :
    writeSegments (first ++ second) file =
      writeSegments second (writeSegments first file) :=
  List.foldl_append

theorem writeSegments_holds {front : List UInt8} {file : PosixFile}
    (hholds : file.Holds front) (segments : List Segment) :
    (writeSegments segments file).Holds front := by
  induction segments generalizing file with
  | nil => exact hholds
  | cons segment rest ih => exact ih (segment.write_holds hholds)

theorem writeSegments_of_fits {segments : List Segment} {file : PosixFile}
    (hend : file.AtEnd) (hfits : ∀ segment ∈ segments, segment.Fits) :
    (writeSegments segments file).content =
      file.content ++ encodeSegments segments := by
  induction segments generalizing file with
  | nil => exact (List.append_nil _).symm
  | cons segment rest ih =>
      obtain ⟨hfirst, hrest⟩ := List.forall_mem_cons.mp hfits
      rw [writeSegments_cons, segment.write_of_fits hend hfirst,
        ih (hend.append _) hrest, encodeSegments, encodeSegments,
        List.flatMap_cons]
      exact List.append_assoc ..

theorem writeSegments_solid {file : PosixFile} (hsolid : file.Solid)
    (segments : List Segment) : (writeSegments segments file).Solid := by
  induction segments generalizing file with
  | nil => exact hsolid
  | cons segment rest ih => exact ih (segment.write_solid hsolid)

theorem past_writeSegments {segments : List Segment} {file : PosixFile}
    (hsolid : file.Solid)
    (hfits : ∀ segment ∈ segments, segment.placeholder.isSome = true ∧ segment.Fits) :
    (writeSegments segments file).Solid ∧
      (writeSegments segments file).past = file.past ++ encodeSegments segments := by
  induction segments generalizing file with
  | nil => exact ⟨hsolid, (List.append_nil _).symm⟩
  | cons segment rest ih =>
      obtain ⟨⟨hplaceholder, hfirst⟩, hrest⟩ := List.forall_mem_cons.mp hfits
      obtain ⟨length, hlength⟩ := Option.isSome_iff_exists.mp hplaceholder
      obtain ⟨hnext, hpast⟩ := segment.past_write hsolid hlength hfirst
      obtain ⟨hend, hall⟩ := ih hnext hrest
      refine ⟨hend, ?_⟩
      rw [writeSegments_cons, hall, hpast, encodeSegments, encodeSegments,
        List.flatMap_cons, List.append_assoc]

/-- The first segment that does not fit stays in the file with a wrong length. -/
theorem writeSegments_of_not_fits {segments : List Segment} {file : PosixFile}
    (hend : file.AtEnd) (hplaced : PlaceholdersFit segments)
    (hfits : ¬ ∀ segment ∈ segments, segment.Fits) :
    ∃ (good : List Segment) (bad : Segment) (back : List Segment),
      segments = good ++ bad :: back ∧ (∀ segment ∈ good, segment.Fits) ∧
      ∃ length : UInt32, length.toNat ≠ bad.payload.length ∧
        (writeSegments segments file).Holds (file.content ++
          encodeSegments good ++
            TraceFileContentHeader.bytes ⟨bad.type, length⟩) := by
  induction segments generalizing file with
  | nil => exact absurd nofun hfits
  | cons segment rest ih =>
      by_cases hfirst : segment.Fits
      · have hrest : ¬ ∀ segment ∈ rest, segment.Fits := fun hall =>
          hfits (List.forall_mem_cons.mpr ⟨hfirst, hall⟩)
        obtain ⟨good, bad, back, hsplit, hgood, length, hlength, hholds⟩ :=
          ih (hend.append segment.bytes) (hplaced.tail hfirst) hrest
        refine ⟨segment :: good, bad, back, by rw [hsplit]; rfl,
          List.forall_mem_cons.mpr ⟨hfirst, hgood⟩, length, hlength, ?_⟩
        have hfront : file.content ++ encodeSegments (segment :: good) =
            (file.append segment.bytes).content ++ encodeSegments good := by
          rw [encodeSegments, List.flatMap_cons]
          exact (List.append_assoc ..).symm
        rw [writeSegments_cons, segment.write_of_fits hend hfirst, hfront]
        exact hholds
      · obtain ⟨length, hlength, hholds⟩ := segment.write_of_not_fits hend hfirst
          (hplaced [] segment rest rfl nofun)
        refine ⟨[], segment, rest, rfl, nofun, length, hlength, ?_⟩
        rw [writeSegments_cons]
        simpa [encodeSegments] using writeSegments_holds hholds rest

/-! The segments with the padding that their headers may have in a file. -/

structure StoredSegment extends Segment where
  padding : Padding := {}
deriving Repr, DecidableEq

def StoredSegment.bytes (segment : StoredSegment) : List UInt8 :=
  segment.header.padded segment.padding ++ segment.payload

def storedBytes (segments : List StoredSegment) : List UInt8 :=
  segments.flatMap StoredSegment.bytes

theorem StoredSegment.length_bytes (segment : StoredSegment) :
    segment.bytes.length = contentHeaderSize + segment.payload.length := by
  rw [bytes, List.length_append, TraceFileContentHeader.length_padded]

/-- The segments with their padding zero. -/
def unpadded (segments : List Segment) : List StoredSegment :=
  segments.map fun segment => { segment with }

theorem toSegment_unpadded (segments : List Segment) :
    (unpadded segments).map StoredSegment.toSegment = segments := by
  rw [unpadded, List.map_map]
  exact List.map_id _

theorem storedBytes_unpadded (segments : List Segment) :
    storedBytes (unpadded segments) = encodeSegments segments := by
  rw [storedBytes, unpadded, List.flatMap_map]
  rfl

end Hitrace
