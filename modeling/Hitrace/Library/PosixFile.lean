import Mathlib.Data.List.Basic
import Mathlib.Algebra.Ring.Nat
import Mathlib.Tactic.Common

namespace Hitrace.Library

/-! A regular file seen through one descriptor: `lseek`, `write`, `ftruncate`.
Writing past the end leaves a hole that reads as zeros; writing nothing changes
nothing. -/

structure PosixFile where
  content : List UInt8 := []
  offset : Nat := 0
deriving Repr, DecidableEq

namespace PosixFile

def overwrite (content : List UInt8) (offset : Nat) (bytes : List UInt8) :
    List UInt8 :=
  content.take offset ++ List.replicate (offset - content.length) 0 ++ bytes ++
    content.drop (offset + bytes.length)

def write (file : PosixFile) (bytes : List UInt8) : PosixFile :=
  if bytes = [] then file
  else
    { content := overwrite file.content file.offset bytes
      offset := file.offset + bytes.length }

def seek (file : PosixFile) (offset : Nat) : PosixFile :=
  { file with offset }

def truncate (file : PosixFile) (length : Nat) : PosixFile :=
  { file with
    content := file.content.take length ++
      List.replicate (length - file.content.length) 0 }

@[simp] theorem seek_content (file : PosixFile) (offset : Nat) :
    (file.seek offset).content = file.content := rfl

@[simp] theorem seek_offset (file : PosixFile) (offset : Nat) :
    (file.seek offset).offset = offset := rfl

@[simp] theorem write_nil (file : PosixFile) : file.write [] = file := rfl

@[simp] theorem write_offset (file : PosixFile) (bytes : List UInt8) :
    (file.write bytes).offset = file.offset + bytes.length := by
  unfold write
  split
  · next hnil => simp [hnil]
  · rfl

theorem write_content {file : PosixFile} {bytes : List UInt8}
    (hbytes : bytes ≠ []) :
    (file.write bytes).content =
      overwrite file.content file.offset bytes := by
  rw [write, if_neg hbytes]

theorem overwrite_end (content bytes : List UInt8) :
    overwrite content content.length bytes = content ++ bytes := by
  simp [overwrite]

theorem overwrite_hole (content bytes : List UInt8) (gap : Nat) :
    overwrite content (content.length + gap) bytes =
      content ++ List.replicate gap 0 ++ bytes := by
  have htake : content.take (content.length + gap) = content :=
    List.take_of_length_le (Nat.le_add_right _ _)
  have hdrop : content.drop (content.length + gap + bytes.length) = [] :=
    List.drop_of_length_le (by omega)
  rw [overwrite, htake, hdrop, Nat.add_sub_cancel_left, List.append_nil]

theorem overwrite_front (front back bytes : List UInt8) :
    overwrite (front ++ back) front.length bytes =
      front ++ bytes ++ back.drop bytes.length := by
  have hgap : front.length - (front ++ back).length = 0 := by
    rw [List.length_append]
    omega
  rw [overwrite, hgap, List.take_left, List.replicate_zero, List.append_nil,
    List.drop_length_add_append]

theorem overwrite_middle (front old back bytes : List UInt8)
    (hlength : bytes.length = old.length) :
    overwrite (front ++ old ++ back) front.length bytes =
      front ++ bytes ++ back := by
  rw [List.append_assoc, overwrite_front, hlength, List.drop_left]

/-- Bytes stored inside keep the length, and what they end in is read back. -/
theorem overwrite_inside (content : List UInt8) (offset : Nat)
    (front back : List UInt8)
    (hinside : offset + (front ++ back).length ≤ content.length) :
    (overwrite content offset (front ++ back)).length = content.length ∧
      (overwrite content offset (front ++ back)).take (offset + front.length) =
        content.take offset ++ front := by
  have hlength : (content.take offset).length = offset := by
    rw [List.length_take]
    omega
  have hgap : offset - content.length = 0 := by omega
  have heq : overwrite content offset (front ++ back) =
      (content.take offset ++ front) ++
        (back ++ content.drop (offset + (front ++ back).length)) := by
    rw [overwrite, hgap, List.replicate_zero, List.append_nil]
    simp only [List.append_assoc]
  rw [heq]
  refine ⟨?_, ?_⟩
  · simp only [List.length_append, List.length_drop, hlength] at hinside ⊢
    omega
  · apply List.take_left'
    rw [List.length_append, hlength]

theorem overwrite_overwrite (content : List UInt8) (offset : Nat)
    (first second : List UInt8) :
    overwrite (overwrite content offset first) (offset + first.length) second =
      overwrite content offset (first ++ second) := by
  let front := content.take offset ++
    List.replicate (offset - content.length) 0 ++ first
  have hfront : offset + first.length = front.length := by
    simp only [front, List.length_append, List.length_take, List.length_replicate]
    omega
  have hfirst : overwrite content offset first =
      front ++ content.drop (offset + first.length) := rfl
  rw [hfirst, hfront, overwrite_front, ← hfront, List.drop_drop, overwrite,
    List.length_append]
  simp only [front, List.append_assoc, Nat.add_assoc]

theorem write_append (file : PosixFile) (first second : List UInt8) :
    (file.write first).write second = file.write (first ++ second) := by
  by_cases hfirst : first = []
  · rw [hfirst, write_nil, List.nil_append]
  · by_cases hsecond : second = []
    · rw [hsecond, write_nil, List.append_nil]
    · have hboth : first ++ second ≠ [] := by simp [hfirst]
      simp only [write, if_neg hfirst, if_neg hsecond, if_neg hboth,
        overwrite_overwrite, List.length_append, Nat.add_assoc]

theorem length_le_write (file : PosixFile) (bytes : List UInt8) :
    file.content.length ≤ (file.write bytes).content.length := by
  by_cases hbytes : bytes = []
  · rw [hbytes, write_nil]
  · rw [write_content hbytes, overwrite]
    simp only [List.length_append, List.length_take, List.length_replicate,
      List.length_drop]
    omega

theorem length_le_seek_write (file : PosixFile) (offset : Nat) (bytes : List UInt8) :
    file.content.length ≤ ((file.seek offset).write bytes).content.length :=
  length_le_write (file.seek offset) bytes

theorem offset_le_write (file : PosixFile) {bytes : List UInt8} (hbytes : bytes ≠ []) :
    file.offset + bytes.length ≤ (file.write bytes).content.length := by
  rw [write_content hbytes, overwrite]
  simp only [List.length_append, List.length_take, List.length_replicate]
  omega

theorem take_overwrite {content bytes : List UInt8} {offset bound : Nat}
    (hbound : bound ≤ offset) (hcontent : bound ≤ content.length) :
    (overwrite content offset bytes).take bound = content.take bound := by
  rw [overwrite, List.append_assoc, List.append_assoc]
  rw [List.take_append_of_le_length]
  · rw [List.take_take, Nat.min_eq_left hbound]
  · rw [List.length_take]
    omega

theorem take_write {file : PosixFile} (bytes : List UInt8) {bound : Nat}
    (hbound : bound ≤ file.offset) (hcontent : bound ≤ file.content.length) :
    (file.write bytes).content.take bound = file.content.take bound := by
  by_cases hbytes : bytes = []
  · rw [hbytes, write_nil]
  · rw [write_content hbytes]
    exact take_overwrite hbound hcontent

/-! A file that grows at its end, and one whose beginning is out of reach. -/

def AtEnd (file : PosixFile) : Prop := file.offset = file.content.length

def append (file : PosixFile) (bytes : List UInt8) : PosixFile where
  content := file.content ++ bytes
  offset := file.offset + bytes.length

theorem AtEnd.append {file : PosixFile} (hend : file.AtEnd) (bytes : List UInt8) :
    (file.append bytes).AtEnd := by
  rw [AtEnd, PosixFile.append, List.length_append, hend]

theorem AtEnd.write {file : PosixFile} (hend : file.AtEnd) (bytes : List UInt8) :
    file.write bytes = file.append bytes := by
  by_cases hbytes : bytes = []
  · rw [hbytes, write_nil, PosixFile.append, List.append_nil]
    rfl
  · rw [PosixFile.write, if_neg hbytes, hend, overwrite_end, PosixFile.append, hend]

/-- The header goes into the place left free in front of the payload. -/
theorem AtEnd.write_behind {file : PosixFile} (hend : file.AtEnd)
    {header : List UInt8} (hheader : header ≠ []) (payload : List UInt8) :
    (((file.seek (file.offset + header.length)).write payload).seek
      file.offset).write header =
        ⟨file.content ++ (header ++ payload), file.offset + header.length⟩ := by
  by_cases hpayload : payload = []
  · rw [hpayload, write_nil, List.append_nil]
    exact hend.write header
  · have hcontent : ((file.seek (file.offset + header.length)).write
        payload).content =
          file.content ++ List.replicate header.length 0 ++ payload := by
      rw [write_content hpayload, seek_content, seek_offset, hend, overwrite_hole]
    have hlength : header.length = (List.replicate header.length (0 : UInt8)).length :=
      (List.length_replicate ..).symm
    rw [PosixFile.write, if_neg hheader, seek_content, hcontent, seek_offset,
      show file.offset = file.content.length from hend,
      overwrite_middle _ _ _ _ hlength, List.append_assoc]

/-- A header of the same length takes the place of the one in front of the
payload. -/
theorem AtEnd.patch {file : PosixFile} (hend : file.AtEnd)
    {old header : List UInt8} (hheader : header ≠ [])
    (hlength : header.length = old.length) (payload : List UInt8) :
    (((file.write old).write payload).seek file.offset).write header =
      ⟨file.content ++ (header ++ payload), file.offset + header.length⟩ := by
  have hcontent : (file.append (old ++ payload)).content =
      file.content ++ old ++ payload := (List.append_assoc ..).symm
  rw [write_append, hend.write, PosixFile.write, if_neg hheader, seek_content,
    hcontent, seek_offset, show file.offset = file.content.length from hend,
    overwrite_middle _ _ _ _ hlength, List.append_assoc]

/-- The file starts with `front`, and the offset lies behind it. -/
structure Holds (front : List UInt8) (file : PosixFile) : Prop where
  starts : front <+: file.content
  behind : front.length ≤ file.offset

theorem Holds.seek {front : List UInt8} {file : PosixFile}
    (hholds : Holds front file) {offset : Nat} (hoffset : front.length ≤ offset) :
    Holds front (file.seek offset) :=
  ⟨hholds.starts, hoffset⟩

theorem Holds.write {front : List UInt8} {file : PosixFile}
    (hholds : Holds front file) (bytes : List UInt8) :
    Holds front (file.write bytes) := by
  have hbehind := hholds.behind
  refine ⟨?_, by rw [write_offset]; omega⟩
  have htake := take_write bytes hbehind hholds.starts.length_le
  have hfront := List.prefix_iff_eq_take.mp hholds.starts
  exact List.prefix_iff_eq_take.mpr (hfront.trans htake.symm)

theorem Holds.truncate {front : List UInt8} {file : PosixFile}
    (hholds : Holds front file) {length : Nat} (hlength : front.length ≤ length) :
    Holds front (file.truncate length) := by
  refine ⟨?_, hholds.behind⟩
  have hstarts : front <+: file.content.take length :=
    List.prefix_take_iff.mpr ⟨hholds.starts, hlength⟩
  exact hstarts.trans (List.prefix_append _ _)

/-! A file without a hole in front of its offset, wherever its end is. -/

def Solid (file : PosixFile) : Prop := file.offset ≤ file.content.length

/-- What lies in front of the offset. -/
def past (file : PosixFile) : List UInt8 := file.content.take file.offset

theorem Solid.length_past {file : PosixFile} (hsolid : file.Solid) :
    file.past.length = file.offset := by
  rw [past, List.length_take]
  exact Nat.min_eq_left hsolid

theorem Solid.holds_past {file : PosixFile} (hsolid : file.Solid) :
    file.Holds file.past :=
  ⟨List.take_prefix _ _, Nat.le_of_eq hsolid.length_past⟩

theorem Solid.write_content {file : PosixFile} (hsolid : file.Solid)
    (bytes : List UInt8) :
    (file.write bytes).content =
      file.past ++ bytes ++ file.content.drop (file.offset + bytes.length) := by
  by_cases hbytes : bytes = []
  · rw [hbytes, write_nil, List.append_nil, past]
    exact (List.take_append_drop _ _).symm
  · have hgap : file.offset - file.content.length = 0 := Nat.sub_eq_zero_of_le hsolid
    rw [PosixFile.write_content hbytes, overwrite, hgap, List.replicate_zero,
      List.append_nil]
    rfl

theorem Solid.write {file : PosixFile} (hsolid : file.Solid) (bytes : List UInt8) :
    (file.write bytes).Solid := by
  rw [Solid, write_offset, hsolid.write_content, List.length_append,
    List.length_append, hsolid.length_past]
  exact Nat.le_add_right _ _

/-- The header in front of the payload is replaced by one of the same length. -/
theorem Solid.patch {file : PosixFile} (hsolid : file.Solid) {old header : List UInt8}
    (hheader : header ≠ []) (hlength : header.length = old.length)
    (payload : List UInt8) :
    (((file.write (old ++ payload)).seek file.offset).write header).content =
      file.past ++ (header ++ payload) ++
        file.content.drop (file.offset + (old ++ payload).length) := by
  generalize hrest : file.content.drop (file.offset + (old ++ payload).length) = rest
  have hstored : (file.write (old ++ payload)).content =
      file.past ++ old ++ (payload ++ rest) := by
    rw [hsolid.write_content, hrest]
    simp only [List.append_assoc]
  rw [PosixFile.write_content hheader, seek_content, seek_offset, hstored,
    ← hsolid.length_past, overwrite_middle _ _ _ _ hlength]
  simp only [List.append_assoc]

end PosixFile

end Hitrace.Library
