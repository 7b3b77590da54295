import Hitrace.Define
import Hitrace.Utils.TraceFileInfo
import Mathlib.Data.List.Perm.Basic

namespace Hitrace

/-! The trace directory and the vector of its files, from
`utils/trace_file_utils.cpp`. -/

def traceFileDefaultDir : List Char := "/data/log/hitrace/".toList

/-- An entry of the directory; `regular` is `d_type == DT_REG`. -/
structure DirEntry where
  name : List Char
  regular : Bool
  ctime : Int
  size : Nat
deriving Repr, DecidableEq

def DirEntry.path (entry : DirEntry) : List Char :=
  traceFileDefaultDir ++ entry.name

/-- The test of the two directory walks. -/
def DirEntry.isTrace (entry : DirEntry) : Bool :=
  entry.regular && traceSnapshotPrefix.isPrefixOf entry.name

def traceRecordingPrefix : List Char := "record_trace_".toList

def traceCachePrefix : List Char := "cache_trace_".toList

def tracePrefixMap : TraceDumpType → List Char
  | .traceSnapshot => traceSnapshotPrefix
  | .traceRecording => traceRecordingPrefix
  | .traceCache => traceCachePrefix
  | .traceAsyncRead => traceSnapshotPrefix
  | .traceAsyncWrite => traceSnapshotPrefix

/-- The same test for any type of trace. -/
def DirEntry.hasType (traceType : TraceDumpType) (entry : DirEntry) : Bool :=
  entry.regular && (tracePrefixMap traceType).isPrefixOf entry.name

/-! `sscanf` of a file name. -/

def isSpace (char : Char) : Bool :=
  char == ' ' || ('\t'.toNat ≤ char.toNat && char.toNat ≤ '\r'.toNat)

def digitsValue (digits : List Char) : Nat :=
  digits.foldl (fun value digit => 10 * value + (digit.toNat - '0'.toNat)) 0

/-- A decimal number of at most `width` characters, sign included, behind white
space: its sign, its value and the rest. -/
def scanNumber (width : Nat) (text : List Char) : Option (Bool × Nat × List Char) :=
  let text := text.dropWhile isSpace
  let (negative, signed, text) :=
    match text with
    | '-' :: rest => (true, 1, rest)
    | '+' :: rest => (false, 1, rest)
    | rest => (false, 0, rest)
  let digits := (text.take (width - signed)).takeWhile Char.isDigit
  if digits.isEmpty then none
  else some (negative, digitsValue digits, text.drop digits.length)

/-- `%<width>d`. -/
def scanInt (width : Nat) (text : List Char) : Option (Int × List Char) :=
  (scanNumber width text).map fun (negative, value, rest) =>
    (if negative then -(value : Int) else value, rest)

/-- `%u`; a value past the largest of 64 bits becomes that one. -/
def scanUnsigned (text : List Char) : Option (UInt32 × List Char) :=
  (scanNumber text.length text).map fun (negative, value, rest) =>
    let value : UInt32 := UInt32.ofNat (min value (2 ^ 64 - 1))
    (if negative then -value else value, rest)

def scanChar (char : Char) : List Char → Option (List Char)
  | [] => none
  | head :: rest => if head = char then some rest else none

/-- `%*[^-]`, which takes at least one character. -/
def scanUntilDash (text : List Char) : Option (List Char) :=
  match text with
  | [] => none
  | head :: _ => if head = '-' then none else some (text.dropWhile (· ≠ '-'))

/-- The fields `mktime` reads, as the name gives them. -/
structure BrokenTime where
  year : Int
  mon : Int
  mday : Int
  hour : Int
  min : Int
  sec : Int
deriving Repr, DecidableEq

/-- The format `trace_%4d%2d%2d%2d%2d%2d@%*[^-]-%u.sys`, when all seven fields are
assigned. -/
def scanTraceName (text : List Char) : Option (BrokenTime × UInt32) := do
  let (year, text) ← scanInt 4 (text.drop traceSnapshotPrefix.length)
  let (mon, text) ← scanInt 2 text
  let (mday, text) ← scanInt 2 text
  let (hour, text) ← scanInt 2 text
  let (min, text) ← scanInt 2 text
  let (sec, text) ← scanInt 2 text
  let text ← scanChar '@' text
  let text ← scanUntilDash text
  let text ← scanChar '-' text
  let (number, _) ← scanUnsigned text
  return (⟨year - 1900, mon - 1, mday, hour, min, sec⟩, number)

section Vector

variable (mktime : BrokenTime → Option Int)

/-- `mktime` is the one of the local time zone; it has no result where the source
gets -1. -/
def getStartAndEndTraceUtTimeFromFileName (fileName : List Char) :
    Option (UInt64 × UInt64) := do
  let index ← findWord traceSnapshotPrefix fileName
  let (timeInfo, number) ← scanTraceName (fileName.drop index)
  let timestamp ← mktime timeInfo
  let traceStartTime := UInt64.ofInt timestamp * sToMs
  return (traceStartTime, traceStartTime + number.toUInt64)

def getTraceFilesInDir (directory : List DirEntry) : List DirEntry :=
  (directory.filter DirEntry.isTrace).mergeSort fun left right =>
    decide (left.ctime ≤ right.ctime)

def traceFileInfo (entry : DirEntry) : Option TraceFileInfo :=
  (getStartAndEndTraceUtTimeFromFileName mktime entry.path).map
    fun (traceStartTime, traceEndTime) =>
      { filename := entry.path
        traceStartTime
        traceEndTime
        fileSize := entry.size }

/-- The vector afterwards. -/
def refreshTraceVec (directory : List DirEntry) : List TraceFileInfo :=
  (getTraceFilesInDir directory).filterMap (traceFileInfo mktime)

/-- A regular file whose name starts as a snapshot's and can be parsed. -/
def DirEntry.isSnapshot (entry : DirEntry) : Bool :=
  entry.isTrace && (traceFileInfo mktime entry).isSome

def snapshots (directory : List DirEntry) : List DirEntry :=
  directory.filter (DirEntry.isSnapshot mktime)

/-- The vector lists the snapshot files of the directory, each with its size. -/
def ListsSnapshots (vec : List TraceFileInfo) (directory : List DirEntry) : Prop :=
  (vec.map fun info => (info.filename, info.fileSize)).Perm
    ((snapshots mktime directory).map fun entry => (entry.path, (entry.size : Int)))

theorem traceFileInfo_fields {entry : DirEntry} {info : TraceFileInfo}
    (hinfo : traceFileInfo mktime entry = some info) :
    (info.filename, info.fileSize) = (entry.path, (entry.size : Int)) := by
  obtain ⟨_, _, rfl⟩ := Option.map_eq_some_iff.mp hinfo
  rfl

theorem map_filterMap_traceFileInfo (entries : List DirEntry) :
    ((entries.filterMap (traceFileInfo mktime)).map fun info =>
        (info.filename, info.fileSize)) =
      (entries.filter fun entry => (traceFileInfo mktime entry).isSome).map
        fun entry => (entry.path, (entry.size : Int)) := by
  induction entries with
  | nil => rfl
  | cons entry rest ih =>
      cases hinfo : traceFileInfo mktime entry with
      | none => simp [hinfo, ih]
      | some info => simp [hinfo, ih, traceFileInfo_fields mktime hinfo]

/-- A refreshed vector lists its directory. -/
theorem listsSnapshots_refresh (directory : List DirEntry) :
    ListsSnapshots mktime (refreshTraceVec mktime directory) directory := by
  have hsorted : (getTraceFilesInDir directory).Perm
      (directory.filter DirEntry.isTrace) := List.mergeSort_perm _ _
  rw [ListsSnapshots, refreshTraceVec, map_filterMap_traceFileInfo]
  apply List.Perm.map
  have hsnapshots : snapshots mktime directory =
      (directory.filter DirEntry.isTrace).filter fun entry =>
        (traceFileInfo mktime entry).isSome := by
    rw [snapshots, List.filter_filter]
    apply List.filter_congr
    intro entry _
    rw [DirEntry.isSnapshot, Bool.and_comm]
  rw [hsnapshots]
  exact hsorted.filter _

end Vector

end Hitrace
