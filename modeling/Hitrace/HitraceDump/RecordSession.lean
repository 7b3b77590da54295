import Hitrace.HitraceDump.CacheResults
import Hitrace.Library.Trimming
import Hitrace.Utils.RecordAgeing
import Mathlib.Algebra.Order.BigOperators.Group.List

namespace Hitrace

open Library

/-! The recordings of one session, from `trace_dump_executor.cpp`.  The loop of
`StartDumpTraceLoop` ages `loopTraceFiles_` in front of every slice; `StopDumpTraceLoop` may
read it between any two of its sections under `traceFileMutex_`. -/

namespace RecordAgeing

variable {environment : AgeingEnvironment} {fileList : List TraceFileInfo}
  {directory : List DirEntry}

theorem ageFiles_append (helper : FileAgeingChecker) (files : List TraceFileInfo) :
    (helper.ageFiles files).1 ++ (helper.ageFiles files).2 = files := by
  induction files generalizing helper with
  | nil => rfl
  | cons info rest ih =>
      by_cases hreached : helper.Reached []
      · rw [FileAgeingChecker.ageFiles_of_reached hreached, List.nil_append]
      · obtain ⟨next, hnext, _⟩ :=
          FileAgeingChecker.shouldAgeing_of_not_reached hreached info
        simp only [FileAgeingChecker.ageFiles, hnext, List.cons_append, ih]

theorem isListed_append (first second : List TraceFileInfo) (filename : List Char) :
    FileAgeing.isListed (first ++ second) filename =
      (FileAgeing.isListed first filename || FileAgeing.isListed second filename) :=
  List.any_append

theorem isListed_eq_false {filename : List Char} :
    FileAgeing.isListed fileList filename = false ↔
      ∀ info ∈ fileList, info.filename ≠ filename := by
  simp [FileAgeing.isListed, List.any_eq_false]

/-! A file whose entry is kept, and which no entry that goes names, is not removed. -/

theorem handleAgeingImpl_keeps {helper : FileAgeingChecker} {gone : List TraceFileInfo}
    {entry : DirEntry} (hentry : entry ∈ directory)
    (hgone : gone ++ (handleAgeingImpl environment helper fileList directory).1 = fileList)
    (hnot : FileAgeing.isListed gone entry.path = false)
    (hkept : FileAgeing.isListed
      (handleAgeingImpl environment helper fileList directory).1 entry.path = true) :
    entry ∈ (handleAgeingImpl environment helper fileList directory).2 := by
  have haged : gone = (helper.ageFiles fileList.reverse).2.reverse := by
    apply List.append_cancel_right (hgone.trans ?_)
    rw [handleAgeingImpl, ← List.reverse_append, ageFiles_append, List.reverse_reverse]
  have hnotAged : FileAgeing.isListed (helper.ageFiles fileList.reverse).2 entry.path =
      false := by
    rw [haged, FileAgeing.isListed, List.any_reverse] at hnot
    exact hnot
  rw [handleAgeingImpl] at hkept ⊢
  refine List.mem_filter.mpr ⟨List.mem_filter.mpr ⟨hentry, ?_⟩, ?_⟩
  · rw [hnotAged, Bool.false_and, Bool.not_false]
  · rw [hkept, Bool.not_true, Bool.and_false, Bool.false_and, Bool.not_false]

theorem ageIf_keeps {active : Bool} {helper : FileAgeingChecker}
    {files : List TraceFileInfo × List DirEntry} {gone : List TraceFileInfo}
    {entry : DirEntry} (hentry : entry ∈ files.2)
    (hgone : gone ++ (ageIf environment active helper files).1 = files.1)
    (hnot : FileAgeing.isListed gone entry.path = false)
    (hkept : FileAgeing.isListed (ageIf environment active helper files).1 entry.path =
      true) :
    entry ∈ (ageIf environment active helper files).2 := by
  cases active with
  | false => exact hentry
  | true => exact handleAgeingImpl_keeps hentry hgone hnot hkept

theorem handleAgeing_keeps {setTotalSize : Int} {gone : List TraceFileInfo}
    {entry : DirEntry} (hentry : entry ∈ directory)
    (hgone : gone ++ (handleAgeing environment setTotalSize fileList directory).1 = fileList)
    (hnot : FileAgeing.isListed gone entry.path = false)
    (hkept : FileAgeing.isListed
      (handleAgeing environment setTotalSize fileList directory).1 entry.path = true) :
    entry ∈ (handleAgeing environment setTotalSize fileList directory).2 := by
  rw [handleAgeing_eq] at hgone hkept ⊢
  generalize hnumbered : ageIf environment _ _ (fileList, directory) = numbered
    at hgone hkept ⊢
  obtain ⟨second, hsecond⟩ := @ageIf_suffix environment
    (decide (setTotalSize ≠ 0) || FileAgeing.createFileChecker environment .fileSize)
    (.ofSize (if setTotalSize ≠ 0 then setTotalSize else environment.param.fileSizeKbLimit))
    numbered
  obtain ⟨first, hfirst⟩ := @ageIf_suffix environment
    (FileAgeing.createFileChecker environment .fileNumber)
    (.ofNumber environment.param.fileNumberLimit) (fileList, directory)
  rw [hnumbered] at hfirst
  have hboth : gone = first ++ second := by
    apply List.append_cancel_right (hgone.trans ?_)
    rw [List.append_assoc, hsecond, hfirst]
  rw [hboth, isListed_append, Bool.or_eq_false_iff] at hnot
  have hnumberedKept : FileAgeing.isListed numbered.1 entry.path = true := by
    rw [← hsecond, isListed_append, hkept, Bool.or_true]
  refine ageIf_keeps ?_ hsecond hnot.2 hkept
  rw [← hnumbered] at hfirst hnumberedKept ⊢
  exact ageIf_keeps hentry hfirst hnot.1 hnumberedKept

theorem ageIf_listed {active : Bool} {helper : FileAgeingChecker}
    {files : List TraceFileInfo × List DirEntry} (hactive : active = true) {entry : DirEntry}
    (hentry : entry ∈ (ageIf environment active helper files).2)
    (hrecord : entry.hasType .traceRecording = true) :
    FileAgeing.isListed (ageIf environment active helper files).1 entry.path = true ∨
      environment.removable entry.path = false := by
  subst hactive
  exact handleAgeingImpl_othersRemoved helper entry hentry hrecord

/-- The ageing looks at the files at all. -/
def Checked (environment : AgeingEnvironment) (setTotalSize : Int) : Prop :=
  setTotalSize ≠ 0 ∨ ∃ checkType, FileAgeing.createFileChecker environment checkType = true

theorem handleAgeing_listed {setTotalSize : Int} (hchecked : Checked environment setTotalSize)
    {entry : DirEntry}
    (hentry : entry ∈ (handleAgeing environment setTotalSize fileList directory).2)
    (hrecord : entry.hasType .traceRecording = true) :
    FileAgeing.isListed (handleAgeing environment setTotalSize fileList directory).1
        entry.path = true ∨
      environment.removable entry.path = false := by
  rw [handleAgeing_eq] at hentry ⊢
  cases hsized : decide (setTotalSize ≠ 0) ||
      FileAgeing.createFileChecker environment .fileSize with
  | true =>
      rw [hsized] at hentry
      exact ageIf_listed rfl hentry hrecord
  | false =>
      rw [hsized] at hentry
      rw [Bool.or_eq_false_iff, decide_eq_false_iff_not, not_not] at hsized
      refine @ageIf_listed environment (FileAgeing.createFileChecker environment .fileNumber)
        (.ofNumber environment.param.fileNumberLimit) (fileList, directory) ?_ entry hentry
        hrecord
      rcases hchecked with htotal | ⟨checkType, hcheck⟩
      · exact absurd hsized.1 htotal
      · cases checkType with
        | fileNumber => exact hcheck
        | fileSize =>
            rw [hsized.2] at hcheck
            cases hcheck

/-! The vector is trimmed to its newest files, whatever the directory holds. -/

theorem ageIf_fst (active : Bool) (helper : FileAgeingChecker)
    (files : List TraceFileInfo × List DirEntry) :
    (ageIf environment active helper files).1 =
      (ageIf environment active helper (files.1, [])).1 := by
  cases active <;> rfl

theorem handleAgeing_fst (setTotalSize : Int) :
    (handleAgeing environment setTotalSize fileList directory).1 =
      (handleAgeing environment setTotalSize fileList []).1 := by
  rw [handleAgeing_eq, handleAgeing_eq, ageIf_fst, @ageIf_fst environment _ _ (fileList, directory)]
  exact (ageIf_fst _ _ _).symm

theorem reached_append (helper : FileAgeingChecker) (front : List TraceFileInfo)
    {added : List TraceFileInfo} (hadded : ∀ info ∈ added, 0 ≤ info.fileSize)
    (hreached : helper.Reached front) : helper.Reached (added ++ front) := by
  cases helper with
  | fileNumberChecker currentCount maxCount =>
      simp only [FileAgeingChecker.Reached, List.length_append] at hreached ⊢
      omega
  | fileSizeChecker currentSizeKb maxSizeKb currentFileNumber =>
      have hnonneg : 0 ≤ (added.map fun info => info.fileSize.tdiv bytePerKb).sum := by
        apply List.sum_nonneg
        intro size hsize
        obtain ⟨info, hinfo, rfl⟩ := List.mem_map.mp hsize
        exact Int.tdiv_nonneg (hadded info hinfo) (by decide)
      simp only [FileAgeingChecker.Reached, List.length_append, List.map_append,
        List.sum_append] at hreached ⊢
      omega

theorem trims_ageIf (active : Bool) (helper : FileAgeingChecker) :
    Trims (fun info : TraceFileInfo => 0 ≤ info.fileSize) fun files =>
      (ageIf environment active helper (files, [])).1 := by
  cases active with
  | false => exact Trims.same _
  | true =>
      exact Trims.of_firstPrefix (reached_append helper) fun _ => handleAgeingImpl_first helper

theorem trims_handleAgeing (setTotalSize : Int) :
    Trims (fun info : TraceFileInfo => 0 ≤ info.fileSize) fun files =>
      (handleAgeing environment setTotalSize files []).1 := by
  have hboth := (@trims_ageIf environment
    (FileAgeing.createFileChecker environment .fileNumber)
    (.ofNumber environment.param.fileNumberLimit)).comp (@trims_ageIf environment
    (decide (setTotalSize ≠ 0) || FileAgeing.createFileChecker environment .fileSize)
    (.ofSize (if setTotalSize ≠ 0 then setTotalSize else environment.param.fileSizeKbLimit)))
  convert hboth using 2 with files
  rw [handleAgeing_eq, ageIf_fst]

/-! The newest file stays, and there are no more files than the limit. -/

theorem ageIf_length_pos {active : Bool} {helper : FileAgeingChecker}
    (hpos : active = true → 0 < (handleAgeingImpl environment helper fileList
      directory).1.length) (hfiles : 0 < fileList.length) :
    0 < (ageIf environment active helper (fileList, directory)).1.length := by
  cases active with
  | false => exact hfiles
  | true => exact hpos rfl

theorem handleAgeing_length_pos (setTotalSize : Int)
    (hsizes : ∀ info ∈ fileList, 0 ≤ info.fileSize) (hfiles : 0 < fileList.length) :
    0 < (handleAgeing environment setTotalSize fileList directory).1.length := by
  rw [handleAgeing_eq]
  have hnumbered : 0 < (ageIf environment (FileAgeing.createFileChecker environment .fileNumber)
      (.ofNumber environment.param.fileNumberLimit) (fileList, directory)).1.length := by
    refine ageIf_length_pos ?_ hfiles
    intro hactive
    rw [FileAgeing.createFileChecker] at hactive
    split at hactive
    · cases hactive
    · have hlimit := of_decide_eq_true hactive
      rw [length_by_number]
      omega
  have hsuffix := @ageIf_suffix environment (FileAgeing.createFileChecker environment .fileNumber)
    (.ofNumber environment.param.fileNumberLimit) (fileList, directory)
  generalize ageIf environment (FileAgeing.createFileChecker environment .fileNumber)
    (.ofNumber environment.param.fileNumberLimit) (fileList, directory) = numbered
    at hnumbered hsuffix ⊢
  refine ageIf_length_pos ?_ hnumbered
  intro _
  have hcount := @countBySize_length environment numbered.1 numbered.2
    (if setTotalSize ≠ 0 then setTotalSize else environment.param.fileSizeKbLimit)
    (fun info hinfo => hsizes info (hsuffix.subset hinfo))
  have hlow := hcount.low
  omega

theorem handleAgeing_length_le (setTotalSize : Int)
    (hactive : FileAgeing.createFileChecker environment .fileNumber = true) :
    (handleAgeing environment setTotalSize fileList directory).1.length ≤
      environment.param.fileNumberLimit.toNat := by
  rw [handleAgeing_eq]
  refine (ageIf_suffix _ _ _).length_le.trans ?_
  rw [hactive, ageIf, if_pos rfl, length_by_number]
  exact Nat.min_le_right _ _

end RecordAgeing

/-- An entry of `loopTraceFiles_`. -/
structure LoopTraceFile extends TraceFileInfo where
  isNewFile : Bool
deriving Repr, DecidableEq

/-- A file that a slice is written to, in the trace directory or elsewhere. -/
inductive SliceFile
  | inDirectory (entry : DirEntry)
  | elsewhere (filename : List Char) (size : Nat)
deriving Repr, DecidableEq

namespace SliceFile

def info : SliceFile → TraceFileInfo
  | .inDirectory entry => { filename := entry.path, fileSize := entry.size }
  | .elsewhere filename size => { filename, fileSize := size }

def storeIn (files : CacheFiles.FileSystem) : SliceFile → CacheFiles.FileSystem
  | .inDirectory entry => files.store entry
  | .elsewhere filename _ =>
      { files with
        elsewhere := files.elsewhere.filter (fun other => other ≠ filename) ++ [filename] }

theorem size_nonneg (file : SliceFile) : 0 ≤ file.info.fileSize := by
  cases file with
  | inDirectory entry => exact Int.natCast_nonneg entry.size
  | elsewhere filename size => exact Int.natCast_nonneg size

end SliceFile

/-- Where the loop stands: in front of an ageing, in front of a slice, or behind its end. -/
inductive RecordSession.Turn
  | ageing
  | dumping
  | over
deriving Repr, DecidableEq

/-- `earlier` are the recordings that the loop has found, `recorded` all the slices it has
listed, of which the last ageing has seen so many. -/
structure RecordSession where
  files : CacheFiles.FileSystem
  loopTraceFiles : List LoopTraceFile
  turn : RecordSession.Turn
  earlier : List TraceFileInfo
  recorded : List TraceFileInfo := []
  aged : Nat := 0
deriving Repr, DecidableEq

namespace RecordSession

/-- A call of `DoDumpTraceLoop` succeeds or fails, and may leave a file then too. -/
inductive Label
  | age
  | finish
  | save (file : SliceFile)
  | fail (left : Option SliceFile)
deriving Repr, DecidableEq

def infos (session : RecordSession) : List TraceFileInfo :=
  session.loopTraceFiles.map LoopTraceFile.toTraceFileInfo

/-- `StopDumpTraceLoop` behind its wait, with `FilterLoopTraceResult`. -/
def stopDumpTraceLoop (session : RecordSession) : List (List Char) :=
  (session.loopTraceFiles.filter LoopTraceFile.isNewFile).map fun file => file.filename

section Loop

variable (environment : AgeingEnvironment) (totalSize : Int) (isLimited : Bool)

/-- The ageing keeps the last entries, each with its flag. -/
def handleAgeing (session : RecordSession) : RecordSession :=
  let kept := RecordAgeing.handleAgeing environment totalSize session.infos
    session.files.directory
  let count := session.loopTraceFiles.length - kept.1.length
  { session with
    files :=
      { directory := kept.2
        elsewhere := session.files.elsewhere.filter fun other =>
          !(FileAgeing.isListed (session.infos.take count) other &&
            environment.removable other) }
    loopTraceFiles := session.loopTraceFiles.drop count
    aged := session.recorded.length }

/-- `GetTraceFilesInDir` for recordings. -/
def filesInDir (directory : List DirEntry) : List TraceFileInfo :=
  ((directory.filter (DirEntry.hasType .traceRecording)).mergeSort fun left right =>
    decide (left.ctime ≤ right.ctime)).map fun entry => (SliceFile.inDirectory entry).info

/-- The loop up to its first slice or its first turn. -/
def start (files : CacheFiles.FileSystem) : RecordSession :=
  handleAgeing environment totalSize
    { files
      loopTraceFiles := (filesInDir files.directory).map fun info => ⟨info, false⟩
      turn := if isLimited then .ageing else .dumping
      earlier := filesInDir files.directory }

def step (session : RecordSession) : Label → Option RecordSession
  | .age =>
      if session.turn = .ageing then
        some { handleAgeing environment totalSize session with turn := .dumping }
      else none
  | .finish => if session.turn = .ageing then some { session with turn := .over } else none
  | .save file =>
      if session.turn = .dumping then
        some
          { session with
            files := file.storeIn session.files
            loopTraceFiles := session.loopTraceFiles ++ [⟨file.info, true⟩]
            recorded := session.recorded ++ [file.info]
            turn := if isLimited then .ageing else .over }
      else none
  | .fail left =>
      if session.turn = .dumping then
        some
          { session with
            files := left.elim session.files (SliceFile.storeIn session.files)
            turn := .over }
      else none

def machine : Machine RecordSession Label where
  init := fun session => ∃ files, session = start environment totalSize isLimited files
  step := step environment totalSize isLimited

end Loop

/-- Everything that the session has found or recorded. -/
def marked (session : RecordSession) : List LoopTraceFile :=
  (session.earlier.map fun info => ⟨info, false⟩) ++
    session.recorded.map fun info => ⟨info, true⟩

/-- What the loop keeps. -/
structure Sound (environment : AgeingEnvironment) (totalSize : Int)
    (session : RecordSession) : Prop where
  flags : session.loopTraceFiles <:+ session.marked
  sizes : ∀ info ∈ session.earlier ++ session.recorded, 0 ≤ info.fileSize
  aged_le : session.aged ≤ session.recorded.length
  recent : session.recorded.length ≤ session.aged + 1
  dumping : session.turn = .dumping → session.aged = session.recorded.length
  listed : session.infos =
    (RecordAgeing.handleAgeing environment totalSize
      (session.earlier ++ session.recorded.take session.aged) []).1 ++
      session.recorded.drop session.aged
  apart : session.loopTraceFiles.Pairwise fun earlier later =>
    later.isNewFile = true → earlier.filename ≠ later.filename
  present : ∀ file ∈ session.loopTraceFiles, file.isNewFile = true →
    session.files.fileExists file.filename = true
  tidy : RecordAgeing.Checked environment totalSize → session.turn ≠ .over →
    ∀ entry ∈ session.files.directory, entry.hasType .traceRecording = true →
      FileAgeing.isListed session.infos entry.path = true ∨
        environment.removable entry.path = false

/-- A slice has a name that is not listed. -/
def Fresh (session : RecordSession) : Label → Prop
  | .save file => FileAgeing.isListed session.infos file.info.filename = false
  | .age | .finish | .fail _ => True

instance : DecidableRel Fresh := fun session label => by
  cases label <;> unfold Fresh <;> infer_instance

section Ageing

variable {environment : AgeingEnvironment} {totalSize : Int} {session : RecordSession}

theorem infos_length (session : RecordSession) :
    session.infos.length = session.loopTraceFiles.length :=
  List.length_map _

theorem kept_suffix :
    (RecordAgeing.handleAgeing environment totalSize session.infos
      session.files.directory).1 <:+ session.infos := by
  rw [RecordAgeing.handleAgeing_fst]
  exact (RecordAgeing.trims_handleAgeing totalSize).suffix session.infos

theorem infos_handleAgeing :
    (session.handleAgeing environment totalSize).infos =
      (RecordAgeing.handleAgeing environment totalSize session.infos
        session.files.directory).1 := by
  have hkept := List.suffix_iff_eq_drop.mp (@kept_suffix environment totalSize session)
  rw [infos_length] at hkept
  rw [hkept, infos, infos, handleAgeing, List.map_drop]
  rfl

theorem handleAgeing_suffix :
    (session.handleAgeing environment totalSize).loopTraceFiles <:+ session.loopTraceFiles :=
  List.drop_suffix _ _

theorem fileExists_handleAgeing
    (hapart : session.loopTraceFiles.Pairwise fun earlier later =>
      later.isNewFile = true → earlier.filename ≠ later.filename)
    {file : LoopTraceFile}
    (hfile : file ∈ (session.handleAgeing environment totalSize).loopTraceFiles)
    (hnew : file.isNewFile = true)
    (hexists : session.files.fileExists file.filename = true) :
    (session.handleAgeing environment totalSize).files.fileExists file.filename = true := by
  have hinfos := @infos_handleAgeing environment totalSize session
  rw [handleAgeing] at hfile hinfos ⊢
  generalize hkept : RecordAgeing.handleAgeing environment totalSize session.infos
    session.files.directory = kept at hfile hinfos ⊢
  generalize session.loopTraceFiles.length - kept.1.length = count at hfile hinfos ⊢
  have hgone : session.infos.take count ++ kept.1 = session.infos := by
    rw [← hinfos, infos, infos, List.map_drop, List.take_append_drop]
  have hnot : FileAgeing.isListed (session.infos.take count) file.filename = false := by
    rw [RecordAgeing.isListed_eq_false]
    intro info hinfo
    rw [infos, ← List.map_take] at hinfo
    obtain ⟨older, holder, rfl⟩ := List.mem_map.mp hinfo
    rw [← List.take_append_drop count session.loopTraceFiles] at hapart
    exact (List.pairwise_append.mp hapart).2.2 older holder file hfile hnew
  rcases CacheFiles.FileSystem.fileExists_iff.mp hexists with
    ⟨entry, hentry, hpath⟩ | helsewhere
  · refine CacheFiles.FileSystem.fileExists_iff.mpr (Or.inl ⟨entry, ?_, hpath⟩)
    show entry ∈ kept.2
    rw [← hkept] at hgone ⊢
    refine RecordAgeing.handleAgeing_keeps hentry hgone (by rw [hpath]; exact hnot) ?_
    rw [hkept, ← hinfos, FileAgeing.isListed, List.any_eq_true]
    exact ⟨file.toTraceFileInfo, List.mem_map_of_mem hfile, by rw [hpath, beq_self_eq_true]⟩
  · refine CacheFiles.FileSystem.fileExists_iff.mpr (Or.inr ?_)
    refine List.mem_filter.mpr ⟨helsewhere, ?_⟩
    rw [hnot, Bool.false_and, Bool.not_false]

theorem sound_handleAgeing (turn : Turn) (hflags : session.loopTraceFiles <:+ session.marked)
    (hsizes : ∀ info ∈ session.earlier ++ session.recorded, 0 ≤ info.fileSize)
    (hlisted : (RecordAgeing.handleAgeing environment totalSize session.infos []).1 =
      (RecordAgeing.handleAgeing environment totalSize
        (session.earlier ++ session.recorded) []).1)
    (hapart : session.loopTraceFiles.Pairwise fun earlier later =>
      later.isNewFile = true → earlier.filename ≠ later.filename)
    (hpresent : ∀ file ∈ session.loopTraceFiles, file.isNewFile = true →
      session.files.fileExists file.filename = true) :
    Sound environment totalSize
      { session.handleAgeing environment totalSize with turn := turn } where
  flags := handleAgeing_suffix.trans hflags
  sizes := hsizes
  aged_le := le_refl _
  recent := Nat.le_succ _
  dumping := fun _ => rfl
  listed := by
    show (session.handleAgeing environment totalSize).infos =
      (RecordAgeing.handleAgeing environment totalSize
        (session.earlier ++ session.recorded.take session.recorded.length) []).1 ++
        session.recorded.drop session.recorded.length
    rw [infos_handleAgeing, RecordAgeing.handleAgeing_fst, hlisted, List.take_length,
      List.drop_length, List.append_nil]
  apart := hapart.sublist handleAgeing_suffix.sublist
  present := by
    intro file hfile hnew
    exact fileExists_handleAgeing hapart hfile hnew
      (hpresent file (handleAgeing_suffix.subset hfile) hnew)
  tidy := by
    intro hchecked _ entry hentry hrecord
    have hlisted := RecordAgeing.handleAgeing_listed hchecked hentry hrecord
    rw [← infos_handleAgeing] at hlisted
    exact hlisted

theorem sound_start (isLimited : Bool) (files : CacheFiles.FileSystem) :
    Sound environment totalSize (start environment totalSize isLimited files) := by
  rw [start]
  refine sound_handleAgeing _ ?_ ?_ ?_ ?_ ?_
  · rw [marked, List.map_nil, List.append_nil]
  · intro info hinfo
    rw [List.append_nil] at hinfo
    obtain ⟨entry, _, rfl⟩ := List.mem_map.mp hinfo
    exact Int.natCast_nonneg entry.size
  · rw [infos, List.map_map, List.append_nil]
    exact congrArg (fun files =>
      (RecordAgeing.handleAgeing environment totalSize files []).1) (List.map_id _)
  · apply List.pairwise_map.mpr
    apply List.pairwise_of_forall
    intro _ _ hnew
    cases hnew
  · intro file hfile hnew
    obtain ⟨info, _, rfl⟩ := List.mem_map.mp hfile
    cases hnew

end Ageing

section Runs

variable {environment : AgeingEnvironment} {totalSize : Int} {isLimited : Bool}
  {session next : RecordSession}

theorem Sound.age (hsound : Sound environment totalSize session) :
    Sound environment totalSize
      { session.handleAgeing environment totalSize with turn := .dumping } := by
  refine sound_handleAgeing _ hsound.flags hsound.sizes ?_ hsound.apart hsound.present
  rw [hsound.listed]
  have hlater : ∀ info ∈ session.recorded.drop session.aged, 0 ≤ info.fileSize := by
    intro info hinfo
    exact hsound.sizes info (List.mem_append_right _ (List.mem_of_mem_drop hinfo))
  have honce := (@RecordAgeing.trims_handleAgeing environment totalSize).once
    (session.earlier ++ session.recorded.take session.aged) hlater
  rw [List.append_assoc, List.take_append_drop] at honce
  exact honce

theorem fileExists_storeIn_self (files : CacheFiles.FileSystem) (file : SliceFile) :
    (file.storeIn files).fileExists file.info.filename = true := by
  cases file with
  | inDirectory entry => exact CacheFiles.FileSystem.fileExists_store_self files entry
  | elsewhere filename size =>
      refine CacheFiles.FileSystem.fileExists_iff.mpr (Or.inr ?_)
      exact List.mem_append_right _ (List.mem_singleton_self filename)

theorem fileExists_storeIn {files : CacheFiles.FileSystem} {path : List Char}
    (file : SliceFile) (hexists : files.fileExists path = true) :
    (file.storeIn files).fileExists path = true := by
  cases file with
  | inDirectory entry => exact CacheFiles.FileSystem.fileExists_store entry hexists
  | elsewhere filename size =>
      rcases CacheFiles.FileSystem.fileExists_iff.mp hexists with hdirectory | helsewhere
      · exact CacheFiles.FileSystem.fileExists_iff.mpr (Or.inl hdirectory)
      · refine CacheFiles.FileSystem.fileExists_iff.mpr (Or.inr ?_)
        by_cases hpath : path = filename
        · rw [hpath]
          exact List.mem_append_right _ (List.mem_singleton_self filename)
        · apply List.mem_append_left
          exact List.mem_filter.mpr ⟨helsewhere, decide_eq_true hpath⟩

theorem directory_storeIn {files : CacheFiles.FileSystem} {file : SliceFile}
    {entry : DirEntry} (hentry : entry ∈ (file.storeIn files).directory) :
    entry ∈ files.directory ∨ entry.path = file.info.filename := by
  cases file with
  | inDirectory stored =>
      rcases List.mem_append.mp hentry with hother | hstored
      · exact Or.inl (List.mem_filter.mp hother).1
      · rw [List.mem_singleton.mp hstored]
        exact Or.inr rfl
  | elsewhere filename size => exact Or.inl hentry

theorem Sound.save (hsound : Sound environment totalSize session) {file : SliceFile}
    (hturn : session.turn = .dumping)
    (hfresh : FileAgeing.isListed session.infos file.info.filename = false) {turn : Turn}
    (hafter : turn ≠ .dumping) :
    Sound environment totalSize
      { session with
        files := file.storeIn session.files
        loopTraceFiles := session.loopTraceFiles ++ [⟨file.info, true⟩]
        recorded := session.recorded ++ [file.info]
        turn } := by
  have haged := hsound.dumping hturn
  exact
    { flags := by
        show session.loopTraceFiles ++ [(⟨file.info, true⟩ : LoopTraceFile)] <:+
          session.earlier.map _ ++ (session.recorded ++ [file.info]).map _
        rw [List.map_append, ← List.append_assoc]
        exact List.suffix_append_self_iff.mpr hsound.flags
      sizes := by
        intro info hinfo
        rw [← List.append_assoc] at hinfo
        rcases List.mem_append.mp hinfo with hold | hnew
        · exact hsound.sizes info hold
        · rw [List.mem_singleton.mp hnew]
          exact file.size_nonneg
      aged_le := by
        rw [List.length_append]
        exact Nat.le_add_right_of_le hsound.aged_le
      recent := by
        rw [List.length_append, List.length_singleton, haged]
      dumping := fun hagain => absurd hagain hafter
      listed := by
        show (session.loopTraceFiles ++ [(⟨file.info, true⟩ : LoopTraceFile)]).map
          LoopTraceFile.toTraceFileInfo = _
        rw [List.map_append, haged, List.take_left, List.drop_left]
        have hlisted := hsound.listed
        rw [haged, List.take_length, List.drop_length, List.append_nil] at hlisted
        rw [← hlisted]
        rfl
      apart := by
        refine List.pairwise_append.mpr ⟨hsound.apart, List.pairwise_singleton _ _, ?_⟩
        intro older holder newer hnewer _
        rw [List.mem_singleton.mp hnewer]
        exact RecordAgeing.isListed_eq_false.mp hfresh _ (List.mem_map_of_mem holder)
      present := by
        intro listed hlisted hnew
        rcases List.mem_append.mp hlisted with hold | hlast
        · exact fileExists_storeIn file (hsound.present listed hold hnew)
        · rw [List.mem_singleton.mp hlast]
          exact fileExists_storeIn_self session.files file
      tidy := by
        intro hchecked _ entry hentry hrecord
        show FileAgeing.isListed
          ((session.loopTraceFiles ++ [(⟨file.info, true⟩ : LoopTraceFile)]).map
            LoopTraceFile.toTraceFileInfo) entry.path = true ∨ _
        rw [List.map_append, RecordAgeing.isListed_append, Bool.or_eq_true]
        rcases directory_storeIn hentry with hold | hpath
        · have hlisted := hsound.tidy hchecked (by rw [hturn]; decide) entry hold hrecord
          exact hlisted.imp_left Or.inl
        · refine Or.inl (Or.inr ?_)
          rw [hpath]
          simp [FileAgeing.isListed] }

theorem Sound.finish (hsound : Sound environment totalSize session) :
    Sound environment totalSize { session with turn := .over } :=
  { hsound with
    dumping := nofun
    tidy := fun _ hturn => absurd rfl hturn }

theorem Sound.fail (hsound : Sound environment totalSize session) (left : Option SliceFile) :
    Sound environment totalSize
      { session with
        files := left.elim session.files (SliceFile.storeIn session.files)
        turn := .over } :=
  { hsound with
    dumping := nofun
    present := by
      intro file hfile hnew
      have hexists := hsound.present file hfile hnew
      cases left with
      | none => exact hexists
      | some stored => exact fileExists_storeIn stored hexists
    tidy := fun _ hturn => absurd rfl hturn }

theorem sound_step {label : Label} (hsound : Sound environment totalSize session)
    (hfresh : Fresh session label)
    (hstep : step environment totalSize isLimited session label = some next) :
    Sound environment totalSize next := by
  cases label with
  | age =>
      obtain ⟨_, hnext⟩ := Option.ite_none_right_eq_some.mp hstep
      cases hnext
      exact hsound.age
  | finish =>
      obtain ⟨_, hnext⟩ := Option.ite_none_right_eq_some.mp hstep
      cases hnext
      exact hsound.finish
  | save file =>
      obtain ⟨hturn, hnext⟩ := Option.ite_none_right_eq_some.mp hstep
      cases hnext
      refine hsound.save hturn hfresh ?_
      cases isLimited with
      | false => decide
      | true => decide
  | fail left =>
      obtain ⟨_, hnext⟩ := Option.ite_none_right_eq_some.mp hstep
      cases hnext
      exact hsound.fail left

/-! What `RecordTraceOff` returns. -/

theorem filter_new_marked (session : RecordSession) (count : Nat) :
    (session.marked.drop count).filter LoopTraceFile.isNewFile =
      (session.recorded.drop (count - session.earlier.length)).map fun info =>
        ⟨info, true⟩ := by
  rw [marked, List.drop_append, List.filter_append, List.length_map, ← List.map_drop,
    ← List.map_drop, List.filter_map, List.filter_map]
  simp [Function.comp_def]

theorem Sound.returned (hsound : Sound environment totalSize session) :
    session.stopDumpTraceLoop =
      (session.recorded.drop (session.recorded.length - session.loopTraceFiles.length)).map
        fun info => info.filename := by
  have hdrop := List.suffix_iff_eq_drop.mp hsound.flags
  have hlength : session.marked.length = session.earlier.length + session.recorded.length := by
    rw [marked, List.length_append, List.length_map, List.length_map]
  rw [stopDumpTraceLoop]
  generalize hcount : session.loopTraceFiles.length = count at hdrop ⊢
  rw [hdrop, filter_new_marked, List.map_map, hlength]
  have hindex : session.earlier.length + session.recorded.length - count -
      session.earlier.length = session.recorded.length - count := by
    omega
  rw [hindex]
  rfl

theorem Sound.nonempty (hsound : Sound environment totalSize session)
    (hrecorded : session.recorded ≠ []) : 0 < session.loopTraceFiles.length := by
  have hlength := congrArg List.length hsound.listed
  rw [infos_length, List.length_append] at hlength
  have hpos := List.length_pos_iff.mpr hrecorded
  by_cases haged : session.aged < session.recorded.length
  · rw [List.length_drop] at hlength
    omega
  · have hkept := @RecordAgeing.handleAgeing_length_pos environment
      (session.earlier ++ session.recorded.take session.aged) [] totalSize
      (fun info hinfo => hsound.sizes info (by
        rcases List.mem_append.mp hinfo with hold | hnew
        · exact List.mem_append_left _ hold
        · exact List.mem_append_right _ (List.mem_of_mem_take hnew)))
      (by rw [List.length_append, List.length_take]; omega)
    omega

theorem mem_drop_of_getLast? {recorded : List TraceFileInfo} {info : TraceFileInfo}
    (hlast : recorded.getLast? = some info) {count : Nat} (hcount : count < recorded.length) :
    info ∈ recorded.drop count := by
  obtain ⟨front, rfl⟩ := List.getLast?_eq_some_iff.mp hlast
  rw [List.length_append, List.length_singleton] at hcount
  rw [List.drop_append_of_le_length (Nat.lt_succ_iff.mp hcount)]
  exact List.mem_append_right _ (List.mem_singleton_self info)

/-- The newest recordings of the session are there and are returned, the last one always.
The vector is what one ageing of all recordings leaves, with at most one slice behind it. -/
structure KeepsNewest (environment : AgeingEnvironment) (totalSize : Int)
    (session : RecordSession) : Prop where
  returned : session.stopDumpTraceLoop =
    (session.recorded.drop (session.recorded.length - session.loopTraceFiles.length)).map
      fun info => info.filename
  last : ∀ info ∈ session.recorded.getLast?, info.filename ∈ session.stopDumpTraceLoop
  present : ∀ path ∈ session.stopDumpTraceLoop, session.files.fileExists path = true
  listed : ∃ aged, session.recorded.length ≤ aged + 1 ∧
    session.infos =
      (RecordAgeing.handleAgeing environment totalSize
        (session.earlier ++ session.recorded.take aged) []).1 ++ session.recorded.drop aged
  few : FileAgeing.createFileChecker environment .fileNumber = true →
    session.loopTraceFiles.length ≤ environment.param.fileNumberLimit.toNat + 1
  tidy : RecordAgeing.Checked environment totalSize → session.turn ≠ .over →
    ∀ entry ∈ session.files.directory, entry.hasType .traceRecording = true →
      FileAgeing.isListed session.infos entry.path = true ∨
        environment.removable entry.path = false

theorem record_session_keeps_newest {start : RecordSession} {labels : List Label}
    (hstart : (machine environment totalSize isLimited).init start)
    (hfresh : (machine environment totalSize isLimited).Obeys Fresh start labels)
    (hrun : (machine environment totalSize isLimited).run start labels = some session) :
    KeepsNewest environment totalSize session := by
  obtain ⟨files, rfl⟩ := hstart
  have hsound : Sound environment totalSize session :=
    (machine environment totalSize isLimited).invariant_of_obeys
      (fun _ _ _ hsound hallowed hstep => sound_step hsound hallowed hstep)
      (sound_start isLimited files) hfresh hrun
  exact
    { returned := hsound.returned
      last := by
        intro info hlast
        have hrecorded : session.recorded ≠ [] := by
          intro hnil
          rw [hnil] at hlast
          cases hlast
        have hpos := hsound.nonempty hrecorded
        have hlength := List.length_pos_iff.mpr hrecorded
        rw [hsound.returned]
        exact List.mem_map_of_mem (mem_drop_of_getLast? hlast (by omega))
      present := by
        intro path hpath
        obtain ⟨file, hfile, rfl⟩ := List.mem_map.mp hpath
        exact hsound.present file (List.mem_filter.mp hfile).1 (List.mem_filter.mp hfile).2
      listed := ⟨session.aged, hsound.recent, hsound.listed⟩
      few := by
        intro hactive
        have hlength := congrArg List.length hsound.listed
        have hkept := @RecordAgeing.handleAgeing_length_le environment
          (session.earlier ++ session.recorded.take session.aged) [] totalSize hactive
        have hrecent := hsound.recent
        rw [infos_length, List.length_append, List.length_drop] at hlength
        omega
      tidy := hsound.tidy }

/-- Two recordings are to stay, and there is one from before. -/
def keepsTwo : AgeingEnvironment where
  param := { fileNumberLimit := 2 }

def sampleFiles : CacheFiles.FileSystem where
  directory := [RecordAgeing.recordEntry 'a']

def sampleLabels : List Label :=
  ['b', 'c', 'd'].flatMap fun char =>
    [.age, .save (.inDirectory (RecordAgeing.recordEntry char))]

def sampleStart : RecordSession where
  files := sampleFiles
  loopTraceFiles := [⟨RecordAgeing.recordInfo (RecordAgeing.recordEntry 'a'), false⟩]
  turn := .ageing
  earlier := [RecordAgeing.recordInfo (RecordAgeing.recordEntry 'a')]

theorem start_sampleFiles : start keepsTwo 0 true sampleFiles = sampleStart := by
  have hfiles : filesInDir sampleFiles.directory = sampleStart.earlier := by
    simp [filesInDir, sampleFiles, sampleStart, RecordAgeing.recordInfo, SliceFile.info,
      DirEntry.hasType, RecordAgeing.recordEntry, tracePrefixMap]
  rw [start, hfiles]
  decide

theorem record_session_keeps_newest_three :
    ∃ session, (machine keepsTwo 0 true).run (start keepsTwo 0 true sampleFiles) sampleLabels =
        some session ∧
      session.stopDumpTraceLoop =
        ['b', 'c', 'd'].map (fun char => (RecordAgeing.recordEntry char).path) ∧
      KeepsNewest keepsTwo 0 session := by
  have hrun : ∃ session, (machine keepsTwo 0 true).run sampleStart sampleLabels = some session ∧
      session.stopDumpTraceLoop =
        ['b', 'c', 'd'].map (fun char => (RecordAgeing.recordEntry char).path) :=
    ⟨_, rfl, by decide⟩
  obtain ⟨session, hrun, hreturned⟩ := hrun
  rw [start_sampleFiles]
  exact ⟨session, hrun, hreturned,
    record_session_keeps_newest ⟨sampleFiles, start_sampleFiles.symm⟩ (by decide) hrun⟩

end Runs

end RecordSession

end Hitrace
