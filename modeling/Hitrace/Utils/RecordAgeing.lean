import Hitrace.Library.Eviction
import Hitrace.Utils.FileAgeing

namespace Hitrace

open Library

/-! The ageing of recordings, from `utils/file_ageing_utils.cpp`.  The files are looked at
from the newest to the oldest, by a checker that counts what it has let pass. -/

def minFileNumber : Int := 2

inductive FileAgeingChecker
  | fileNumberChecker (currentCount maxCount : Int)
  | fileSizeChecker (currentSizeKb maxSizeKb currentFileNumber : Int)
deriving Repr, DecidableEq

namespace FileAgeingChecker

def ofNumber (count : Int) : FileAgeingChecker :=
  .fileNumberChecker 0 count

def ofSize (sizeKb : Int) : FileAgeingChecker :=
  .fileSizeChecker 0 sizeKb 0

/-- The division of the source rounds towards zero. -/
def shouldAgeing (info : TraceFileInfo) : FileAgeingChecker → Bool × FileAgeingChecker
  | .fileNumberChecker currentCount maxCount =>
      if currentCount ≥ maxCount then (true, .fileNumberChecker currentCount maxCount)
      else (false, .fileNumberChecker (currentCount + 1) maxCount)
  | .fileSizeChecker currentSizeKb maxSizeKb currentFileNumber =>
      if currentFileNumber < minFileNumber then
        (false, .fileSizeChecker (currentSizeKb + info.fileSize.tdiv bytePerKb) maxSizeKb
          (currentFileNumber + 1))
      else if currentSizeKb ≥ maxSizeKb then
        (true, .fileSizeChecker currentSizeKb maxSizeKb currentFileNumber)
      else
        (false, .fileSizeChecker (currentSizeKb + info.fileSize.tdiv bytePerKb) maxSizeKb
          currentFileNumber)

/-- The loop of `HandleAgeingImpl`, with the files that stay and those to be removed. -/
def ageFiles : FileAgeingChecker → List TraceFileInfo →
    List TraceFileInfo × List TraceFileInfo
  | _, [] => ([], [])
  | helper, info :: rest =>
      match helper.shouldAgeing info with
      | (true, helper) =>
          let (result, aged) := ageFiles helper rest
          (result, info :: aged)
      | (false, helper) =>
          let (result, aged) := ageFiles helper rest
          (info :: result, aged)

/-- With `front` let pass, every further file is old enough to go. -/
def Reached : FileAgeingChecker → List TraceFileInfo → Prop
  | .fileNumberChecker currentCount maxCount, front =>
      maxCount ≤ currentCount + front.length
  | .fileSizeChecker currentSizeKb maxSizeKb currentFileNumber, front =>
      minFileNumber ≤ currentFileNumber + front.length ∧
        maxSizeKb ≤ currentSizeKb +
          (front.map fun info => info.fileSize.tdiv bytePerKb).sum

theorem shouldAgeing_of_reached {helper : FileAgeingChecker} (hreached : helper.Reached [])
    (info : TraceFileInfo) : helper.shouldAgeing info = (true, helper) := by
  cases helper with
  | fileNumberChecker currentCount maxCount =>
      simp only [Reached, List.length_nil] at hreached
      rw [shouldAgeing, if_pos (by omega)]
  | fileSizeChecker currentSizeKb maxSizeKb currentFileNumber =>
      simp only [Reached, List.length_nil, List.map_nil, List.sum_nil] at hreached
      rw [shouldAgeing, if_neg (by omega), if_pos (by omega)]

theorem shouldAgeing_of_not_reached {helper : FileAgeingChecker}
    (hnot : ¬ helper.Reached []) (info : TraceFileInfo) :
    ∃ next, helper.shouldAgeing info = (false, next) ∧
      ∀ front, next.Reached front ↔ helper.Reached (info :: front) := by
  cases helper with
  | fileNumberChecker currentCount maxCount =>
      simp only [Reached, List.length_nil] at hnot
      refine ⟨.fileNumberChecker (currentCount + 1) maxCount, ?_, ?_⟩
      · rw [shouldAgeing, if_neg (by omega)]
      · intro front
        simp only [Reached, List.length_cons]
        omega
  | fileSizeChecker currentSizeKb maxSizeKb currentFileNumber =>
      simp only [Reached, List.length_nil, List.map_nil, List.sum_nil] at hnot
      by_cases hfew : currentFileNumber < minFileNumber
      · refine ⟨_, by rw [shouldAgeing, if_pos hfew], ?_⟩
        intro front
        simp only [Reached, List.length_cons, List.map_cons, List.sum_cons]
        omega
      · refine ⟨_, by rw [shouldAgeing, if_neg hfew, if_neg (by omega)], ?_⟩
        intro front
        simp only [Reached, List.length_cons, List.map_cons, List.sum_cons]
        omega

/-- A checker that has let enough pass lets nothing else pass. -/
theorem ageFiles_of_reached {helper : FileAgeingChecker} (hreached : helper.Reached [])
    (files : List TraceFileInfo) : helper.ageFiles files = ([], files) := by
  induction files with
  | nil => rfl
  | cons info rest ih => simp only [ageFiles, shouldAgeing_of_reached hreached, ih]

theorem ageFiles_first (helper : FileAgeingChecker) (files : List TraceFileInfo) :
    FirstPrefix helper.Reached files (helper.ageFiles files).1 := by
  induction files generalizing helper with
  | nil => exact FirstPrefix.of_nil helper.Reached
  | cons info rest ih =>
      by_cases hreached : helper.Reached []
      · rw [ageFiles_of_reached hreached]
        exact FirstPrefix.nil hreached _
      · obtain ⟨next, hnext, hfront⟩ := shouldAgeing_of_not_reached hreached info
        have hkept : (helper.ageFiles (info :: rest)).1 = info :: (next.ageFiles rest).1 := by
          simp only [ageFiles, hnext]
        have hsame : next.Reached = fun front => helper.Reached (info :: front) := by
          funext front
          exact propext (hfront front)
        have hrest := ih next
        rw [hsame] at hrest
        rw [hkept]
        exact hrest.cons hreached

end FileAgeingChecker

namespace RecordAgeing

variable (environment : AgeingEnvironment)

/-- `HandleFileNotInVec` for recordings: the directory afterwards. -/
def handleFileNotInVec (fileList : List TraceFileInfo) (directory : List DirEntry) :
    List DirEntry :=
  directory.filter fun entry =>
    !(entry.hasType .traceRecording && !FileAgeing.isListed fileList entry.path &&
      environment.removable entry.path)

/-- The vector and the directory afterwards. -/
def handleAgeingImpl (helper : FileAgeingChecker) (fileList : List TraceFileInfo)
    (directory : List DirEntry) : List TraceFileInfo × List DirEntry :=
  let (result, aged) := helper.ageFiles fileList.reverse
  let directory := directory.filter fun entry =>
    !(FileAgeing.isListed aged entry.path && environment.removable entry.path)
  let fileList := result.reverse
  (fileList, handleFileNotInVec environment fileList directory)

/-- `HandleAgeing` of recordings, whose parameters `environment` holds. -/
def handleAgeing (setTotalSize : Int) (fileList : List TraceFileInfo)
    (directory : List DirEntry) : List TraceFileInfo × List DirEntry :=
  let (fileList, directory) :=
    if FileAgeing.createFileChecker environment .fileNumber then
      handleAgeingImpl environment (.ofNumber environment.param.fileNumberLimit) fileList
        directory
    else (fileList, directory)
  if setTotalSize ≠ 0 then
    handleAgeingImpl environment (.ofSize setTotalSize) fileList directory
  else if FileAgeing.createFileChecker environment .fileSize then
    handleAgeingImpl environment (.ofSize environment.param.fileSizeKbLimit) fileList
      directory
  else (fileList, directory)

/-- The kilobytes of the newest files, each rounded down. -/
def newestKb (fileList : List TraceFileInfo) (count : Nat) : Int :=
  ((fileList.reverse.take count).map fun info => info.fileSize / bytePerKb).sum

/-- The least number of newest files, from two on, that make up `sizeKb`; all files if
there is none. -/
structure CountBySize (sizeKb : Int) (fileList : List TraceFileInfo) (count : Nat) : Prop where
  low : min 2 fileList.length ≤ count
  high : count ≤ fileList.length
  reached : count = fileList.length ∨ sizeKb ≤ newestKb fileList count
  least : ∀ smaller, min 2 fileList.length ≤ smaller → smaller < count →
    newestKb fileList smaller < sizeKb

/-- The newest files within the number limit, all files without one. -/
def newestByNumber (fileList : List TraceFileInfo) : List TraceFileInfo :=
  if FileAgeing.createFileChecker environment .fileNumber then
    fileList.drop
      (fileList.length - min fileList.length environment.param.fileNumberLimit.toNat)
  else fileList

/-- The size of the caller goes before the configured one. -/
def sizeInForce (setTotalSize : Int) : Option Int :=
  if setTotalSize ≠ 0 then some setTotalSize
  else if FileAgeing.createFileChecker environment .fileSize then
    some environment.param.fileSizeKbLimit
  else none

/-- `kept` are the newest of the files within the number limit, by the size in force. -/
def KeepsNewest (setTotalSize : Int) (fileList kept : List TraceFileInfo) : Prop :=
  match sizeInForce environment setTotalSize with
  | none => kept = newestByNumber environment fileList
  | some sizeKb =>
      ∃ count, CountBySize sizeKb (newestByNumber environment fileList) count ∧
        kept = (newestByNumber environment fileList).drop
          ((newestByNumber environment fileList).length - count)

/-- In the directory no recording stays that is not listed and can be removed. -/
def OthersRemoved (files : List TraceFileInfo × List DirEntry) : Prop :=
  ∀ entry ∈ files.2, entry.hasType .traceRecording = true →
    FileAgeing.isListed files.1 entry.path = true ∨ environment.removable entry.path = false

variable {environment} {fileList : List TraceFileInfo} {directory : List DirEntry}

theorem handleAgeingImpl_first (helper : FileAgeingChecker) :
    FirstPrefix helper.Reached fileList.reverse
      (handleAgeingImpl environment helper fileList directory).1.reverse := by
  have hfirst := helper.ageFiles_first fileList.reverse
  show FirstPrefix helper.Reached fileList.reverse
    (helper.ageFiles fileList.reverse).1.reverse.reverse
  rw [List.reverse_reverse]
  exact hfirst

theorem handleAgeingImpl_suffix (helper : FileAgeingChecker) :
    (handleAgeingImpl environment helper fileList directory).1 <:+ fileList :=
  List.reverse_prefix.mp (handleAgeingImpl_first helper).front

theorem handleAgeingImpl_eq_drop (helper : FileAgeingChecker) :
    (handleAgeingImpl environment helper fileList directory).1 =
      fileList.drop (fileList.length -
        (handleAgeingImpl environment helper fileList directory).1.length) :=
  List.suffix_iff_eq_drop.mp (handleAgeingImpl_suffix helper)

theorem length_by_number (maxCount : Int) :
    (handleAgeingImpl environment (.ofNumber maxCount) fileList directory).1.length =
      min fileList.length maxCount.toNat := by
  have hfirst := @handleAgeingImpl_first environment fileList directory (.ofNumber maxCount)
  generalize (handleAgeingImpl environment (.ofNumber maxCount) fileList directory).1 = kept
    at hfirst ⊢
  have hle := hfirst.front.length_le
  rw [List.length_reverse, List.length_reverse] at hle
  have hlow : kept.length ≤ maxCount.toNat := by
    by_contra hmore
    have hlt : maxCount.toNat < kept.reverse.length := by
      rw [List.length_reverse]
      omega
    have hnot := hfirst.not_reached_take hlt
    simp only [FileAgeingChecker.ofNumber, FileAgeingChecker.Reached, List.length_take,
      List.length_reverse] at hnot
    omega
  rcases hfirst.stops with hreached | hall
  · simp only [FileAgeingChecker.ofNumber, FileAgeingChecker.Reached,
      List.length_reverse] at hreached
    omega
  · have hlength := congrArg List.length hall
    rw [List.length_reverse, List.length_reverse] at hlength
    omega

/-- For sizes that are not negative, rounding towards zero is rounding down. -/
theorem kb_eq {files : List TraceFileInfo} (hsizes : ∀ info ∈ files, 0 ≤ info.fileSize) :
    (files.map fun info => info.fileSize.tdiv bytePerKb).sum =
      (files.map fun info => info.fileSize / bytePerKb).sum := by
  congr 1
  apply List.map_congr_left
  intro info hinfo
  exact Int.tdiv_eq_ediv_of_nonneg (hsizes info hinfo)

theorem countBySize_length (sizeKb : Int) (hsizes : ∀ info ∈ fileList, 0 ≤ info.fileSize) :
    CountBySize sizeKb fileList
      (handleAgeingImpl environment (.ofSize sizeKb) fileList directory).1.length := by
  have hfirst := @handleAgeingImpl_first environment fileList directory (.ofSize sizeKb)
  generalize (handleAgeingImpl environment (.ofSize sizeKb) fileList directory).1 = kept
    at hfirst
  have hle := hfirst.front.length_le
  rw [List.length_reverse, List.length_reverse] at hle
  have hkb : ∀ count, ((fileList.reverse.take count).map fun info =>
      info.fileSize.tdiv bytePerKb).sum = newestKb fileList count := by
    intro count
    apply kb_eq
    intro info hinfo
    exact hsizes info (List.mem_reverse.mp (List.mem_of_mem_take hinfo))
  have hkept : kept.reverse = fileList.reverse.take kept.length := by
    have htake := List.prefix_iff_eq_take.mp hfirst.front
    rw [List.length_reverse] at htake
    exact htake
  have hstops : kept.length = fileList.length ∨
      2 ≤ kept.length ∧ sizeKb ≤ newestKb fileList kept.length := by
    rcases hfirst.stops with hreached | hall
    · rw [hkept] at hreached
      simp only [FileAgeingChecker.ofSize, FileAgeingChecker.Reached, hkb, List.length_take,
        List.length_reverse, minFileNumber] at hreached
      omega
    · have hlength := congrArg List.length hall
      rw [List.length_reverse, List.length_reverse] at hlength
      exact Or.inl hlength
  exact
    { low := by omega
      high := hle
      reached := by omega
      least := by
        intro smaller hlow hlt
        rw [← List.length_reverse] at hlt
        have hnot := hfirst.not_reached_take hlt
        rw [List.length_reverse] at hlt
        simp only [FileAgeingChecker.ofSize, FileAgeingChecker.Reached, hkb, List.length_take,
          List.length_reverse, minFileNumber] at hnot
        omega }

/-! The two checks of `HandleAgeing`. -/

/-- A check that is made if there is a checker for it. -/
def ageIf (environment : AgeingEnvironment) (active : Bool) (helper : FileAgeingChecker)
    (files : List TraceFileInfo × List DirEntry) : List TraceFileInfo × List DirEntry :=
  if active then handleAgeingImpl environment helper files.1 files.2 else files

theorem handleAgeing_eq (setTotalSize : Int) :
    handleAgeing environment setTotalSize fileList directory =
      ageIf environment
        (decide (setTotalSize ≠ 0) || FileAgeing.createFileChecker environment .fileSize)
        (.ofSize (if setTotalSize ≠ 0 then setTotalSize
          else environment.param.fileSizeKbLimit))
        (ageIf environment (FileAgeing.createFileChecker environment .fileNumber)
          (.ofNumber environment.param.fileNumberLimit) (fileList, directory)) := by
  rw [handleAgeing, ageIf, ageIf]
  by_cases htotal : setTotalSize ≠ 0
  · simp only [htotal, ne_eq, not_false_eq_true, if_true, decide_true, Bool.true_or]
  · simp only [htotal, if_false, decide_false, Bool.false_or]

theorem ageIf_suffix (active : Bool) (helper : FileAgeingChecker)
    (files : List TraceFileInfo × List DirEntry) :
    (ageIf environment active helper files).1 <:+ files.1 := by
  cases active with
  | false => exact List.suffix_rfl
  | true => exact handleAgeingImpl_suffix helper

/-- What a check has kept, or the newest files of it, the same check keeps. -/
theorem ageIf_again {active : Bool} {helper : FileAgeingChecker}
    {files other : List TraceFileInfo × List DirEntry}
    (hother : other.1 <:+ (ageIf environment active helper files).1) :
    (ageIf environment active helper other).1 = other.1 := by
  cases active with
  | false => rfl
  | true =>
      have hkept := (@handleAgeingImpl_first environment files.1 files.2 helper).of_front
        (List.reverse_prefix.mpr hother)
      exact List.reverse_inj.mp ((handleAgeingImpl_first helper).unique hkept)

theorem handleAgeing_twice (setTotalSize : Int) :
    (handleAgeing environment setTotalSize
        (handleAgeing environment setTotalSize fileList directory).1
        (handleAgeing environment setTotalSize fileList directory).2).1 =
      (handleAgeing environment setTotalSize fileList directory).1 := by
  rw [handleAgeing_eq, handleAgeing_eq]
  generalize hsize : FileAgeingChecker.ofSize (if setTotalSize ≠ 0 then setTotalSize
    else environment.param.fileSizeKbLimit) = sizeChecker
  generalize hnumbered : ageIf environment _ _ (fileList, directory) = numbered
  generalize honce : ageIf environment _ sizeChecker numbered = once
  have hsuffix : once.1 <:+ numbered.1 := by
    rw [← honce]
    exact ageIf_suffix _ _ _
  have hnumber : (ageIf environment (FileAgeing.createFileChecker environment .fileNumber)
      (.ofNumber environment.param.fileNumberLimit) (once.1, once.2)).1 = once.1 := by
    apply ageIf_again
    rw [hnumbered]
    exact hsuffix
  calc (ageIf environment _ sizeChecker (ageIf environment _ _ (once.1, once.2))).1
      = (ageIf environment (FileAgeing.createFileChecker environment .fileNumber)
          (.ofNumber environment.param.fileNumberLimit) (once.1, once.2)).1 := by
        apply ageIf_again
        rw [honce]
        exact ⟨[], hnumber⟩
    _ = once.1 := hnumber

theorem handleAgeingImpl_othersRemoved (helper : FileAgeingChecker) :
    OthersRemoved environment (handleAgeingImpl environment helper fileList directory) := by
  intro entry hentry hrecord
  have hkept := (List.mem_filter.mp hentry).2
  rw [hrecord, Bool.true_and, Bool.not_eq_true', Bool.and_eq_false_iff,
    Bool.not_eq_false'] at hkept
  exact hkept

/-! Both checks together. -/

theorem handleAgeingImpl_number (maxCount : Int) :
    (handleAgeingImpl environment (.ofNumber maxCount) fileList directory).1 =
      fileList.drop (fileList.length - min fileList.length maxCount.toNat) := by
  rw [← length_by_number]
  exact handleAgeingImpl_eq_drop _

theorem ageIf_number :
    (ageIf environment (FileAgeing.createFileChecker environment .fileNumber)
      (.ofNumber environment.param.fileNumberLimit) (fileList, directory)).1 =
        newestByNumber environment fileList := by
  rw [ageIf, newestByNumber]
  split
  · exact handleAgeingImpl_number _
  · rfl

theorem mem_of_mem_newestByNumber {info : TraceFileInfo}
    (hinfo : info ∈ newestByNumber environment fileList) : info ∈ fileList := by
  rw [newestByNumber] at hinfo
  split at hinfo
  · exact List.mem_of_mem_drop hinfo
  · exact hinfo

theorem handleAgeing_cases (setTotalSize : Int) :
    sizeInForce environment setTotalSize = none ∧
        handleAgeing environment setTotalSize fileList directory =
          ageIf environment (FileAgeing.createFileChecker environment .fileNumber)
            (.ofNumber environment.param.fileNumberLimit) (fileList, directory) ∨
      ∃ sizeKb directory', sizeInForce environment setTotalSize = some sizeKb ∧
        handleAgeing environment setTotalSize fileList directory =
          handleAgeingImpl environment (.ofSize sizeKb)
            (newestByNumber environment fileList) directory' := by
  rw [handleAgeing_eq, sizeInForce]
  generalize hnumbered : ageIf environment _ _ (fileList, directory) = numbered
  have hnewest : numbered.1 = newestByNumber environment fileList := by
    rw [← hnumbered]
    exact ageIf_number
  by_cases htotal : setTotalSize ≠ 0
  · refine .inr ⟨setTotalSize, numbered.2, if_pos htotal, ?_⟩
    rw [if_pos htotal, decide_eq_true htotal, Bool.true_or, ageIf, if_pos rfl, hnewest]
  · rw [if_neg htotal, if_neg htotal, decide_eq_false htotal, Bool.false_or]
    cases hsize : FileAgeing.createFileChecker environment .fileSize with
    | true => exact .inr ⟨_, numbered.2, rfl, by rw [ageIf, if_pos rfl, hnewest]⟩
    | false => exact .inl ⟨rfl, rfl⟩

theorem handleAgeing_keepsNewest (hsizes : ∀ info ∈ fileList, 0 ≤ info.fileSize)
    (setTotalSize : Int) :
    KeepsNewest environment setTotalSize fileList
      (handleAgeing environment setTotalSize fileList directory).1 := by
  rw [KeepsNewest]
  rcases @handleAgeing_cases environment fileList directory setTotalSize with
    ⟨hsize, hfiles⟩ | ⟨sizeKb, other, hsize, hfiles⟩
  · rw [hsize, hfiles]
    exact ageIf_number
  · rw [hsize, hfiles]
    refine ⟨_, countBySize_length sizeKb ?_, handleAgeingImpl_eq_drop _⟩
    intro info hinfo
    exact hsizes info (mem_of_mem_newestByNumber hinfo)

theorem handleAgeing_othersRemoved {setTotalSize : Int}
    (hforce : FileAgeing.createFileChecker environment .fileNumber = true ∨
      sizeInForce environment setTotalSize ≠ none) :
    OthersRemoved environment
      (handleAgeing environment setTotalSize fileList directory) := by
  rcases @handleAgeing_cases environment fileList directory setTotalSize with
    ⟨hnone, hfiles⟩ | ⟨sizeKb, other, _, hfiles⟩
  · rw [hfiles, ageIf, if_pos (hforce.resolve_right fun hsome => hsome hnone)]
    exact handleAgeingImpl_othersRemoved _
  · rw [hfiles]
    exact handleAgeingImpl_othersRemoved _

/-- The newest recordings stay in the vector, as many as the checker lets pass, and in the
directory no other recording stays that can be removed.  `HandleAgeing` keeps the newest by
number, of these the newest by the size in force, and changes nothing the second time. -/
theorem record_ageing :
    (∀ maxCount, (handleAgeingImpl environment (.ofNumber maxCount) fileList directory).1 =
        fileList.drop (fileList.length - min fileList.length maxCount.toNat)) ∧
      ((∀ info ∈ fileList, 0 ≤ info.fileSize) →
        (∀ sizeKb, ∃ count, CountBySize sizeKb fileList count ∧
          (handleAgeingImpl environment (.ofSize sizeKb) fileList directory).1 =
            fileList.drop (fileList.length - count)) ∧
          ∀ setTotalSize, KeepsNewest environment setTotalSize fileList
            (handleAgeing environment setTotalSize fileList directory).1) ∧
      (∀ helper, OthersRemoved environment
        (handleAgeingImpl environment helper fileList directory)) ∧
      (∀ setTotalSize, FileAgeing.createFileChecker environment .fileNumber = true ∨
        sizeInForce environment setTotalSize ≠ none →
          OthersRemoved environment
            (handleAgeing environment setTotalSize fileList directory)) ∧
      ∀ setTotalSize,
        (handleAgeing environment setTotalSize
            (handleAgeing environment setTotalSize fileList directory).1
            (handleAgeing environment setTotalSize fileList directory).2).1 =
          (handleAgeing environment setTotalSize fileList directory).1 := by
  refine ⟨handleAgeingImpl_number, ?_, handleAgeingImpl_othersRemoved,
    fun _ => handleAgeing_othersRemoved, handleAgeing_twice⟩
  intro hsizes
  refine ⟨fun sizeKb => ?_, handleAgeing_keepsNewest hsizes⟩
  exact ⟨_, countBySize_length sizeKb hsizes, handleAgeingImpl_eq_drop _⟩

/-- A recording of half a megabyte. -/
def recordEntry (char : Char) : DirEntry where
  name := traceRecordingPrefix ++ [char]
  regular := true
  ctime := 0
  size := 524288

def recordInfo (entry : DirEntry) : TraceFileInfo where
  filename := entry.path
  fileSize := entry.size

/-- The files `a` to `e`, and `f` that is not listed. -/
def recordLimited : AgeingEnvironment where
  param := { fileNumberLimit := 4, fileSizeKbLimit := 512 }

def recordFiles : List TraceFileInfo :=
  ['a', 'b', 'c', 'd', 'e'].map fun char => recordInfo (recordEntry char)

/-- Of five files the number check drops one and the size of the caller, which is not the
configured one, a second one. -/
theorem record_ageing_five :
    handleAgeing recordLimited 1300 recordFiles
        (['a', 'b', 'c', 'd', 'e', 'f'].map recordEntry) =
      (['c', 'd', 'e'].map fun char => recordInfo (recordEntry char),
        ['c', 'd', 'e'].map recordEntry) ∧
    newestByNumber recordLimited recordFiles =
      (['b', 'c', 'd', 'e'].map fun char => recordInfo (recordEntry char)) ∧
    sizeInForce recordLimited 1300 = some 1300 ∧
    KeepsNewest recordLimited 1300 recordFiles
      (handleAgeing recordLimited 1300 recordFiles
        (['a', 'b', 'c', 'd', 'e', 'f'].map recordEntry)).1 :=
  ⟨by decide, by decide, by decide,
    ((@record_ageing recordLimited recordFiles
      (['a', 'b', 'c', 'd', 'e', 'f'].map recordEntry)).2.1 (by decide)).2 1300⟩

end RecordAgeing

end Hitrace
