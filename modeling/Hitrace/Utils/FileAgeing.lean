import Hitrace.Utils.TraceDirectory
import Mathlib.Algebra.Ring.Int.Defs
import Mathlib.Algebra.BigOperators.Group.List.Basic
import Mathlib.Algebra.Order.BigOperators.Group.List

namespace Hitrace

/-! The ageing of snapshot files, from `utils/file_ageing_utils.cpp`. -/

def bytePerKb : Int := 1024

def defaultLinkNum : Nat := 16

structure AgeingParam where
  rootEnable : Bool := true
  fileNumberLimit : Int := 0
  fileSizeKbLimit : Int := 0
deriving Repr, DecidableEq

inductive CheckType
  | fileNumber
  | fileSize
  deriving DecidableEq, Repr

/-- What the ageing finds: `linked` holds of a file that has the attribute
`ATTR_NAME_LINK`, `removable` of one that can be opened, locked and removed, and
`elsewhere` of the files outside of the trace directory. -/
structure AgeingEnvironment where
  param : AgeingParam
  isRootVersion : Bool := false
  linked : List Char → Bool := fun _ => false
  removable : List Char → Bool := fun _ => true
  elsewhere : List Char → Bool := fun _ => false

namespace FileAgeing

variable (environment : AgeingEnvironment)

/-- The limit of a check, in files or in bytes. -/
def limit : CheckType → Int
  | .fileNumber => environment.param.fileNumberLimit
  | .fileSize => environment.param.fileSizeKbLimit * bytePerKb

/-- Whether there is a checker for snapshots. -/
def createFileChecker (checkType : CheckType) : Bool :=
  if environment.isRootVersion && !environment.param.rootEnable then false
  else
    match checkType with
    | .fileNumber => decide (environment.param.fileNumberLimit > 0)
    | .fileSize => decide (environment.param.fileSizeKbLimit > 0)

def removeFile (directory : List DirEntry) (filename : List Char) : Bool :=
  environment.removable filename &&
    (directory.any (fun entry => entry.path == filename) ||
      environment.elsewhere filename)

def isListed (fileList : List TraceFileInfo) (filename : List Char) : Bool :=
  fileList.any fun info => info.filename == filename

/-- The directory afterwards. -/
def handleFileNotInVec (fileList : List TraceFileInfo) (directory : List DirEntry) :
    List DirEntry :=
  directory.filter fun entry =>
    !(entry.isTrace && !isListed fileList entry.path &&
      environment.removable entry.path)

def weight (checkType : CheckType) (info : TraceFileInfo) : Int :=
  match checkType with
  | .fileNumber => 1
  | .fileSize => info.fileSize

/-- The files to remove.  Linked files wait in `linkFiles`, and the oldest of
them is taken when it holds more than `DEFAULT_LINK_NUM`. -/
def handleFileNeedAgeing (needDelete : Int) (checkType : CheckType) :
    List TraceFileInfo → Int → List (List Char) → List TraceFileInfo →
      List (List Char)
  | [], _, needRemoveFiles, _ => needRemoveFiles
  | info :: rest, currCount, needRemoveFiles, linkFiles =>
      if currCount ≥ needDelete then needRemoveFiles
      else if !environment.linked info.filename then
        handleFileNeedAgeing needDelete checkType rest
          (currCount + weight checkType info)
          (needRemoveFiles ++ [info.filename]) linkFiles
      else if linkFiles.length + 1 ≤ defaultLinkNum then
        handleFileNeedAgeing needDelete checkType rest currCount needRemoveFiles
          (linkFiles ++ [info])
      else
        let linkfileInfo := linkFiles.headD info
        handleFileNeedAgeing needDelete checkType rest
          (currCount + weight checkType linkfileInfo)
          (needRemoveFiles ++ [linkfileInfo.filename])
          ((linkFiles ++ [info]).tail)

def calculateFilesize : List TraceFileInfo → Nat → Int
  | [], _ => 0
  | info :: rest, currLinkNum =>
      if !environment.linked info.filename then
        info.fileSize + calculateFilesize rest currLinkNum
      else if currLinkNum + 1 > defaultLinkNum then
        info.fileSize + calculateFilesize rest (currLinkNum + 1)
      else calculateFilesize rest (currLinkNum + 1)

def total (checkType : CheckType) (fileList : List TraceFileInfo) : Int :=
  match checkType with
  | .fileNumber => fileList.length
  | .fileSize => calculateFilesize environment fileList 0

/-- The vector and the directory afterwards. -/
def handleAgeingSnapShort (checkType : CheckType) (fileList : List TraceFileInfo)
    (directory : List DirEntry) : List TraceFileInfo × List DirEntry :=
  let needDelete := total environment checkType fileList - limit environment checkType
  if needDelete ≤ 0 ∨ needDelete = total environment checkType fileList then
    (fileList, handleFileNotInVec environment fileList directory)
  else
    let needRemoveFiles :=
      (handleFileNeedAgeing environment needDelete checkType fileList 0 [] []).filter
        (removeFile environment directory)
    let fileList := fileList.filter fun info => !needRemoveFiles.contains info.filename
    let directory := directory.filter fun entry => !needRemoveFiles.contains entry.path
    (fileList, handleFileNotInVec environment fileList directory)

/-- One check of `HandleAgeing`. -/
def handleCheck (checkType : CheckType) (fileList : List TraceFileInfo)
    (directory : List DirEntry) : List TraceFileInfo × List DirEntry :=
  if createFileChecker environment checkType then
    handleAgeingSnapShort environment checkType fileList directory
  else (fileList, directory)

def handleAgeing (fileList : List TraceFileInfo) (directory : List DirEntry) :
    List TraceFileInfo × List DirEntry :=
  let numbered := handleCheck environment .fileNumber fileList directory
  handleCheck environment .fileSize numbered.1 numbered.2

section Limits

variable (mktime : BrokenTime → Option Int)

/-- What the snapshot files of the directory weigh against a limit. -/
def directoryTotal (checkType : CheckType) (directory : List DirEntry) : Int :=
  match checkType with
  | .fileNumber => (snapshots mktime directory).length
  | .fileSize => ((snapshots mktime directory).map fun entry => (entry.size : Int)).sum

/-- A limit in force is exceeded by the files of the directory. -/
def LimitExceeded (directory : List DirEntry) : Prop :=
  ∃ checkType, createFileChecker environment checkType = true ∧
    limit environment checkType < directoryTotal mktime checkType directory

/-- The ageing takes a snapshot file out of the directory. -/
def RemovesSnapshot (fileList : List TraceFileInfo) (directory : List DirEntry) :
    Prop :=
  ∃ entry ∈ snapshots mktime directory,
    entry ∉ (handleAgeing environment fileList directory).2

variable {environment mktime} {fileList : List TraceFileInfo}
  {directory : List DirEntry}

theorem calculateFilesize_le (currLinkNum : Nat)
    (hsizes : ∀ info ∈ fileList, 0 ≤ info.fileSize) :
    calculateFilesize environment fileList currLinkNum ≤
      (fileList.map TraceFileInfo.fileSize).sum := by
  induction fileList generalizing currLinkNum with
  | nil => simp [calculateFilesize]
  | cons info rest ih =>
      have hinfo : 0 ≤ info.fileSize := hsizes info (by simp)
      have hrest : ∀ info ∈ rest, 0 ≤ info.fileSize :=
        fun info hmem => hsizes info (by simp [hmem])
      have hsame := ih currLinkNum hrest
      have hnext := ih (currLinkNum + 1) hrest
      simp only [calculateFilesize, List.map_cons, List.sum_cons]
      split
      · omega
      · split <;> omega

theorem fileSize_nonneg_of_lists (hlists : ListsSnapshots mktime fileList directory)
    {info : TraceFileInfo} (hmem : info ∈ fileList) : 0 ≤ info.fileSize := by
  have hpair := hlists.mem_iff.mp
    (List.mem_map_of_mem (f := fun info => (info.filename, info.fileSize)) hmem)
  obtain ⟨entry, _, hentry⟩ := List.mem_map.mp hpair
  have hsize : (entry.size : Int) = info.fileSize := congrArg Prod.snd hentry
  omega

theorem sum_of_lists (hlists : ListsSnapshots mktime fileList directory) :
    (fileList.map TraceFileInfo.fileSize).sum =
      directoryTotal mktime .fileSize directory := by
  have hsum := (hlists.map Prod.snd).sum_eq
  rw [List.map_map, List.map_map] at hsum
  exact hsum

theorem total_le_of_lists (environment : AgeingEnvironment) (checkType : CheckType)
    (hlists : ListsSnapshots mktime fileList directory) :
    total environment checkType fileList ≤ directoryTotal mktime checkType directory := by
  cases checkType with
  | fileNumber =>
      have hlength := hlists.length_eq
      simp only [List.length_map] at hlength
      simp [total, directoryTotal, hlength]
  | fileSize =>
      rw [← sum_of_lists hlists]
      exact calculateFilesize_le 0 fun info hmem => fileSize_nonneg_of_lists hlists hmem

theorem isListed_of_lists (hlists : ListsSnapshots mktime fileList directory)
    {entry : DirEntry} (hmem : entry ∈ snapshots mktime directory) :
    isListed fileList entry.path = true := by
  have hpair := hlists.mem_iff.mpr
    (List.mem_map_of_mem (f := fun entry : DirEntry => (entry.path, (entry.size : Int)))
      hmem)
  obtain ⟨info, hinfo, hfields⟩ := List.mem_map.mp hpair
  simp only [isListed, List.any_eq_true, beq_iff_eq]
  exact ⟨info, hinfo, congrArg Prod.fst hfields⟩

/-- The files of a vector that lists its directory stay. -/
theorem snapshots_handleFileNotInVec
    (hlists : ListsSnapshots mktime fileList directory) :
    snapshots mktime (handleFileNotInVec environment fileList directory) =
      snapshots mktime directory := by
  unfold snapshots handleFileNotInVec
  rw [List.filter_filter]
  apply List.filter_congr
  intro entry hmem
  cases hsnapshot : entry.isSnapshot mktime with
  | false => simp
  | true =>
      have hentry : entry ∈ snapshots mktime directory :=
        List.mem_filter.mpr ⟨hmem, hsnapshot⟩
      simp [isListed_of_lists hlists hentry]

theorem handleCheck_of_le {checkType : CheckType}
    (hlists : ListsSnapshots mktime fileList directory)
    (hlimit : createFileChecker environment checkType = true →
      directoryTotal mktime checkType directory ≤ limit environment checkType) :
    (handleCheck environment checkType fileList directory).1 = fileList ∧
      snapshots mktime (handleCheck environment checkType fileList directory).2 =
        snapshots mktime directory := by
  unfold handleCheck
  split
  · rename_i hchecker
    have hneed : total environment checkType fileList - limit environment checkType ≤ 0 := by
      have htotal := total_le_of_lists environment checkType hlists
      have hlimit := hlimit hchecker
      omega
    rw [handleAgeingSnapShort, if_pos (Or.inl hneed)]
    exact ⟨rfl, snapshots_handleFileNotInVec hlists⟩
  · exact ⟨rfl, rfl⟩

theorem listsSnapshots_of_eq {other : List DirEntry}
    (hlists : ListsSnapshots mktime fileList directory)
    (hsnapshots : snapshots mktime other = snapshots mktime directory) :
    ListsSnapshots mktime fileList other := by
  rw [ListsSnapshots, hsnapshots]
  exact hlists

theorem directoryTotal_of_eq (checkType : CheckType) {other : List DirEntry}
    (hsnapshots : snapshots mktime other = snapshots mktime directory) :
    directoryTotal mktime checkType other = directoryTotal mktime checkType directory := by
  simp only [directoryTotal, hsnapshots]

/-- With a vector that lists the directory, a snapshot file is removed only if a
limit is exceeded. -/
theorem limitExceeded_of_removes
    (hlists : ListsSnapshots mktime fileList directory)
    (hremoves : RemovesSnapshot environment mktime fileList directory) :
    LimitExceeded environment mktime directory := by
  by_contra hnot
  have hlimit : ∀ checkType, createFileChecker environment checkType = true →
      directoryTotal mktime checkType directory ≤ limit environment checkType := by
    intro checkType hchecker
    exact not_lt.mp fun hlt => hnot ⟨checkType, hchecker, hlt⟩
  obtain ⟨hfirstVec, hfirst⟩ := handleCheck_of_le hlists (hlimit .fileNumber)
  have hmiddle := listsSnapshots_of_eq hlists hfirst
  obtain ⟨_, hsecond⟩ := handleCheck_of_le hmiddle fun hchecker =>
    (directoryTotal_of_eq .fileSize hfirst).trans_le (hlimit .fileSize hchecker)
  obtain ⟨entry, hmem, hremoved⟩ := hremoves
  apply hremoved
  have hkept : snapshots mktime (handleAgeing environment fileList directory).2 =
      snapshots mktime directory := by
    rw [handleAgeing, hfirstVec, hsecond, hfirst]
  rw [← hkept] at hmem
  exact (List.mem_filter.mp hmem).1

end Limits

end FileAgeing

end Hitrace
