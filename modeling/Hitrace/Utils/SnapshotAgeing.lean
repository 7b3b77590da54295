import Hitrace.Library.Eviction
import Hitrace.Utils.FileAgeing

namespace Hitrace.FileAgeing

open Library

/-! What `HandleAgeingSnapShort` removes: the oldest files, except that of the linked files
the newest `DEFAULT_LINK_NUM` are spared. -/

section Scan

variable (environment : AgeingEnvironment) (checkType : CheckType)

def isLinked (info : TraceFileInfo) : Bool :=
  environment.linked info.filename

/-- What is removed when all of these files have been looked at. -/
def agedFiles (front : List TraceFileInfo) : List TraceFileInfo :=
  Eviction.evicted (isLinked environment) defaultLinkNum front

def agedWeight (front : List TraceFileInfo) : Int :=
  ((agedFiles environment front).map (weight checkType)).sum

/-- The variables of `HandleFileNeedAgeing` when it has looked at `front`. -/
structure Scanned (front : List TraceFileInfo) (currCount : Int)
    (needRemoveFiles : List (List Char)) (linkFiles : List TraceFileInfo) : Prop where
  count : currCount = agedWeight environment checkType front
  names : needRemoveFiles.Perm ((agedFiles environment front).map TraceFileInfo.filename)
  links : linkFiles = Eviction.queue (isLinked environment) defaultLinkNum front

variable {environment checkType} {front : List TraceFileInfo} {currCount : Int}
  {needRemoveFiles : List (List Char)} {linkFiles : List TraceFileInfo}

/-- One more file is removed. -/
theorem Scanned.remove (hscanned : Scanned environment checkType front currCount
      needRemoveFiles linkFiles) {info removed : TraceFileInfo} {next : List TraceFileInfo}
    (haged : (agedFiles environment (front ++ [info])).Perm
      (agedFiles environment front ++ [removed]))
    (hlinks : next = Eviction.queue (isLinked environment) defaultLinkNum (front ++ [info])) :
    Scanned environment checkType (front ++ [info]) (currCount + weight checkType removed)
      (needRemoveFiles ++ [removed.filename]) next where
  count := by
    have hsum := (haged.map (weight checkType)).sum_eq
    rw [agedWeight, hsum, List.map_append, List.sum_append, hscanned.count, agedWeight]
    simp
  names := by
    refine (hscanned.names.append_right _).trans ?_
    have hnames := (haged.map TraceFileInfo.filename).symm
    rw [List.map_append] at hnames
    exact hnames
  links := hlinks

theorem Scanned.keep (hscanned : Scanned environment checkType front currCount
      needRemoveFiles linkFiles) {info : TraceFileInfo}
    (hlinked : isLinked environment info = true)
    (hroom : linkFiles.length + 1 ≤ defaultLinkNum) :
    Scanned environment checkType (front ++ [info]) currCount needRemoveFiles
      (linkFiles ++ [info]) := by
  rw [hscanned.links] at hroom ⊢
  obtain ⟨haged, hqueue⟩ := Eviction.concat_room hlinked hroom
  exact
    { count := by rw [hscanned.count, agedWeight, agedWeight, agedFiles, agedFiles, haged]
      names := by
        rw [agedFiles, haged]
        exact hscanned.names
      links := hqueue.symm }

/-- The scan stops at the first file with which enough is removed. -/
theorem handleFileNeedAgeing_scanned (needDelete : Int) (rest : List TraceFileInfo)
    (hscanned : Scanned environment checkType front currCount needRemoveFiles linkFiles)
    (hshort : ∀ shorter, shorter <+: front → shorter ≠ front →
      ¬ needDelete ≤ agedWeight environment checkType shorter) :
    ∃ scanned,
      FirstPrefix (fun front => needDelete ≤ agedWeight environment checkType front)
        (front ++ rest) scanned ∧
      (handleFileNeedAgeing environment needDelete checkType rest currCount needRemoveFiles
        linkFiles).Perm ((agedFiles environment scanned).map TraceFileInfo.filename) := by
  induction rest generalizing front currCount needRemoveFiles linkFiles with
  | nil =>
      rw [List.append_nil]
      exact ⟨front, ⟨List.prefix_rfl, Or.inr rfl, hshort⟩, hscanned.names⟩
  | cons info rest ih =>
      rw [handleFileNeedAgeing]
      by_cases hreached : currCount ≥ needDelete
      · rw [if_pos hreached]
        refine ⟨front, ⟨List.prefix_append _ _, Or.inl ?_, hshort⟩, hscanned.names⟩
        rw [← hscanned.count]
        exact hreached
      · rw [if_neg hreached]
        have hnext : ∀ shorter, shorter <+: front ++ [info] → shorter ≠ front ++ [info] →
            ¬ needDelete ≤ agedWeight environment checkType shorter := by
          intro shorter hshorter hne
          rcases List.prefix_concat_iff.mp hshorter with hall | hfront
          · exact absurd hall hne
          · by_cases heq : shorter = front
            · rw [heq, ← hscanned.count]
              exact hreached
            · exact hshort shorter hfront heq
        rw [List.append_cons]
        cases hlinked : environment.linked info.filename with
        | false =>
            have hmark : isLinked environment info = false := hlinked
            rw [if_pos (by rfl)]
            apply ih _ hnext
            obtain ⟨haged, hqueue⟩ := Eviction.concat_plain hmark
            apply hscanned.remove haged
            rw [hqueue, hscanned.links]
        | true =>
            have hmark : isLinked environment info = true := hlinked
            rw [if_neg (by simp)]
            by_cases hroom : linkFiles.length + 1 ≤ defaultLinkNum
            · rw [if_pos hroom]
              exact ih (hscanned.keep hmark hroom) hnext
            · rw [if_neg hroom]
              have hfull := hroom
              rw [hscanned.links] at hfull
              obtain ⟨haged, hqueue⟩ := Eviction.concat_full hmark hfull
              rw [← hscanned.links] at haged hqueue
              exact ih (hscanned.remove haged hqueue.symm) hnext

end Scan

section Snapshot

variable (environment : AgeingEnvironment) (checkType : CheckType)

def needDelete (fileList : List TraceFileInfo) : Int :=
  total environment checkType fileList - limit environment checkType

/-- The files that are taken out of the vector. -/
def removedNames (fileList : List TraceFileInfo) (directory : List DirEntry) :
    List (List Char) :=
  (handleFileNeedAgeing environment (needDelete environment checkType fileList) checkType
    fileList 0 [] []).filter (removeFile environment directory)

/-- The scan of the whole vector. -/
def StopsAt (fileList scanned : List TraceFileInfo) : Prop :=
  FirstPrefix
    (fun front => needDelete environment checkType fileList ≤
      agedWeight environment checkType front)
    fileList scanned

variable {environment checkType} {fileList : List TraceFileInfo} {directory : List DirEntry}

theorem handleAgeingSnapShort_of_need (hlimit : 0 < limit environment checkType)
    (hneed : 0 < needDelete environment checkType fileList) :
    handleAgeingSnapShort environment checkType fileList directory =
      (fileList.filter fun info =>
          !(removedNames environment checkType fileList directory).contains info.filename,
        handleFileNotInVec environment
          (fileList.filter fun info =>
            !(removedNames environment checkType fileList directory).contains info.filename)
          (directory.filter fun entry =>
            !(removedNames environment checkType fileList directory).contains
              entry.path)) := by
  have hageing : ¬ (needDelete environment checkType fileList ≤ 0 ∨
      needDelete environment checkType fileList = total environment checkType fileList) := by
    rintro (hnone | hall)
    · omega
    · rw [needDelete] at hall
      omega
  rw [needDelete] at hageing
  rw [handleAgeingSnapShort, if_neg hageing]
  rfl

theorem contains_removedNames (hnodup : (fileList.map TraceFileInfo.filename).Nodup) :
    ∃ scanned, StopsAt environment checkType fileList scanned ∧
      ∀ info ∈ fileList,
        (removedNames environment checkType fileList directory).contains info.filename =
            true ↔
          info ∈ agedFiles environment scanned ∧
            removeFile environment directory info.filename = true := by
  have hstart : Scanned environment checkType [] 0 [] [] := ⟨rfl, List.Perm.nil, rfl⟩
  obtain ⟨scanned, hfirst, hnames⟩ := handleFileNeedAgeing_scanned
    (needDelete environment checkType fileList) fileList hstart
    (FirstPrefix.of_nil _).shortest
  refine ⟨scanned, hfirst, ?_⟩
  intro info hinfo
  rw [List.contains_iff_mem, removedNames, List.mem_filter, hnames.mem_iff]
  refine and_congr_left fun _ => ?_
  constructor
  · intro hname
    obtain ⟨other, hother, heq⟩ := List.mem_map.mp hname
    have hmem : other ∈ fileList := hfirst.front.subset (Eviction.mem_of_mem_evicted hother)
    rw [← List.inj_on_of_nodup_map hnodup hmem hinfo heq]
    exact hother
  · exact List.mem_map_of_mem

theorem mem_handleAgeingSnapShort (hlimit : 0 < limit environment checkType)
    (hneed : 0 < needDelete environment checkType fileList)
    (hnodup : (fileList.map TraceFileInfo.filename).Nodup) {info : TraceFileInfo}
    (hinfo : info ∈ fileList)
    (hfails : removeFile environment directory info.filename = false) :
    info ∈ (handleAgeingSnapShort environment checkType fileList directory).1 := by
  rw [handleAgeingSnapShort_of_need hlimit hneed]
  obtain ⟨scanned, -, hnames⟩ := @contains_removedNames environment checkType fileList
    directory hnodup
  refine List.mem_filter.mpr ⟨hinfo, ?_⟩
  rw [Bool.not_eq_true', ← Bool.not_eq_true, hnames info hinfo, hfails]
  rintro ⟨_, hfalse⟩
  cases hfalse

/-- A file of the vector is in the directory afterwards only if its entry stays. -/
theorem mem_directory_iff (hlimit : 0 < limit environment checkType)
    (hneed : 0 < needDelete environment checkType fileList) {info : TraceFileInfo}
    (hinfo : info ∈ fileList) {entry : DirEntry} (hentry : entry ∈ directory)
    (hpath : entry.path = info.filename) :
    entry ∈ (handleAgeingSnapShort environment checkType fileList directory).2 ↔
      info ∈ (handleAgeingSnapShort environment checkType fileList directory).1 := by
  rw [handleAgeingSnapShort_of_need hlimit hneed, handleFileNotInVec, List.mem_filter,
    List.mem_filter, List.mem_filter, hpath]
  constructor
  · rintro ⟨⟨-, hkept⟩, -⟩
    exact ⟨hinfo, hkept⟩
  · rintro ⟨-, hkept⟩
    refine ⟨⟨hentry, hkept⟩, ?_⟩
    have hlisted : isListed (fileList.filter fun info =>
        !(removedNames environment checkType fileList directory).contains info.filename)
        info.filename = true := by
      rw [isListed, List.any_eq_true]
      exact ⟨info, List.mem_filter.mpr ⟨hinfo, hkept⟩, beq_self_eq_true _⟩
    rw [hlisted, Bool.not_true, Bool.and_false, Bool.false_and, Bool.not_false]

/-- When every removal succeeds, the unlinked and the linked files lose their oldest ones. -/
theorem kept_of_removes (hlimit : 0 < limit environment checkType)
    (hneed : 0 < needDelete environment checkType fileList)
    (hnodup : (fileList.map TraceFileInfo.filename).Nodup)
    (hremoves : ∀ info ∈ fileList, removeFile environment directory info.filename = true) :
    ∃ scanned, StopsAt environment checkType fileList scanned ∧
      Eviction.plain (isLinked environment)
          (handleAgeingSnapShort environment checkType fileList directory).1 =
        (Eviction.plain (isLinked environment) fileList).drop
          (Eviction.plain (isLinked environment) scanned).length ∧
      (handleAgeingSnapShort environment checkType fileList directory).1.filter
          (isLinked environment) =
        (fileList.filter (isLinked environment)).drop
          (Eviction.surplus (isLinked environment) defaultLinkNum scanned) := by
  obtain ⟨scanned, hstops, hnames⟩ := @contains_removedNames environment checkType fileList
    directory hnodup
  have hdrops : ∀ info ∈ fileList,
      (removedNames environment checkType fileList directory).contains info.filename = true ↔
        info ∈ Eviction.evicted (isLinked environment) defaultLinkNum scanned := by
    intro info hinfo
    rw [hnames info hinfo]
    exact and_iff_left (hremoves info hinfo)
  rw [handleAgeingSnapShort_of_need hlimit hneed]
  exact ⟨scanned, hstops,
    Eviction.remaining_plain hnodup.of_map hstops.front hdrops,
    Eviction.remaining_marked hnodup.of_map hstops.front hdrops⟩

end Snapshot

/-! The limit of the number. -/

section Number

variable (environment : AgeingEnvironment)

/-- The files left of `fileList`, and the directory with them, when `needDelete` files are
too many. -/
structure AgedByNumber (needDelete : Nat) (fileList : List TraceFileInfo)
    (directory : List DirEntry) (kept : List TraceFileInfo) (left : List DirEntry) :
    Prop where
  order : kept.Sublist fileList
  unlinked : kept.filter (fun info => !isLinked environment info) <:+
    fileList.filter fun info => !isLinked environment info
  linked : kept.filter (isLinked environment) <:+ fileList.filter (isLinked environment)
  spared : min defaultLinkNum (fileList.filter (isLinked environment)).length ≤
    (kept.filter (isLinked environment)).length
  removed : fileList.length = kept.length +
    min needDelete ((fileList.filter fun info => !isLinked environment info).length +
      ((fileList.filter (isLinked environment)).length - defaultLinkNum))
  files : ∀ info ∈ fileList, ∀ entry ∈ directory, entry.path = info.filename →
    (entry ∈ left ↔ info ∈ kept)

variable {environment} {fileList : List TraceFileInfo} {directory : List DirEntry}

theorem agedWeight_fileNumber (front : List TraceFileInfo) :
    agedWeight environment .fileNumber front = (agedFiles environment front).length := by
  rw [agedWeight]
  induction agedFiles environment front with
  | nil => rfl
  | cons info rest ih =>
      rw [List.map_cons, List.sum_cons, ih, List.length_cons, weight]
      omega

theorem length_filter_linked (environment : AgeingEnvironment) (files : List TraceFileInfo) :
    files.length = (files.filter fun info => !isLinked environment info).length +
      (files.filter (isLinked environment)).length := by
  rw [Nat.add_comm]
  exact List.length_eq_length_filter_add (isLinked environment)

/-- The scan takes as many files as are too many, or all that it may take. -/
theorem stopsAt_fileNumber (hneed : 0 < needDelete environment .fileNumber fileList)
    {scanned : List TraceFileInfo}
    (hstops : StopsAt environment .fileNumber fileList scanned) :
    (agedFiles environment scanned).length =
      min (needDelete environment .fileNumber fileList).toNat
        (agedFiles environment fileList).length := by
  apply Eviction.length_evicted_first
  have hreached : (fun front => needDelete environment .fileNumber fileList ≤
        agedWeight environment .fileNumber front) =
      fun front => (needDelete environment .fileNumber fileList).toNat ≤
        (agedFiles environment front).length := by
    funext front
    rw [agedWeight_fileNumber]
    exact propext (by omega)
  rw [StopsAt, hreached] at hstops
  exact hstops

/-- The oldest files leave the vector, as many as the limit asks for, and entries whose
files cannot be removed stay. -/
theorem snapshot_number_ageing (hnodup : (fileList.map TraceFileInfo.filename).Nodup)
    (hlimit : 0 < environment.param.fileNumberLimit)
    (hneed : environment.param.fileNumberLimit < fileList.length) :
    ((∀ info ∈ fileList, removeFile environment directory info.filename = true) →
        AgedByNumber environment
          ((fileList.length : Int) - environment.param.fileNumberLimit).toNat fileList directory
          (handleAgeingSnapShort environment .fileNumber fileList directory).1
          (handleAgeingSnapShort environment .fileNumber fileList directory).2) ∧
      ∀ info ∈ fileList, removeFile environment directory info.filename = false →
        info ∈ (handleAgeingSnapShort environment .fileNumber fileList directory).1 := by
  have hchecked : 0 < limit environment .fileNumber := hlimit
  have hpositive : 0 < needDelete environment .fileNumber fileList := by
    show 0 < (fileList.length : Int) - environment.param.fileNumberLimit
    omega
  refine ⟨?_, fun info hinfo hfails =>
    mem_handleAgeingSnapShort hchecked hpositive hnodup hinfo hfails⟩
  intro hremoves
  obtain ⟨scanned, hstops, hunlinked, hlinked⟩ := kept_of_removes hchecked hpositive hnodup
    hremoves
  have hcount := stopsAt_fileNumber hpositive hstops
  have htaken : (agedFiles environment scanned).length = _ := Eviction.length_evicted
  have hall : (agedFiles environment fileList).length = _ := Eviction.length_evicted
  have hplainLe : (Eviction.plain (isLinked environment) scanned).length ≤
      (Eviction.plain (isLinked environment) fileList).length :=
    (hstops.front.filter _).length_le
  have hlinkedLe : (scanned.filter (isLinked environment)).length ≤
      (fileList.filter (isLinked environment)).length :=
    (hstops.front.filter _).length_le
  rw [Eviction.surplus] at htaken hall hlinked
  exact
    { order := by
        rw [handleAgeingSnapShort_of_need hchecked hpositive]
        exact List.filter_sublist
      unlinked := by
        rw [← Eviction.plain, hunlinked]
        exact List.drop_suffix _ _
      linked := by
        rw [hlinked]
        exact List.drop_suffix _ _
      spared := by
        rw [hlinked, List.length_drop]
        omega
      removed := by
        have hneeded : needDelete environment .fileNumber fileList =
            (fileList.length : Int) - environment.param.fileNumberLimit := rfl
        have hbefore := length_filter_linked environment fileList
        have hafter := length_filter_linked environment
          (handleAgeingSnapShort environment .fileNumber fileList directory).1
        rw [← Eviction.plain, hunlinked, hlinked, List.length_drop, List.length_drop]
          at hafter
        rw [hneeded] at hcount
        rw [← Eviction.plain] at hbefore ⊢
        omega
      files := fun info hinfo entry hentry hpath =>
        mem_directory_iff hchecked hpositive hinfo hentry hpath }

/-- A snapshot file whose name ends with `char`. -/
def snapshotEntry (char : Char) (size : Nat) : DirEntry where
  name := traceSnapshotPrefix ++ [char]
  regular := true
  ctime := 0
  size

def snapshotInfo (entry : DirEntry) : TraceFileInfo where
  filename := entry.path
  fileSize := entry.size

/-- Three files, of which the oldest is linked, and a limit of two. -/
def numberLimited : AgeingEnvironment where
  param := { fileNumberLimit := 2 }
  linked := fun filename => filename == (snapshotEntry 'a' 1).path

def threeEntries : List DirEntry :=
  [snapshotEntry 'a' 1, snapshotEntry 'b' 1, snapshotEntry 'c' 1]

theorem snapshot_number_ageing_three :
    handleAgeingSnapShort numberLimited .fileNumber (threeEntries.map snapshotInfo)
        threeEntries =
      ([snapshotInfo (snapshotEntry 'a' 1), snapshotInfo (snapshotEntry 'c' 1)],
        [snapshotEntry 'a' 1, snapshotEntry 'c' 1]) ∧
    AgedByNumber numberLimited 1 (threeEntries.map snapshotInfo) threeEntries
      (handleAgeingSnapShort numberLimited .fileNumber (threeEntries.map snapshotInfo)
        threeEntries).1
      (handleAgeingSnapShort numberLimited .fileNumber (threeEntries.map snapshotInfo)
        threeEntries).2 :=
  ⟨by decide,
    (@snapshot_number_ageing numberLimited (threeEntries.map snapshotInfo) threeEntries
      (by decide) (by decide) (by decide)).1 (by decide)⟩

end Number

/-! The limit of the size. -/

section Size

variable (environment : AgeingEnvironment)

def sizes (files : List TraceFileInfo) : Int :=
  (files.map TraceFileInfo.fileSize).sum

theorem calculateFilesize_eq (files : List TraceFileInfo) (currLinkNum : Nat) :
    calculateFilesize environment files currLinkNum =
      sizes (Eviction.plain (isLinked environment) files) +
        sizes ((files.filter (isLinked environment)).drop (defaultLinkNum - currLinkNum)) := by
  induction files generalizing currLinkNum with
  | nil => simp [calculateFilesize, Eviction.plain, sizes]
  | cons info rest ih =>
      rw [calculateFilesize]
      cases hlinked : environment.linked info.filename with
      | false =>
          have hplain : Eviction.plain (isLinked environment) (info :: rest) =
              info :: Eviction.plain (isLinked environment) rest := by
            simp [Eviction.plain, isLinked, hlinked]
          have hlinks : (info :: rest).filter (isLinked environment) =
              rest.filter (isLinked environment) := by
            simp [isLinked, hlinked]
          rw [if_pos (by rfl), ih, hplain, hlinks, sizes, sizes, sizes, List.map_cons,
            List.sum_cons]
          omega
      | true =>
          have hplain : Eviction.plain (isLinked environment) (info :: rest) =
              Eviction.plain (isLinked environment) rest := by
            simp [Eviction.plain, isLinked, hlinked]
          have hlinks : (info :: rest).filter (isLinked environment) =
              info :: rest.filter (isLinked environment) := by
            simp [isLinked, hlinked]
          rw [if_neg (by simp), ih, hplain, hlinks]
          by_cases hcounted : currLinkNum + 1 > defaultLinkNum
          · have hnone : defaultLinkNum - currLinkNum = 0 := by omega
            have hnext : defaultLinkNum - (currLinkNum + 1) = 0 := by omega
            rw [if_pos hcounted, hnone, hnext, List.drop_zero, List.drop_zero]
            simp only [sizes, List.map_cons, List.sum_cons]
            omega
          · have hsome : defaultLinkNum - currLinkNum =
                defaultLinkNum - (currLinkNum + 1) + 1 := by omega
            rw [if_neg hcounted, hsome, List.drop_succ_cons]

theorem sizes_append (first second : List TraceFileInfo) :
    sizes (first ++ second) = sizes first + sizes second := by
  rw [sizes, List.map_append, List.sum_append, sizes, sizes]

/-- The limit is reached, and a second call removes nothing more. -/
structure ReachesSizeLimit (fileList : List TraceFileInfo) (directory : List DirEntry) :
    Prop where
  counted : calculateFilesize environment
      (handleAgeingSnapShort environment .fileSize fileList directory).1 0 ≤
    environment.param.fileSizeKbLimit * bytePerKb
  again : handleAgeingSnapShort environment .fileSize
      (handleAgeingSnapShort environment .fileSize fileList directory).1
      (handleAgeingSnapShort environment .fileSize fileList directory).2 =
    handleAgeingSnapShort environment .fileSize fileList directory

/-- Where the scan stops, the files that it has looked at count for as much as was to be
removed.  The linked files that it removes are the oldest ones; those that count are the ones
behind the first `DEFAULT_LINK_NUM`. -/
def CountsForEnough (fileList : List TraceFileInfo) : Prop :=
  ∀ scanned, StopsAt environment .fileSize fileList scanned →
    needDelete environment .fileSize fileList ≤ calculateFilesize environment scanned 0

variable {environment} {fileList scanned kept : List TraceFileInfo}
  {directory : List DirEntry}

theorem sizes_spared (links unread : List TraceFileInfo) :
    sizes ((links ++ unread).drop (defaultLinkNum + (links.length - defaultLinkNum))) =
      sizes ((links ++ unread).drop defaultLinkNum) - sizes (links.drop defaultLinkNum) := by
  by_cases hmany : defaultLinkNum ≤ links.length
  · have hlength : defaultLinkNum + (links.length - defaultLinkNum) = links.length := by omega
    rw [hlength, List.drop_left, List.drop_append_of_le_length hmany, sizes_append]
    omega
  · have hnone : links.drop defaultLinkNum = [] := List.drop_eq_nil_of_le (by omega)
    have hlength : links.length - defaultLinkNum = 0 := by omega
    rw [hlength, hnone, Nat.add_zero]
    simp [sizes]

/-- What counts of the files that are left. -/
theorem calculateFilesize_kept (hfront : scanned <+: fileList)
    (hunlinked : Eviction.plain (isLinked environment) kept =
      (Eviction.plain (isLinked environment) fileList).drop
        (Eviction.plain (isLinked environment) scanned).length)
    (hlinked : kept.filter (isLinked environment) =
      (fileList.filter (isLinked environment)).drop
        (Eviction.surplus (isLinked environment) defaultLinkNum scanned)) :
    calculateFilesize environment kept 0 =
      calculateFilesize environment fileList 0 - calculateFilesize environment scanned 0 := by
  obtain ⟨unread, rfl⟩ := hfront
  have hplain : Eviction.plain (isLinked environment) (scanned ++ unread) =
      Eviction.plain (isLinked environment) scanned ++
        Eviction.plain (isLinked environment) unread := List.filter_append _ _
  rw [hplain, List.drop_left] at hunlinked
  rw [List.filter_append, Eviction.surplus] at hlinked
  have hspared := sizes_spared (scanned.filter (isLinked environment))
    (unread.filter (isLinked environment))
  rw [calculateFilesize_eq, calculateFilesize_eq, calculateFilesize_eq, hunlinked, hlinked,
    hplain, List.filter_append, List.drop_drop, Nat.sub_zero, Nat.add_comm, hspared,
    sizes_append]
  omega

theorem handleFileNotInVec_again (files : List TraceFileInfo) (directory : List DirEntry) :
    handleFileNotInVec environment files (handleFileNotInVec environment files directory) =
      handleFileNotInVec environment files directory := by
  rw [handleFileNotInVec, handleFileNotInVec, List.filter_filter]
  simp only [Bool.and_self]

theorem handleAgeingSnapShort_of_le (files : List TraceFileInfo) (directory : List DirEntry)
    (hwithin : needDelete environment .fileSize files ≤ 0) :
    handleAgeingSnapShort environment .fileSize files directory =
      (files, handleFileNotInVec environment files directory) := by
  rw [needDelete] at hwithin
  rw [handleAgeingSnapShort, if_pos (Or.inl hwithin)]

/-- The directory that a call leaves holds no file that the next call would miss. -/
theorem handleAgeingSnapShort_again
    (hwithin : needDelete environment .fileSize
      (handleAgeingSnapShort environment .fileSize fileList directory).1 ≤ 0) :
    handleAgeingSnapShort environment .fileSize
        (handleAgeingSnapShort environment .fileSize fileList directory).1
        (handleAgeingSnapShort environment .fileSize fileList directory).2 =
      handleAgeingSnapShort environment .fileSize fileList directory := by
  rw [handleAgeingSnapShort_of_le _ _ hwithin]
  apply Prod.ext
  · rfl
  · rw [handleAgeingSnapShort]
    split
    · exact handleFileNotInVec_again _ _
    · exact handleFileNotInVec_again _ _

theorem stopsAt_of_within (hwithin : needDelete environment .fileSize fileList ≤ 0)
    (hstops : StopsAt environment .fileSize fileList scanned) : scanned = [] := by
  by_contra hne
  exact hstops.shortest [] List.nil_prefix (Ne.symm hne) hwithin

theorem snapshot_size_ageing_iff (hnodup : (fileList.map TraceFileInfo.filename).Nodup)
    (hlimit : 0 < environment.param.fileSizeKbLimit)
    (hremoves : ∀ info ∈ fileList, removeFile environment directory info.filename = true) :
    ReachesSizeLimit environment fileList directory ↔
      CountsForEnough environment fileList := by
  have hchecked : 0 < limit environment .fileSize := by
    show 0 < environment.param.fileSizeKbLimit * 1024
    omega
  have hneeded : ∀ files, needDelete environment .fileSize files =
      calculateFilesize environment files 0 -
        environment.param.fileSizeKbLimit * bytePerKb := fun _ => rfl
  by_cases hneed : 0 < needDelete environment .fileSize fileList
  · obtain ⟨scanned, hstops, hunlinked, hlinked⟩ := kept_of_removes hchecked hneed hnodup
      hremoves
    have hcounted := calculateFilesize_kept hstops.front hunlinked hlinked
    have hfileList := hneeded fileList
    constructor
    · intro hreaches other hother
      have hlow := hreaches.counted
      rw [← hstops.unique hother]
      omega
    · intro henough
      have hlow := henough scanned hstops
      have hkept := hneeded (handleAgeingSnapShort environment .fileSize fileList directory).1
      exact ⟨by omega, handleAgeingSnapShort_again (by omega)⟩
  · have hwithin : needDelete environment .fileSize fileList ≤ 0 := by omega
    have hsame := handleAgeingSnapShort_of_le fileList directory hwithin
    have hfileList := hneeded fileList
    refine iff_of_true ⟨?_, handleAgeingSnapShort_again ?_⟩ ?_
    · rw [hsame]
      show calculateFilesize environment fileList 0 ≤ _
      omega
    · rw [hsame]
      exact hwithin
    · intro scanned hstops
      rw [stopsAt_of_within hwithin hstops]
      exact hwithin

/-- Two files that no link protects, and a limit of one kilobyte. -/
def sizeLimited : AgeingEnvironment where
  param := { fileSizeKbLimit := 1 }

def twoEntries : List DirEntry :=
  [snapshotEntry 'a' 1000, snapshotEntry 'b' 1000]

theorem snapshot_size_ageing_iff_two :
    handleAgeingSnapShort sizeLimited .fileSize (twoEntries.map snapshotInfo) twoEntries =
      ([snapshotInfo (snapshotEntry 'b' 1000)], [snapshotEntry 'b' 1000]) ∧
    ReachesSizeLimit sizeLimited (twoEntries.map snapshotInfo) twoEntries := by
  refine ⟨by decide, (@snapshot_size_ageing_iff sizeLimited (twoEntries.map snapshotInfo)
    twoEntries (by decide) (by decide) (by decide)).mpr ?_⟩
  intro scanned hstops
  have hfirst : StopsAt sizeLimited .fileSize (twoEntries.map snapshotInfo)
      [snapshotInfo (snapshotEntry 'a' 1000)] := by
    refine ⟨by decide, by decide, ?_⟩
    intro shorter hfront hne
    rcases List.prefix_cons_iff.mp hfront with rfl | ⟨rest, rfl, hrest⟩
    · decide
    · rw [List.prefix_nil.mp hrest] at hne
      exact absurd rfl hne
  rw [hstops.unique hfirst]
  decide

/-- Eighteen linked files, of which the oldest and the newest are large. -/
def linkedEntries : List DirEntry :=
  snapshotEntry 'a' 102400 ::
    "bcdefghijklmnopq".toList.map (fun char => snapshotEntry char 10240) ++
    [snapshotEntry 'r' 102400]

def linkedLimited : AgeingEnvironment where
  param := { fileSizeKbLimit := 50 }
  linked := fun _ => true

/-- The oldest file is taken for all that has to go, but it did not count: the file of
which the limit is exceeded stays, until the next call. -/
theorem linked_files_exceed_limit :
    ((linkedEntries.map snapshotInfo).map TraceFileInfo.filename).Nodup ∧
    (∀ info ∈ linkedEntries.map snapshotInfo,
      removeFile linkedLimited linkedEntries info.filename = true) ∧
    ¬ ReachesSizeLimit linkedLimited (linkedEntries.map snapshotInfo) linkedEntries := by
  refine ⟨by decide +kernel, by decide +kernel, ?_⟩
  intro hreaches
  have hcounted : 102400 ≤ calculateFilesize linkedLimited
      (handleAgeingSnapShort linkedLimited .fileSize (linkedEntries.map snapshotInfo)
        linkedEntries).1 0 := by
    decide +kernel
  have hlimit := hreaches.counted
  have hbytes : linkedLimited.param.fileSizeKbLimit * bytePerKb = 51200 := rfl
  omega

end Size

end Hitrace.FileAgeing
