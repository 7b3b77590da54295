import Hitrace.HitraceDump.CacheResults
import Hitrace.Library.Eviction

namespace Hitrace

open Library

/-! The cleaning of the cache by size and by age, from `utils/trace_file_utils.cpp`. -/

namespace CacheFiles

theorem FileSystem.fileExists_remove_iff {files : FileSystem} {path removed : List Char} :
    (files.remove removed).fileExists path = true ↔
      files.fileExists path = true ∧ path ≠ removed := by
  constructor
  · intro hexists
    rcases FileSystem.fileExists_iff.mp hexists with ⟨entry, hmem, rfl⟩ | helsewhere
    · obtain ⟨hentry, hne⟩ := List.mem_filter.mp hmem
      exact ⟨FileSystem.fileExists_iff.mpr (Or.inl ⟨entry, hentry, rfl⟩),
        of_decide_eq_true hne⟩
    · obtain ⟨hother, hne⟩ := List.mem_filter.mp helsewhere
      exact ⟨FileSystem.fileExists_iff.mpr (Or.inr hother), of_decide_eq_true hne⟩
  · rintro ⟨hexists, hne⟩
    exact FileSystem.fileExists_remove hne hexists

theorem totalFileSize_append (first second : List TraceFileInfo) :
    totalFileSize (first ++ second) = totalFileSize first + totalFileSize second := by
  rw [totalFileSize, List.map_append, List.sum_append, totalFileSize, totalFileSize]

theorem totalFileSize_cons (info : TraceFileInfo) (rest : List TraceFileInfo) :
    totalFileSize (info :: rest) = info.fileSize + totalFileSize rest := by
  rw [totalFileSize, List.map_cons, List.sum_cons, totalFileSize]

section Removal

variable (removable : List Char → Bool)

/-- The result of `remove`. -/
def removes (files : FileSystem) (path : List Char) : Bool :=
  removable path && files.fileExists path

/-- The files of these entries are removed in turn: the sizes of those for which this
fails, and the files that are left. -/
def removeAll : List TraceFileInfo → FileSystem → Int × FileSystem
  | [], files => (0, files)
  | info :: rest, files =>
      if removes removable files info.filename then
        removeAll rest (files.remove info.filename)
      else
        let (unremoved, files) := removeAll rest files
        (info.fileSize + unremoved, files)

variable {removable} {files : FileSystem} {path : List Char}

theorem removeAll_of_removes {info : TraceFileInfo}
    (hremoves : removes removable files info.filename = true) (rest : List TraceFileInfo) :
    removeAll removable (info :: rest) files =
      removeAll removable rest (files.remove info.filename) := by
  rw [removeAll, if_pos hremoves]

theorem removeAll_of_fails {info : TraceFileInfo}
    (hfails : removes removable files info.filename = false) (rest : List TraceFileInfo) :
    removeAll removable (info :: rest) files =
      (info.fileSize + (removeAll removable rest files).1,
        (removeAll removable rest files).2) := by
  rw [removeAll, if_neg (by rw [hfails]; exact Bool.false_ne_true)]

theorem fileExists_removeAll (front : List TraceFileInfo) :
    (removeAll removable front files).2.fileExists path = true ↔
      files.fileExists path = true ∧ ¬ (path ∈ names front ∧ removable path = true) := by
  induction front generalizing files with
  | nil => simp [removeAll]
  | cons info rest ih =>
      rw [removeAll, names_cons, List.mem_cons]
      split
      · next hremoves =>
          rw [ih, FileSystem.fileExists_remove_iff]
          have hremovable : removable info.filename = true :=
            (Bool.and_eq_true_iff.mp hremoves).1
          constructor
          · rintro ⟨⟨hexists, hne⟩, hnot⟩
            refine ⟨hexists, ?_⟩
            rintro ⟨hself | hmem, hpath⟩
            · exact hne hself
            · exact hnot ⟨hmem, hpath⟩
          · rintro ⟨hexists, hnot⟩
            refine ⟨⟨hexists, ?_⟩, fun hmem => hnot ⟨Or.inr hmem.1, hmem.2⟩⟩
            rintro rfl
            exact hnot ⟨Or.inl rfl, hremovable⟩
      · next hfails =>
          rw [ih]
          refine and_congr_right fun hexists => not_congr ?_
          constructor
          · rintro ⟨hmem, hpath⟩
            exact ⟨Or.inr hmem, hpath⟩
          · rintro ⟨rfl | hmem, hpath⟩
            · exact absurd (Bool.and_eq_true_iff.mpr ⟨hpath, hexists⟩) hfails
            · exact ⟨hmem, hpath⟩

/-- The loop stops when the total, less the sizes of the files that it could remove, is
within the limit. -/
theorem clearCacheFiles_first (fileSizeLimit : Int) (totalCacheFileSize : Int)
    (cacheFileVec : List TraceFileInfo) (files : FileSystem) :
    ∃ dropped kept, cacheFileVec = dropped ++ kept ∧
      FirstPrefix (fun front => totalCacheFileSize - totalFileSize front +
        (removeAll removable front files).1 ≤ fileSizeLimit) cacheFileVec dropped ∧
      clearCacheFiles fileSizeLimit removable totalCacheFileSize cacheFileVec files =
        (kept, (removeAll removable dropped files).2) := by
  induction cacheFileVec generalizing totalCacheFileSize files with
  | nil => exact ⟨[], [], rfl, FirstPrefix.of_nil _, rfl⟩
  | cons info rest ih =>
      rw [clearCacheFiles]
      have hstart : totalCacheFileSize - totalFileSize [] +
          (removeAll removable [] files).1 = totalCacheFileSize := by
        simp [totalFileSize, removeAll]
      by_cases hexceeds : totalCacheFileSize > fileSizeLimit
      · rw [if_pos hexceeds]
        have hnot : ¬ totalCacheFileSize - totalFileSize [] +
            (removeAll removable [] files).1 ≤ fileSizeLimit := by omega
        cases hremoves : removes removable files info.filename with
        | true =>
            obtain ⟨dropped, kept, hvec, hfirst, hclear⟩ :=
              ih (totalCacheFileSize - info.fileSize) (files.remove info.filename)
            have hsame : (fun front => totalCacheFileSize - info.fileSize -
                  totalFileSize front +
                    (removeAll removable front (files.remove info.filename)).1 ≤
                  fileSizeLimit) =
                fun front => totalCacheFileSize - totalFileSize (info :: front) +
                  (removeAll removable (info :: front) files).1 ≤ fileSizeLimit := by
              funext front
              rw [removeAll_of_removes hremoves, totalFileSize_cons]
              exact propext (by omega)
            rw [hsame] at hfirst
            rw [removes] at hremoves
            refine ⟨info :: dropped, kept, by rw [hvec, List.cons_append],
              hfirst.cons hnot, ?_⟩
            rw [if_pos hremoves, hclear, removeAll_of_removes hremoves]
        | false =>
            obtain ⟨dropped, kept, hvec, hfirst, hclear⟩ := ih totalCacheFileSize files
            have hsame : (fun front => totalCacheFileSize - totalFileSize front +
                  (removeAll removable front files).1 ≤ fileSizeLimit) =
                fun front => totalCacheFileSize - totalFileSize (info :: front) +
                  (removeAll removable (info :: front) files).1 ≤ fileSizeLimit := by
              funext front
              rw [removeAll_of_fails hremoves, totalFileSize_cons]
              exact propext (by omega)
            rw [hsame] at hfirst
            refine ⟨info :: dropped, kept, by rw [hvec, List.cons_append],
              hfirst.cons hnot, ?_⟩
            rw [if_neg (by rw [← removes, hremoves]; exact Bool.false_ne_true), hclear,
              removeAll_of_fails hremoves]
      · rw [if_neg hexceeds]
        refine ⟨[], info :: rest, rfl, FirstPrefix.nil ?_ _, rfl⟩
        omega

end Removal

/-! By size. -/

section Size

/-- The longest part at the end of the list that is within the limit. -/
structure LongestSuffix (limit : Int) (cacheFileVec kept : List TraceFileInfo) : Prop where
  suffix : kept <:+ cacheFileVec
  within : totalFileSize kept ≤ limit
  longest : ∀ other, other <:+ cacheFileVec → totalFileSize other ≤ limit →
    other.length ≤ kept.length

theorem longestSuffix_iff {limit : Int} (hlimit : 0 ≤ limit)
    {dropped kept : List TraceFileInfo} :
    LongestSuffix limit (dropped ++ kept) kept ↔
      FirstPrefix (fun front => totalFileSize (dropped ++ kept) - totalFileSize front ≤ limit)
        (dropped ++ kept) dropped := by
  have hkept : totalFileSize (dropped ++ kept) - totalFileSize dropped =
      totalFileSize kept := by
    rw [totalFileSize_append]
    omega
  constructor
  · intro hlongest
    refine ⟨List.prefix_append _ _, Or.inl ?_, ?_⟩
    · rw [hkept]
      exact hlongest.within
    · rintro shorter ⟨rest, rfl⟩ hne hreached
      have hother := hlongest.longest (rest ++ kept)
        ⟨shorter, by rw [List.append_assoc]⟩
        (by rw [List.append_assoc, totalFileSize_append shorter] at hreached; omega)
      rw [List.length_append] at hother
      have hnil : rest = [] := List.eq_nil_of_length_eq_zero (by omega)
      rw [hnil, List.append_nil] at hne
      exact hne rfl
  · intro hfirst
    refine ⟨List.suffix_append _ _, ?_, ?_⟩
    · rcases hfirst.stops with hreached | hall
      · rw [← hkept]
        exact hreached
      · have hnil : kept = [] := List.self_eq_append_right.mp hall
        rw [hnil]
        exact hlimit
    · rintro other ⟨front, hfront⟩ hwithin
      by_contra hlonger
      have hlength := congrArg List.length hfront
      rw [List.length_append, List.length_append] at hlength
      have hshorter : front <+: dropped := by
        refine List.prefix_of_prefix_length_le ⟨other, hfront⟩ (List.prefix_append _ _) ?_
        omega
      refine hfirst.shortest front hshorter ?_ ?_
      · rintro rfl
        omega
      · rw [← hfront, totalFileSize_append]
        omega

variable (cacheFileVec : List TraceFileInfo) (fileSizeLimit : UInt64)
  (removable : List Char → Bool) (files : FileSystem)

/-- The list is the longest suffix within the limit, and its files are there still. -/
structure CleansBySize : Prop where
  longest : LongestSuffix fileSizeLimit.toNat cacheFileVec
    (clearCacheTraceFileBySize cacheFileVec fileSizeLimit removable files).1
  files : ∀ info ∈ (clearCacheTraceFileBySize cacheFileVec fileSizeLimit removable files).1,
    files.fileExists info.filename = true →
    (clearCacheTraceFileBySize cacheFileVec fileSizeLimit removable files).2.fileExists
      info.filename = true

/-- The files that cannot be removed make no difference.  Their sizes stay in the total,
which must not lift it over the limit where the suffix is within it, nor bring it down
earlier, as a size of -1 does; and no file that is removed has the name of one that stays. -/
structure FailuresHarmless (dropped kept : List TraceFileInfo) : Prop where
  enough : kept ≠ [] →
    totalFileSize kept + (removeAll removable dropped files).1 ≤ fileSizeLimit.toNat
  needed : ∀ front rest, dropped = front ++ rest → rest ≠ [] →
    fileSizeLimit.toNat <
      totalFileSize (rest ++ kept) + (removeAll removable front files).1
  names : ∀ info ∈ kept, info.filename ∈ names dropped →
    removes removable files info.filename = false

variable {cacheFileVec fileSizeLimit removable files}

theorem toInt_fileSizeLimit (hlimit : fileSizeLimit.toNat < 2 ^ 63) :
    fileSizeLimit.toInt64.toInt = fileSizeLimit.toNat := by
  have hbits : 2 * fileSizeLimit.toBitVec.toNat < 2 ^ 64 := by
    show 2 * fileSizeLimit.toNat < 2 ^ 64
    omega
  exact BitVec.toInt_eq_toNat_of_lt hbits

/-- What the code drops, and what stays. -/
theorem clearCacheTraceFileBySize_first (cacheFileVec : List TraceFileInfo)
    (hlimit : fileSizeLimit.toNat < 2 ^ 63) (files : FileSystem) :
    ∃ dropped kept, cacheFileVec = dropped ++ kept ∧
      FirstPrefix (fun front => totalFileSize cacheFileVec - totalFileSize front +
        (removeAll removable front files).1 ≤ fileSizeLimit.toNat) cacheFileVec dropped ∧
      clearCacheTraceFileBySize cacheFileVec fileSizeLimit removable files =
        (kept, (removeAll removable dropped files).2) := by
  rw [clearCacheTraceFileBySize, toInt_fileSizeLimit hlimit]
  exact clearCacheFiles_first _ _ _ _

/-- The failed removals are harmless exactly if the code drops the same files. -/
theorem failuresHarmless_iff {dropped kept : List TraceFileInfo} :
    FailuresHarmless fileSizeLimit removable files dropped kept ↔
      FirstPrefix (fun front => totalFileSize (dropped ++ kept) - totalFileSize front +
          (removeAll removable front files).1 ≤ fileSizeLimit.toNat)
        (dropped ++ kept) dropped ∧
      ∀ info ∈ kept, info.filename ∈ names dropped →
        removes removable files info.filename = false := by
  have hrest : ∀ front rest, dropped = front ++ rest →
      totalFileSize (dropped ++ kept) - totalFileSize front = totalFileSize (rest ++ kept) := by
    intro front rest hsplit
    rw [hsplit, List.append_assoc, totalFileSize_append]
    omega
  have hkept := hrest dropped [] (List.append_nil dropped).symm
  rw [List.nil_append] at hkept
  constructor
  · intro hharmless
    refine ⟨⟨List.prefix_append _ _, ?_, ?_⟩, hharmless.names⟩
    · by_cases hnil : kept = []
      · exact Or.inr (by rw [hnil, List.append_nil])
      · refine Or.inl ?_
        rw [hkept]
        exact hharmless.enough hnil
    · rintro front ⟨rest, hsplit⟩ hne
      have hrestNil : rest ≠ [] := by
        rintro rfl
        exact hne (by rw [← hsplit, List.append_nil])
      have hneeded := hharmless.needed front rest hsplit.symm hrestNil
      rw [hrest front rest hsplit.symm]
      omega
  · rintro ⟨hfirst, hnames⟩
    refine ⟨?_, ?_, hnames⟩
    · intro hnil
      rcases hfirst.stops with hreached | hall
      · rw [hkept] at hreached
        exact hreached
      · exact absurd (List.self_eq_append_right.mp hall) hnil
    · intro front rest hsplit hrestNil
      have hne : front ≠ dropped := by
        rintro rfl
        exact hrestNil (List.self_eq_append_right.mp hsplit)
      have hnot := hfirst.shortest front ⟨rest, hsplit.symm⟩ hne
      rw [hrest front rest hsplit] at hnot
      omega

theorem cache_cleaned_by_size_iff (hlimit : fileSizeLimit.toNat < 2 ^ 63) :
    CleansBySize cacheFileVec fileSizeLimit removable files ↔
      ∀ dropped kept, cacheFileVec = dropped ++ kept →
        LongestSuffix fileSizeLimit.toNat cacheFileVec kept →
        FailuresHarmless fileSizeLimit removable files dropped kept := by
  obtain ⟨dropped, kept, rfl, hcode, hclear⟩ :=
    @clearCacheTraceFileBySize_first fileSizeLimit removable cacheFileVec hlimit files
  have hpositive : (0 : Int) ≤ fileSizeLimit.toNat := Int.natCast_nonneg _
  constructor
  · rintro ⟨hlongest, hfiles⟩ other rest hsplit hother
    rw [hclear] at hlongest hfiles
    have hdropped := (longestSuffix_iff hpositive).mp hlongest
    have hfront : other = dropped := by
      rw [hsplit] at hother hdropped
      exact ((longestSuffix_iff hpositive).mp hother).unique hdropped
    subst hfront
    have hback : kept = rest := List.append_cancel_left hsplit
    subst hback
    refine failuresHarmless_iff.mpr ⟨hcode, ?_⟩
    intro info hinfo hname
    by_contra hremoves
    obtain ⟨hremovable, hexists⟩ := Bool.and_eq_true_iff.mp (Bool.of_not_eq_false hremoves)
    exact ((fileExists_removeAll _).mp (hfiles info hinfo hexists)).2 ⟨hname, hremovable⟩
  · intro hharmless
    obtain ⟨other, hfirst⟩ := FirstPrefix.exists
      (fun front => totalFileSize (dropped ++ kept) - totalFileSize front ≤
        fileSizeLimit.toNat) (dropped ++ kept)
    obtain ⟨rest, hsplit⟩ := hfirst.front
    have hlongest : LongestSuffix fileSizeLimit.toNat (dropped ++ kept) rest := by
      rw [← hsplit] at hfirst ⊢
      exact (longestSuffix_iff hpositive).mpr hfirst
    obtain ⟨hsame, hnames⟩ := failuresHarmless_iff.mp
      (hharmless other rest hsplit.symm hlongest)
    rw [hsplit] at hsame
    have hfront : other = dropped := hsame.unique hcode
    subst hfront
    have hback : rest = kept := List.append_cancel_left hsplit
    subst hback
    constructor
    · rw [hclear]
      exact hlongest
    · rw [hclear]
      intro info hinfo hexists
      refine (fileExists_removeAll _).mpr ⟨hexists, ?_⟩
      rintro ⟨hname, hremovable⟩
      have hfails := hnames info hinfo hname
      rw [removes, hremovable, hexists] at hfails
      cases hfails

/-- A slice of 600000 bytes. -/
def sliceEntry (char : Char) : DirEntry where
  name := traceCachePrefix ++ [char]
  regular := true
  ctime := 0
  size := 600000

def sliceInfo (entry : DirEntry) : TraceFileInfo where
  filename := entry.path
  fileSize := entry.size

def threeSlices : List TraceFileInfo :=
  [sliceEntry 'a', sliceEntry 'b', sliceEntry 'c'].map sliceInfo

theorem cache_cleaned_by_size_iff_three :
    (clearCacheTraceFileBySize threeSlices 1048576 (fun _ => true)
        { directory := [sliceEntry 'a', sliceEntry 'b', sliceEntry 'c'] }).1 =
      [sliceInfo (sliceEntry 'c')] ∧
    (CleansBySize threeSlices 1048576 (fun _ => true)
        { directory := [sliceEntry 'a', sliceEntry 'b', sliceEntry 'c'] } ↔
      ∀ dropped kept, threeSlices = dropped ++ kept →
        LongestSuffix (1048576 : UInt64).toNat threeSlices kept →
        FailuresHarmless 1048576 (fun _ => true)
          { directory := [sliceEntry 'a', sliceEntry 'b', sliceEntry 'c'] } dropped kept) :=
  ⟨by decide, cache_cleaned_by_size_iff (by decide)⟩

/-- A dump has renamed the oldest slice.  Its size stays in the total, so that all three
entries leave the list and the newest slice is lost. -/
theorem renamed_slice_empties_cache :
    ¬ CleansBySize threeSlices 1048576 (fun _ => true)
      { directory := [sliceEntry 'b', sliceEntry 'c'] } := by
  intro hcleans
  have hempty : (clearCacheTraceFileBySize threeSlices 1048576 (fun _ => true)
      { directory := [sliceEntry 'b', sliceEntry 'c'] }).1 = [] := by decide
  have hlast : [sliceInfo (sliceEntry 'c')] <:+ threeSlices :=
    ⟨[sliceEntry 'a', sliceEntry 'b'].map sliceInfo, rfl⟩
  have hlength := hcleans.longest.longest [sliceInfo (sliceEntry 'c')] hlast (by decide)
  rw [hempty] at hlength
  exact absurd hlength (by decide)

end Size

/-! By age. -/

section Age

def defaultTraceDuration : UInt64 := 30

variable (currentTime : UInt64) (removable : List Char → Bool)

/-- The loop of `ClearCacheTraceFileByDuration`, which erases the entry at `index` or goes
on to the next one; `turns` bounds the number of its rounds. -/
def clearOldCacheFiles : Nat → Nat → List TraceFileInfo → FileSystem →
    List TraceFileInfo × FileSystem
  | 0, _, cacheFileVec, files => (cacheFileVec, files)
  | turns + 1, index, cacheFileVec, files =>
      match cacheFileVec[index]? with
      | none => (cacheFileVec, files)
      | some info =>
          if info.traceEndTime < currentTime - defaultTraceDuration ∨
              info.traceEndTime > currentTime then
            let files :=
              if removes removable files info.filename then files.remove info.filename
              else files
            clearOldCacheFiles turns index (cacheFileVec.eraseIdx index) files
          else clearOldCacheFiles turns (index + 1) cacheFileVec files

/-- `currentTime` is `std::time`, in seconds. -/
def clearCacheTraceFileByDuration (cacheFileVec : List TraceFileInfo) (files : FileSystem) :
    List TraceFileInfo × FileSystem :=
  clearOldCacheFiles currentTime removable cacheFileVec.length 0 cacheFileVec files

/-- The test that keeps an entry. -/
def keepsEntry (info : TraceFileInfo) : Bool :=
  !decide (info.traceEndTime < currentTime - defaultTraceDuration ∨
    info.traceEndTime > currentTime)

variable {currentTime removable} {files : FileSystem}

/-- Every round takes one entry: the entries in front of `index` have passed the test. -/
theorem clearOldCacheFiles_eq (front rest : List TraceFileInfo) (files : FileSystem) :
    clearOldCacheFiles currentTime removable rest.length front.length (front ++ rest) files =
      (front ++ rest.filter (keepsEntry currentTime),
        (removeAll removable (rest.filter fun info => !keepsEntry currentTime info)
          files).2) := by
  induction rest generalizing front files with
  | nil => simp [clearOldCacheFiles, removeAll]
  | cons info rest ih =>
      have hget : (front ++ info :: rest)[front.length]? = some info := by simp
      have herase : (front ++ info :: rest).eraseIdx front.length = front ++ rest := by
        rw [List.eraseIdx_append_of_length_le (le_refl _), Nat.sub_self, List.eraseIdx_cons_zero]
      rw [List.length_cons, clearOldCacheFiles, hget]
      dsimp only
      by_cases hold : info.traceEndTime < currentTime - defaultTraceDuration ∨
          info.traceEndTime > currentTime
      · have hkeeps : keepsEntry currentTime info = false := by
          rw [keepsEntry, decide_eq_true hold, Bool.not_true]
        rw [if_pos hold, herase, ih, List.filter_cons_of_neg (by simp [hkeeps]),
          List.filter_cons_of_pos (by simp [hkeeps])]
        cases hremoves : removes removable files info.filename with
        | true => rw [removeAll_of_removes hremoves, if_pos rfl]
        | false => rw [removeAll_of_fails hremoves, if_neg Bool.false_ne_true]
      · have hkeeps : keepsEntry currentTime info = true := by
          rw [keepsEntry, decide_eq_false hold, Bool.not_false]
        have hnext := ih (front ++ [info]) files
        rw [List.length_append, List.length_singleton, List.append_assoc, List.append_assoc,
          List.singleton_append, List.singleton_append] at hnext
        rw [if_neg hold, hnext, List.filter_cons_of_pos hkeeps,
          List.filter_cons_of_neg (by simp [hkeeps])]

theorem clearCacheTraceFileByDuration_eq (cacheFileVec : List TraceFileInfo)
    (files : FileSystem) :
    clearCacheTraceFileByDuration currentTime removable cacheFileVec files =
      (cacheFileVec.filter (keepsEntry currentTime),
        (removeAll removable (cacheFileVec.filter fun info => !keepsEntry currentTime info)
          files).2) :=
  clearOldCacheFiles_eq [] cacheFileVec files

variable (currentTime)

/-- The trace ends within the last 30 seconds; its times are milliseconds. -/
def EndsRecently (info : TraceFileInfo) : Prop :=
  currentTime.toNat * 1000 ≤ info.traceEndTime.toNat + 30 * 1000 ∧
    info.traceEndTime.toNat ≤ currentTime.toNat * 1000

instance (info : TraceFileInfo) : Decidable (EndsRecently currentTime info) :=
  inferInstanceAs (Decidable (_ ∧ _))

/-- The list keeps the recent entries, and only files of others are gone. -/
structure CleansByAge (removable : List Char → Bool) (cacheFileVec : List TraceFileInfo)
    (files : FileSystem) : Prop where
  entries : (clearCacheTraceFileByDuration currentTime removable cacheFileVec files).1 =
    cacheFileVec.filter fun info => decide (EndsRecently currentTime info)
  removed : ∀ path, files.fileExists path = true →
    (clearCacheTraceFileByDuration currentTime removable cacheFileVec
      files).2.fileExists path = false →
    ∃ info ∈ cacheFileVec, info.filename = path ∧ ¬ EndsRecently currentTime info

/-- The end of the trace is in neither of two windows: that of the last 30 seconds, and the
one of which the code takes the seconds for milliseconds.  Up to the 30th second of the epoch
the windows are not apart. -/
def OutsideBoth (info : TraceFileInfo) : Prop :=
  if currentTime.toNat < 30 then currentTime.toNat * 1000 < info.traceEndTime.toNat
  else if currentTime.toNat = 30 then
    info.traceEndTime.toNat ≤ 30 ∨ 30 * 1000 < info.traceEndTime.toNat
  else
    ¬ EndsRecently currentTime info ∧
      (info.traceEndTime.toNat + 30 < currentTime.toNat ∨
        currentTime.toNat < info.traceEndTime.toNat)

variable {currentTime}

theorem keepsEntry_iff (info : TraceFileInfo) :
    keepsEntry currentTime info = true ↔
      30 ≤ currentTime.toNat ∧ currentTime.toNat ≤ info.traceEndTime.toNat + 30 ∧
        info.traceEndTime.toNat ≤ currentTime.toNat := by
  have hend := info.traceEndTime.toNat_lt
  have hnow := currentTime.toNat_lt
  have hthirty : defaultTraceDuration.toNat = 30 := rfl
  rw [keepsEntry, Bool.not_eq_true', decide_eq_false_iff_not, not_or, UInt64.lt_iff_toNat_lt,
    gt_iff_lt, UInt64.lt_iff_toNat_lt, UInt64.toNat_sub, hthirty]
  omega

theorem keepsEntry_eq_iff (info : TraceFileInfo) :
    keepsEntry currentTime info = decide (EndsRecently currentTime info) ↔
      OutsideBoth currentTime info := by
  rw [Bool.eq_iff_iff, keepsEntry_iff, decide_eq_true_iff, OutsideBoth]
  split
  · rw [EndsRecently]
    omega
  · split
    · rw [EndsRecently]
      omega
    · rw [EndsRecently]
      omega

theorem cache_cleaned_by_age_iff {removable : List Char → Bool}
    {cacheFileVec : List TraceFileInfo} :
    CleansByAge currentTime removable cacheFileVec files ↔
      ∀ info ∈ cacheFileVec, OutsideBoth currentTime info := by
  constructor
  · intro hcleans info hinfo
    have hentries := hcleans.entries
    rw [clearCacheTraceFileByDuration_eq] at hentries
    have hmem : info ∈ cacheFileVec.filter (keepsEntry currentTime) ↔
        info ∈ cacheFileVec.filter fun info => decide (EndsRecently currentTime info) := by
      rw [← hentries]
    rw [List.mem_filter, List.mem_filter, and_congr_right_iff] at hmem
    exact (keepsEntry_eq_iff info).mp (Bool.eq_iff_iff.mpr (hmem hinfo))
  · intro houtside
    constructor
    · rw [clearCacheTraceFileByDuration_eq]
      apply List.filter_congr
      intro info hinfo
      exact (keepsEntry_eq_iff info).mpr (houtside info hinfo)
    · intro path hexists hgone
      rw [clearCacheTraceFileByDuration_eq, ← Bool.not_eq_true, fileExists_removeAll] at hgone
      have hremoved := (not_and_not_right.mp hgone) hexists
      obtain ⟨info, hinfo, hname⟩ := mem_names.mp hremoved.1
      obtain ⟨hlisted, hdropped⟩ := List.mem_filter.mp hinfo
      refine ⟨info, hlisted, hname, ?_⟩
      rw [(keepsEntry_eq_iff info).mpr (houtside info hlisted), Bool.not_eq_true',
        decide_eq_false_iff_not] at hdropped
      exact hdropped

/-- A slice that ended ten seconds ago, in milliseconds, is taken for one of the future. -/
theorem recent_slice_is_removed :
    ¬ CleansByAge 1700000000 (fun _ => true)
      [{ sliceInfo (sliceEntry 'a') with traceEndTime := 1699999990000 }]
      { directory := [sliceEntry 'a'] } := by
  intro hcleans
  have hentries := hcleans.entries
  revert hentries
  decide

end Age

end CacheFiles

end Hitrace
