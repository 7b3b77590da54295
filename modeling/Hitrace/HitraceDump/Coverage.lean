import Hitrace.HitraceDump.RetInfo

namespace Hitrace

/-! Which files a request selects and how much of its time they cover, beside the
same counted without a limit on the numbers. -/

/-- The file is in order, shorter than 2000 s, and meets the interval. -/
def TraceFileInfo.Meets (file : TraceFileInfo) (startMs endMs : Nat) : Prop :=
  file.traceStartTime.toNat ≤ file.traceEndTime.toNat ∧
    file.traceEndTime.toNat - file.traceStartTime.toNat < 2000 * 1000 ∧
    startMs ≤ file.traceEndTime.toNat ∧ file.traceStartTime.toNat ≤ endMs

instance (file : TraceFileInfo) (startMs endMs : Nat) :
    Decidable (file.Meets startMs endMs) :=
  inferInstanceAs (Decidable (_ ∧ _))

/-- How much of the interval, with its tolerance, the file covers. -/
def TraceFileInfo.coveredMs (file : TraceFileInfo) (startMs endMs : Nat) : Nat :=
  min file.traceEndTime.toNat (endMs + 100) -
    max file.traceStartTime.toNat (startMs - 100)

namespace DumpGlobals

variable (globals : DumpGlobals)

def startMs : Nat := globals.utDestTraceStartTime.toNat * 1000

def endMs : Nat := globals.utDestTraceEndTime.toNat * 1000

/-- The test of `GetTraceFileFromVec`, for a file that exists. -/
def Selects (file : TraceFileInfo) : Prop :=
  file.traceEndTime ≥ globals.utDestTraceStartTime * sToMs ∧
    file.traceStartTime ≤ globals.utDestTraceEndTime * sToMs ∧
    file.traceEndTime - file.traceStartTime < 2000 * sToMs

instance (file : TraceFileInfo) : Decidable (globals.Selects file) :=
  inferInstanceAs (Decidable (_ ∧ _))

/-- What a selected file adds, as a number of 64 bits. -/
def added (file : TraceFileInfo) : UInt64 :=
  min file.traceEndTime (globals.utDestTraceEndTime * sToMs + durationTolerance) -
    max file.traceStartTime (globals.utDestTraceStartTime * sToMs - durationTolerance)

/-- The files that `SearchTraceFiles` puts into `targetFiles`. -/
def targetFiles (environment : FileEnvironment) (cacheFiles : List TraceFileInfo) :
    List TraceFileInfo :=
  (getTraceFileFromVec environment globals.utDestTraceStartTime
      globals.utDestTraceEndTime globals.traceFileVec).2 ++
    (getTraceFileFromVec environment globals.utDestTraceStartTime
      globals.utDestTraceEndTime cacheFiles).2

/-- What one file adds to `coverDuration`. -/
def contribution (environment : FileEnvironment) (file : TraceFileInfo) : Int32 :=
  (getTraceFileFromVec environment globals.utDestTraceStartTime
    globals.utDestTraceEndTime [file]).1

/-- The existing files that meet the wanted time. -/
def meetingFiles (environment : FileEnvironment) (cacheFiles : List TraceFileInfo) :
    List TraceFileInfo :=
  (globals.traceFileVec ++ cacheFiles).filter fun file =>
    environment.fileExists file.filename &&
      decide (file.Meets globals.startMs globals.endMs)

variable {globals} {environment : FileEnvironment}

/-! The selection. -/

theorem getTraceFileFromVec_files (files : List TraceFileInfo) :
    (getTraceFileFromVec environment globals.utDestTraceStartTime
      globals.utDestTraceEndTime files).2 =
        files.filter fun file =>
          environment.fileExists file.filename && decide (globals.Selects file) := by
  induction files with
  | nil => rfl
  | cons file rest ih =>
      rw [List.filter_cons, getTraceFileFromVec]
      simp only [Bool.and_eq_true, decide_eq_true_eq]
      split
      · next hselected =>
        rw [if_pos (show _ ∧ globals.Selects file from hselected)]
        exact congrArg (file :: ·) ih
      · next hselected =>
        rw [if_neg (show ¬ (_ ∧ globals.Selects file) from hselected)]
        exact ih

theorem toNat_startMs :
    (globals.utDestTraceStartTime * sToMs).toNat = globals.startMs % 2 ^ 64 :=
  UInt64.toNat_mul _ _

theorem toNat_endMs :
    (globals.utDestTraceEndTime * sToMs).toNat = globals.endMs % 2 ^ 64 :=
  UInt64.toNat_mul _ _

theorem InOrder.span (horder : globals.InOrder) :
    1000 ≤ globals.startMs ∧
      (globals.endMs = 0 ∧ globals.startMs = 1000 ∨
        globals.startMs ≤ globals.endMs ∧ globals.endMs < globals.startMs + 2 ^ 42) := by
  unfold InOrder at horder
  unfold startMs endMs
  omega

/-- The remainders are no further apart than the ends of the interval. -/
theorem InOrder.remainders (horder : globals.InOrder) :
    globals.endMs % 2 ^ 64 < globals.startMs % 2 ^ 64 + 2 ^ 42 := by
  have hspan := horder.span
  have hstart := Nat.div_add_mod globals.startMs (2 ^ 64)
  have hend := Nat.div_add_mod globals.endMs (2 ^ 64)
  omega

/-- The code looks at the interval modulo 2^64. -/
theorem selects_iff (horder : globals.InOrder) (file : TraceFileInfo) :
    globals.Selects file ↔
      file.Meets (globals.startMs % 2 ^ 64) (globals.endMs % 2 ^ 64) := by
  have hlimit : (2000 * sToMs).toNat = 2000 * 1000 := rfl
  have hfirst := file.traceStartTime.toNat_lt
  have hlast := file.traceEndTime.toNat_lt
  have hclose := horder.remainders
  unfold Selects TraceFileInfo.Meets
  simp only [ge_iff_le, UInt64.le_iff_toNat_le, UInt64.lt_iff_toNat_lt, toNat_startMs,
    toNat_endMs, hlimit, UInt64.toNat_sub]
  generalize globals.startMs % 2 ^ 64 = start at hclose ⊢
  generalize globals.endMs % 2 ^ 64 = stop at hclose ⊢
  omega

/-- An interval that runs past 2^64 is never met together with its remainder. -/
theorem not_meets_both (horder : globals.InOrder) (hwraps : 2 ^ 64 ≤ globals.endMs)
    {file : TraceFileInfo} (hmeets : file.Meets globals.startMs globals.endMs) :
    ¬ file.Meets (globals.startMs % 2 ^ 64) (globals.endMs % 2 ^ 64) := by
  have hlast := file.traceEndTime.toNat_lt
  have hspan := horder.span
  unfold TraceFileInfo.Meets at hmeets ⊢
  omega

theorem mem_targetFiles (horder : globals.InOrder) {cacheFiles : List TraceFileInfo}
    {file : TraceFileInfo} :
    file ∈ globals.targetFiles environment cacheFiles ↔
      file ∈ globals.traceFileVec ++ cacheFiles ∧
        environment.fileExists file.filename = true ∧
        file.Meets (globals.startMs % 2 ^ 64) (globals.endMs % 2 ^ 64) := by
  rw [targetFiles, getTraceFileFromVec_files, getTraceFileFromVec_files,
    ← List.filter_append, List.mem_filter, Bool.and_eq_true, decide_eq_true_eq,
    selects_iff horder]

theorem mem_meetingFiles {cacheFiles : List TraceFileInfo} {file : TraceFileInfo} :
    file ∈ globals.meetingFiles environment cacheFiles ↔
      file ∈ globals.traceFileVec ++ cacheFiles ∧
        environment.fileExists file.filename = true ∧
        file.Meets globals.startMs globals.endMs := by
  rw [meetingFiles, List.mem_filter, Bool.and_eq_true, decide_eq_true_eq]

theorem targetFiles_eq (horder : globals.InOrder) (hfits : globals.endMs < 2 ^ 64)
    (cacheFiles : List TraceFileInfo) :
    globals.targetFiles environment cacheFiles =
      globals.meetingFiles environment cacheFiles := by
  have hspan := horder.span
  rw [targetFiles, getTraceFileFromVec_files, getTraceFileFromVec_files,
    ← List.filter_append, meetingFiles]
  apply List.filter_congr
  intro file _
  have hsame : globals.Selects file ↔ file.Meets globals.startMs globals.endMs := by
    rw [selects_iff horder, Nat.mod_eq_of_lt hfits,
      Nat.mod_eq_of_lt (show globals.startMs < 2 ^ 64 by omega)]
  simp only [hsame]

/-! What the selected files add. -/

theorem toNat_min (left right : UInt64) :
    (min left right).toNat = min left.toNat right.toNat := by
  have hmin : min left right = if left ≤ right then left else right := rfl
  rw [hmin]
  split
  · next hle => exact (Nat.min_eq_left (UInt64.le_iff_toNat_le.mp hle)).symm
  · next hle =>
    rw [UInt64.le_iff_toNat_le] at hle
    exact (Nat.min_eq_right (by omega)).symm

theorem toNat_max (left right : UInt64) :
    (max left right).toNat = max left.toNat right.toNat := by
  have hmax : max left right = if left ≤ right then right else left := rfl
  rw [hmax]
  split
  · next hle => exact (Nat.max_eq_right (UInt64.le_iff_toNat_le.mp hle)).symm
  · next hle =>
    rw [UInt64.le_iff_toNat_le] at hle
    exact (Nat.max_eq_left (by omega)).symm

/-- The tolerance does not wrap either, as 2^64 is no multiple of a second. -/
theorem toNat_tolerance (horder : globals.InOrder) (hfits : globals.endMs < 2 ^ 64) :
    (globals.utDestTraceEndTime * sToMs + durationTolerance).toNat =
        globals.endMs + 100 ∧
      (globals.utDestTraceStartTime * sToMs - durationTolerance).toNat =
        globals.startMs - 100 := by
  have htolerance : durationTolerance.toNat = 100 := rfl
  have hspan := horder.span
  have hseconds : globals.endMs % 1000 = 0 := Nat.mul_mod_left _ _
  rw [UInt64.toNat_add, UInt64.toNat_sub, toNat_endMs, toNat_startMs, htolerance]
  omega

theorem toNat_added (horder : globals.InOrder) (hend : 0 < globals.endMs)
    (hfits : globals.endMs < 2 ^ 64) {file : TraceFileInfo}
    (hmeets : file.Meets globals.startMs globals.endMs) :
    (globals.added file).toNat = file.coveredMs globals.startMs globals.endMs := by
  obtain ⟨hstop, hstart⟩ := toNat_tolerance horder hfits
  have hspan := horder.span
  have hlast := file.traceEndTime.toNat_lt
  unfold TraceFileInfo.Meets at hmeets
  rw [added, UInt64.toNat_sub_of_le, toNat_min, toNat_max, hstop, hstart]
  · rfl
  · rw [UInt64.le_iff_toNat_le, toNat_min, toNat_max, hstop, hstart]
    omega

theorem coveredMs_lt {file : TraceFileInfo} {startMs endMs : Nat}
    (hmeets : file.Meets startMs endMs) : file.coveredMs startMs endMs < 2000 * 1000 := by
  unfold TraceFileInfo.Meets at hmeets
  unfold TraceFileInfo.coveredMs
  omega

theorem getTraceFileFromVec_cons (file : TraceFileInfo) (rest : List TraceFileInfo) :
    (getTraceFileFromVec environment globals.utDestTraceStartTime
      globals.utDestTraceEndTime (file :: rest)).1 =
        (if environment.fileExists file.filename = true ∧ globals.Selects file then
          toInt32 (globals.added file) else 0) +
        (getTraceFileFromVec environment globals.utDestTraceStartTime
          globals.utDestTraceEndTime rest).1 := by
  rw [getTraceFileFromVec]
  dsimp only
  split
  · next hselected =>
    rw [if_pos (show _ ∧ globals.Selects file from hselected)]
    rfl
  · next hselected =>
    rw [if_neg (show ¬ (_ ∧ globals.Selects file) from hselected), Int32.zero_add]

theorem contribution_eq (file : TraceFileInfo) :
    globals.contribution environment file =
      if environment.fileExists file.filename = true ∧ globals.Selects file then
        toInt32 (globals.added file) else 0 := by
  rw [contribution, getTraceFileFromVec_cons]
  exact Int32.add_zero _

/-- The sum of 32 bits is the sum without a limit, modulo 2^32. -/
theorem getTraceFileFromVec_duration {files : List TraceFileInfo}
    (hadded : ∀ file ∈ files, environment.fileExists file.filename = true →
      globals.Selects file → (globals.added file).toNat =
        file.coveredMs globals.startMs globals.endMs) :
    (getTraceFileFromVec environment globals.utDestTraceStartTime
      globals.utDestTraceEndTime files).1 =
        Int32.ofNat (((getTraceFileFromVec environment globals.utDestTraceStartTime
          globals.utDestTraceEndTime files).2.map fun file =>
            file.coveredMs globals.startMs globals.endMs).sum) := by
  induction files with
  | nil => rfl
  | cons file rest ih =>
      have hrest := ih fun other hother => hadded other (List.mem_cons_of_mem _ hother)
      rw [getTraceFileFromVec_cons, hrest, getTraceFileFromVec_files,
        getTraceFileFromVec_files, List.filter_cons]
      simp only [Bool.and_eq_true, decide_eq_true_eq]
      split
      · next hselected =>
        rw [List.map_cons, List.sum_cons, Int32.ofNat_add, toInt32_eq,
          hadded file List.mem_cons_self hselected.1 hselected.2]
      · rw [Int32.zero_add]

variable (globals) in
/-- A file that a request treats wrongly: the interval ends with the epoch, or it runs
past 2^64 milliseconds and is cut down to its remainders. -/
def Misreads (file : TraceFileInfo) : Prop :=
  globals.endMs = 0 ∧ file.Meets globals.startMs globals.endMs ∨
    2 ^ 64 ≤ globals.endMs ∧
      (file.Meets globals.startMs globals.endMs ∨
        file.Meets (globals.startMs % 2 ^ 64) (globals.endMs % 2 ^ 64))

instance (file : TraceFileInfo) : Decidable (globals.Misreads file) :=
  inferInstanceAs (Decidable (_ ∨ _))

variable (globals) (environment) in
def Harmless (cacheFiles : List TraceFileInfo) : Prop :=
  ∀ file ∈ globals.traceFileVec ++ cacheFiles,
    environment.fileExists file.filename = true → ¬ globals.Misreads file

variable {cacheFiles : List TraceFileInfo}

/-- Where the interval is out of range, no file is found at all. -/
theorem Harmless.targetFiles (hharmless : globals.Harmless environment cacheFiles)
    (horder : globals.InOrder) :
    0 < globals.endMs ∧ globals.endMs < 2 ^ 64 ∨
      globals.targetFiles environment cacheFiles = [] ∧
        globals.meetingFiles environment cacheFiles = [] := by
  rcases Nat.eq_zero_or_pos globals.endMs with hzero | hpositive
  · right
    have hspan := horder.span
    have hstart : globals.startMs % 2 ^ 64 = globals.startMs := by omega
    have hend : globals.endMs % 2 ^ 64 = globals.endMs := by omega
    refine ⟨List.eq_nil_iff_forall_not_mem.mpr fun file hfile => ?_,
      List.eq_nil_iff_forall_not_mem.mpr fun file hfile => ?_⟩
    · obtain ⟨hlisted, hexists, hmeets⟩ := (mem_targetFiles horder).mp hfile
      rw [hstart, hend] at hmeets
      exact hharmless file hlisted hexists (.inl ⟨hzero, hmeets⟩)
    · obtain ⟨hlisted, hexists, hmeets⟩ := mem_meetingFiles.mp hfile
      exact hharmless file hlisted hexists (.inl ⟨hzero, hmeets⟩)
  · rcases Nat.lt_or_ge globals.endMs (2 ^ 64) with hfits | hwraps
    · exact .inl ⟨hpositive, hfits⟩
    · right
      refine ⟨List.eq_nil_iff_forall_not_mem.mpr fun file hfile => ?_,
        List.eq_nil_iff_forall_not_mem.mpr fun file hfile => ?_⟩
      · obtain ⟨hlisted, hexists, hmeets⟩ := (mem_targetFiles horder).mp hfile
        exact hharmless file hlisted hexists (.inr ⟨hwraps, .inr hmeets⟩)
      · obtain ⟨hlisted, hexists, hmeets⟩ := mem_meetingFiles.mp hfile
        exact hharmless file hlisted hexists (.inr ⟨hwraps, .inl hmeets⟩)

theorem added_selected (horder : globals.InOrder) (hend : 0 < globals.endMs)
    (hfits : globals.endMs < 2 ^ 64) {file : TraceFileInfo}
    (hselected : globals.Selects file) :
    (globals.added file).toNat = file.coveredMs globals.startMs globals.endMs ∧
      (globals.added file).toNat < 2000 * 1000 := by
  have hspan := horder.span
  rw [selects_iff horder, Nat.mod_eq_of_lt hfits,
    Nat.mod_eq_of_lt (show globals.startMs < 2 ^ 64 by omega)] at hselected
  have hadded := toNat_added horder hend hfits hselected
  exact ⟨hadded, hadded ▸ coveredMs_lt hselected⟩

/-- With the epoch as its end, an interval ends before it starts, and what a file adds
is negative. -/
theorem contribution_neg (horder : globals.InOrder) (hend : globals.endMs = 0)
    {file : TraceFileInfo} (hexists : environment.fileExists file.filename = true)
    (hmeets : file.Meets globals.startMs globals.endMs) :
    globals.contribution environment file < 0 := by
  have hspan := horder.span
  have hselected : globals.Selects file := by
    rw [selects_iff horder]
    have hstart : globals.startMs % 2 ^ 64 = globals.startMs := by omega
    rw [hstart, Nat.mod_eq_of_lt (show globals.endMs < 2 ^ 64 by omega)]
    exact hmeets
  have hadded : globals.added file = UInt64.ofNat (2 ^ 64 - 800) := by
    obtain ⟨hstop, hstart⟩ := toNat_tolerance horder (by omega)
    have hvalue : (UInt64.ofNat (2 ^ 64 - 800)).toNat = 2 ^ 64 - 800 := rfl
    unfold TraceFileInfo.Meets at hmeets
    apply UInt64.toNat_inj.mp
    rw [added, UInt64.toNat_sub, toNat_min, toNat_max, hstop, hstart, hvalue]
    omega
  rw [contribution_eq, if_pos ⟨hexists, hselected⟩, hadded]
  decide

theorem selection_right_iff (horder : globals.InOrder) :
    (globals.targetFiles environment cacheFiles =
        globals.meetingFiles environment cacheFiles ∧
      ∀ file ∈ globals.targetFiles environment cacheFiles,
        0 ≤ globals.contribution environment file) ↔
      globals.Harmless environment cacheFiles := by
  have hspan := horder.span
  constructor
  · rintro ⟨hright, hadds⟩ file hlisted hexists (⟨hend, hmeets⟩ | ⟨hwraps, hmeets⟩)
    · have htarget : file ∈ globals.targetFiles environment cacheFiles := by
        rw [hright]
        exact mem_meetingFiles.mpr ⟨hlisted, hexists, hmeets⟩
      exact absurd (hadds file htarget)
        (Int32.not_le.mpr (contribution_neg horder hend hexists hmeets))
    · have hboth : file ∈ globals.targetFiles environment cacheFiles ∧
          file ∈ globals.meetingFiles environment cacheFiles := by
        rcases hmeets with hmeets | hmeets
        · have hmem := mem_meetingFiles.mpr ⟨hlisted, hexists, hmeets⟩
          exact ⟨hright ▸ hmem, hmem⟩
        · have hmem := (mem_targetFiles horder).mpr ⟨hlisted, hexists, hmeets⟩
          exact ⟨hmem, hright ▸ hmem⟩
      obtain ⟨_, _, hremainder⟩ := (mem_targetFiles horder).mp hboth.1
      obtain ⟨_, _, hexact⟩ := mem_meetingFiles.mp hboth.2
      exact not_meets_both horder hwraps hexact hremainder
  · intro hharmless
    rcases hharmless.targetFiles horder with ⟨hend, hfits⟩ | ⟨htarget, hmeeting⟩
    · refine ⟨targetFiles_eq horder hfits cacheFiles, fun file hfile => ?_⟩
      rw [contribution_eq]
      split
      · next hselected =>
        have hsmall := (added_selected horder hend hfits hselected.2).2
        rw [toInt32_eq]
        exact Int32.zero_le_ofNat_of_lt (by omega)
      · exact Int32.le_refl 0
    · refine ⟨htarget.trans hmeeting.symm, fun file hfile => ?_⟩
      rw [htarget] at hfile
      cases hfile

end DumpGlobals

/-! The answer. -/

open DumpGlobals

theorem zero_le_ofNat_iff (number : Nat) :
    0 ≤ Int32.ofNat number ↔ number % 2 ^ 32 < 2 ^ 31 := by
  have hzero : (0 : Int32).toInt = 0 := rfl
  have hsize : Int32.size = 2 ^ 32 := rfl
  rw [Int32.le_iff_toInt_le, hzero, Int32.toInt_ofNat', hsize, Int.bmod_def]
  split <;> omega

/-- The milliseconds that the files found cover together. -/
def DumpGlobals.foundMs (globals : DumpGlobals) (environment : FileEnvironment)
    (cacheFiles : List TraceFileInfo) : Nat :=
  ((globals.meetingFiles environment cacheFiles).map fun file =>
    file.coveredMs globals.startMs globals.endMs).sum

theorem searchTraceFiles_coverDuration {globals : DumpGlobals}
    {environment : FileEnvironment} {cacheFiles : List TraceFileInfo}
    (horder : globals.InOrder) (hharmless : globals.Harmless environment cacheFiles)
    (ret : TraceRetInfo) :
    (searchTraceFiles environment cacheFiles globals ret).2.coverDuration =
      ret.coverDuration + Int32.ofNat (globals.foundMs environment cacheFiles) := by
  obtain ⟨hright, _⟩ := (selection_right_iff horder).mpr hharmless
  have hduration : ∀ files, files ⊆ globals.traceFileVec ++ cacheFiles →
      (getTraceFileFromVec environment globals.utDestTraceStartTime
        globals.utDestTraceEndTime files).1 =
          Int32.ofNat (((getTraceFileFromVec environment globals.utDestTraceStartTime
            globals.utDestTraceEndTime files).2.map fun file =>
              file.coveredMs globals.startMs globals.endMs).sum) := by
    intro files hsubset
    apply getTraceFileFromVec_duration
    intro file hfile hexists hselected
    rcases hharmless.targetFiles horder with ⟨hend, hfits⟩ | ⟨htarget, _⟩
    · exact (added_selected horder hend hfits hselected).1
    · have hmem := (mem_targetFiles horder).mpr
        ⟨hsubset hfile, hexists, (selects_iff horder file).mp hselected⟩
      rw [htarget] at hmem
      cases hmem
  have hret := (returnTargetFiles_ret environment
    (globals.targetFiles environment cacheFiles) globals.traceFileVec ret).2.2.1
  rw [searchTraceFiles, foundMs, ← hright, targetFiles, List.map_append,
    List.sum_append, Int32.ofNat_add, ← hduration _ (List.subset_append_left _ _),
    ← hduration _ (List.subset_append_right _ _)]
  exact congrArg (· + _) hret

namespace DumpTraceCall

variable (call : DumpTraceCall) (trace : TraceGlobals) (globals : DumpGlobals)

/-- The checks of `DumpTrace` pass. -/
def passes : Bool :=
  (bootTraceArbShouldReturnLocked call.boot false).isNone &&
    (call.outputPath.isEmpty || isWritable call.outputPath) &&
    (trace.checkTraceDumpStatus call.maxDuration call.isTracingOn).isNone

/-- The milliseconds of the new file, when it is recorded. -/
def ownMs (retVal : TraceDumpRet) : Nat :=
  if (syncFileInfo call.files retVal.outputFile call.outputPath
      (({} : DumpGlobals).epollWaitforChildProcess retVal)).isSome then
    retVal.traceEndTime.toNat / 1000000 - retVal.traceStartTime.toNat / 1000000
  else 0

/-! The request, from the arguments of the call. -/

/-- The last second; an end that is not set is the current one. -/
def requestedEnd : Nat :=
  if call.utTraceEndTime = 0 then call.currentTime.toNat else call.utTraceEndTime.toNat

/-- The seconds up to the end; a duration that is not set is the default one. -/
def requestedSeconds : Nat :=
  if call.maxDuration = 0 then 30 else call.maxDuration.toNat

/-- The file is in order, shorter than 2000 s, and meets the requested seconds, of which
the first may lie before the epoch. -/
def Wants (file : TraceFileInfo) : Prop :=
  file.traceStartTime.toNat ≤ file.traceEndTime.toNat ∧
    file.traceEndTime.toNat - file.traceStartTime.toNat < 2000 * 1000 ∧
    ((call.requestedEnd : Int) - call.requestedSeconds) * 1000 ≤ file.traceEndTime.toNat ∧
    file.traceStartTime.toNat ≤ call.requestedEnd * 1000

instance (file : TraceFileInfo) : Decidable (call.Wants file) :=
  inferInstanceAs (Decidable (_ ∧ _))

/-- The files that the search goes through. -/
def listedFiles : List TraceFileInfo :=
  (FileAgeing.handleAgeing call.ageing globals.traceFileVec call.directory).1 ++
    call.cacheFiles

/-- The existing files that meet the request. -/
def wantedFiles : List TraceFileInfo :=
  (call.listedFiles globals).filter fun file =>
    call.files.fileExists file.filename && decide (call.Wants file)

/-- The time before the first second after the epoch is not counted. -/
def countedStart : Nat :=
  max 1 (call.requestedEnd - call.requestedSeconds)

/-- The milliseconds of the request that the wanted files cover together. -/
def foundMs : Nat :=
  ((call.wantedFiles globals).map fun file =>
    file.coveredMs (call.countedStart * 1000) (call.requestedEnd * 1000)).sum

/-- A file that the call treats wrongly: it lies in the first second after the epoch, or
the request ends with the epoch, or the request runs past 2^64 milliseconds and is cut
down to its remainders. -/
def Misreads (file : TraceFileInfo) : Prop :=
  call.requestedEnd ≤ call.requestedSeconds ∧ call.Wants file ∧
      (call.requestedEnd = 0 ∨ file.traceEndTime.toNat < 1000) ∨
    2 ^ 64 ≤ call.requestedEnd * 1000 ∧
      (call.Wants file ∨
        file.Meets ((call.requestedEnd - call.requestedSeconds) * 1000 % 2 ^ 64)
          (call.requestedEnd * 1000 % 2 ^ 64))

instance (file : TraceFileInfo) : Decidable (call.Misreads file) :=
  inferInstanceAs (Decidable (_ ∨ _))

def Harmless : Prop :=
  ∀ file ∈ call.listedFiles globals,
    call.files.fileExists file.filename = true → ¬ call.Misreads file

/-- The milliseconds that the call gathers, without a limit. -/
def gatheredMs : Nat :=
  let found := call.foundMs globals
  if isCacheOn trace.traceMode then found
  else if call.boundary ≠ .success then 0
  else
    match call.dumped with
    | .error _ => 0
    | .ok retVal => found + call.ownMs retVal

/-- The selection of the call is the exact one, every file of it adds something, and
the answer is within its limits. -/
structure CoversRight : Prop where
  selected : (call.requested globals).targetFiles call.files call.cacheFiles =
    call.wantedFiles globals
  contributes : ∀ file ∈ (call.requested globals).targetFiles call.files call.cacheFiles,
    0 ≤ (call.requested globals).contribution call.files file
  coverDuration : 0 ≤ (call.dumpTrace trace globals).2.coverDuration ∧
    (call.dumpTrace trace globals).2.coverDuration ≤ 30000
  coverRatio : 0 ≤ (call.dumpTrace trace globals).2.coverRatio ∧
    (call.dumpTrace trace globals).2.coverRatio ≤ 1000

variable {call trace globals}

theorem requested_inOrder : (call.requested globals).InOrder :=
  setDestTraceTimeAndDuration_inOrder _ _ _ _

/-! The globals of the call hold the request, but for what is before the epoch. -/

theorem requested_endMs : (call.requested globals).endMs = call.requestedEnd * 1000 := by
  unfold endMs requestedEnd requested setDestTraceTimeAndDuration
  dsimp only
  split <;> rfl

theorem requestedSeconds_lt : call.requestedSeconds < 2 ^ 32 := by
  have hlt := call.maxDuration.toNat_lt
  unfold requestedSeconds
  split <;> omega

theorem requested_startMs (hmax : call.maxDuration.toNat ≠ 2 ^ 32 - 1) :
    (call.requested globals).startMs = call.countedStart * 1000 := by
  have hduration : (if call.maxDuration = 0 ∨ call.maxDuration.toNat = 2 ^ 32 - 1 then
      defaultFullTraceLength.toUInt32 else call.maxDuration).toUInt64.toNat =
        call.requestedSeconds := by
    rw [requestedSeconds]
    by_cases hzero : call.maxDuration = 0
    · rw [if_pos (.inl hzero), if_pos hzero]
      rfl
    · rw [if_neg (not_or.mpr ⟨hzero, hmax⟩), if_neg hzero]
      exact UInt32.toNat_toUInt64 _
  have hend : (if call.utTraceEndTime = 0 then call.currentTime
      else call.utTraceEndTime).toNat = call.requestedEnd := by
    unfold requestedEnd
    split <;> rfl
  unfold startMs countedStart requested setDestTraceTimeAndDuration
  dsimp only
  rw [← hduration, ← hend]
  generalize (if call.maxDuration = 0 ∨ call.maxDuration.toNat = 2 ^ 32 - 1 then
    defaultFullTraceLength.toUInt32 else call.maxDuration).toUInt64 = seconds
  generalize (if call.utTraceEndTime = 0 then call.currentTime
    else call.utTraceEndTime) = stop
  have hone : (1 : UInt64).toNat = 1 := rfl
  split
  · next hshort =>
    rw [UInt64.le_iff_toNat_le] at hshort
    rw [hone]
    omega
  · next hlong =>
    rw [UInt64.le_iff_toNat_le] at hlong
    rw [UInt64.toNat_sub_of_le _ _ (UInt64.le_iff_toNat_le.mpr (by omega))]
    omega

section Requested

variable (hmax : call.maxDuration.toNat ≠ 2 ^ 32 - 1)
include hmax

theorem meets_requested_iff (file : TraceFileInfo) :
    file.Meets (call.requested globals).startMs (call.requested globals).endMs ↔
      call.Wants file ∧
        (call.requestedEnd ≤ call.requestedSeconds → 1000 ≤ file.traceEndTime.toNat) := by
  rw [requested_startMs hmax, requested_endMs]
  unfold TraceFileInfo.Meets Wants countedStart
  omega

theorem misreads_of_requested {file : TraceFileInfo}
    (hmisreads : (call.requested globals).Misreads file) : call.Misreads file := by
  have hseconds : call.requestedSeconds < 2 ^ 32 := requestedSeconds_lt
  unfold DumpGlobals.Misreads at hmisreads
  rw [meets_requested_iff hmax, requested_startMs hmax, requested_endMs] at hmisreads
  rcases hmisreads with ⟨hzero, hwants, _⟩ | ⟨hwraps, hmeets⟩
  · exact .inl ⟨by omega, hwants, .inl (by omega)⟩
  · refine .inr ⟨hwraps, hmeets.imp And.left fun hremainder => ?_⟩
    have hcounted : call.countedStart = call.requestedEnd - call.requestedSeconds := by
      unfold countedStart
      omega
    rw [hcounted] at hremainder
    exact hremainder

theorem requested_of_misreads {file : TraceFileInfo} (hmisreads : call.Misreads file)
    (hlate : call.Wants file → call.requestedEnd ≤ call.requestedSeconds →
      1000 ≤ file.traceEndTime.toNat) : (call.requested globals).Misreads file := by
  have hseconds : call.requestedSeconds < 2 ^ 32 := requestedSeconds_lt
  unfold DumpGlobals.Misreads
  rw [meets_requested_iff hmax, requested_startMs hmax, requested_endMs]
  rcases hmisreads with ⟨hshort, hwants, hearly⟩ | ⟨hwraps, hmeets⟩
  · have hend := hlate hwants hshort
    exact .inl ⟨by omega, hwants, hlate hwants⟩
  · refine .inr ⟨hwraps, hmeets.imp (fun hwants => ⟨hwants, hlate hwants⟩)
      fun hremainder => ?_⟩
    have hcounted : call.countedStart = call.requestedEnd - call.requestedSeconds := by
      unfold countedStart
      omega
    rw [hcounted]
    exact hremainder

/-- Without a file in the first second the files found are the wanted ones. -/
theorem meetingFiles_eq
    (hlate : ∀ file ∈ call.listedFiles globals, call.files.fileExists file.filename = true →
      call.Wants file → call.requestedEnd ≤ call.requestedSeconds →
        1000 ≤ file.traceEndTime.toNat) :
    (call.requested globals).meetingFiles call.files call.cacheFiles =
      call.wantedFiles globals := by
  refine List.filter_congr fun file hfile => ?_
  cases hexists : call.files.fileExists file.filename with
  | false => rfl
  | true =>
      rw [Bool.true_and, Bool.true_and, decide_eq_decide, meets_requested_iff hmax]
      exact and_iff_left_of_imp (hlate file hfile hexists)

theorem late_of_selected
    (hselected : (call.requested globals).targetFiles call.files call.cacheFiles =
      call.wantedFiles globals) :
    ∀ file ∈ call.listedFiles globals, call.files.fileExists file.filename = true →
      call.Wants file → call.requestedEnd ≤ call.requestedSeconds →
        1000 ≤ file.traceEndTime.toNat := by
  intro file hfile hexists hwants hshort
  have hseconds : call.requestedSeconds < 2 ^ 32 := requestedSeconds_lt
  have htarget : file ∈ (call.requested globals).targetFiles call.files call.cacheFiles := by
    rw [hselected]
    refine List.mem_filter.mpr ⟨hfile, ?_⟩
    rw [hexists, decide_eq_true hwants]
    rfl
  obtain ⟨_, _, hmeets⟩ := (mem_targetFiles requested_inOrder).mp htarget
  have hstart := @requested_startMs call globals hmax
  have hcounted : call.countedStart = 1 := by
    unfold countedStart
    omega
  have hfirst := hmeets.2.2.1
  rw [hstart, hcounted] at hfirst
  exact hfirst

theorem wanted_right_iff :
    ((call.requested globals).targetFiles call.files call.cacheFiles =
        call.wantedFiles globals ∧
      ∀ file ∈ (call.requested globals).targetFiles call.files call.cacheFiles,
        0 ≤ (call.requested globals).contribution call.files file) ↔
      call.Harmless globals := by
  have hselection := @selection_right_iff (call.requested globals) call.files
    call.cacheFiles requested_inOrder
  constructor
  · rintro ⟨hselected, hcontributes⟩ file hfile hexists hmisreads
    have hlate := late_of_selected hmax hselected
    have hharmless := hselection.mp
      ⟨hselected.trans (meetingFiles_eq hmax hlate).symm, hcontributes⟩
    exact hharmless file hfile hexists
      (requested_of_misreads hmax hmisreads (hlate file hfile hexists))
  · intro hharmless
    have hlate : ∀ file ∈ call.listedFiles globals,
        call.files.fileExists file.filename = true → call.Wants file →
          call.requestedEnd ≤ call.requestedSeconds → 1000 ≤ file.traceEndTime.toNat := by
      intro file hfile hexists hwants hshort
      by_contra hearly
      exact hharmless file hfile hexists (.inl ⟨hshort, hwants, .inr (by omega)⟩)
    obtain ⟨hselected, hcontributes⟩ := hselection.mpr fun file hfile hexists hmisreads =>
      hharmless file hfile hexists (misreads_of_requested hmax hmisreads)
    exact ⟨hselected.trans (meetingFiles_eq hmax hlate), hcontributes⟩

theorem requested_foundMs
    (hwanted : (call.requested globals).meetingFiles call.files call.cacheFiles =
      call.wantedFiles globals) :
    (call.requested globals).foundMs call.files call.cacheFiles = call.foundMs globals := by
  rw [DumpGlobals.foundMs, foundMs, hwanted, requested_startMs hmax, requested_endMs]

end Requested

theorem maxDuration_of_passes (hpasses : call.passes trace = true) :
    call.maxDuration.toNat ≠ 2 ^ 32 - 1 := by
  intro hmax
  simp only [passes, Bool.and_eq_true, Option.isNone_iff_eq_none] at hpasses
  have hstatus := hpasses.2
  rw [TraceGlobals.checkTraceDumpStatus, if_pos hmax] at hstatus
  split at hstatus
  · cases hstatus
  · cases hstatus

theorem dumpTrace_passed (hpasses : call.passes trace = true) :
    call.dumpTrace trace globals =
      call.dumpRequested trace globals { mode := trace.traceMode } := by
  simp only [passes, Bool.and_eq_true, Option.isNone_iff_eq_none] at hpasses
  obtain ⟨⟨hboot, hpath⟩, hstatus⟩ := hpasses
  have hwritable : (!call.outputPath.isEmpty && !isWritable call.outputPath) = false := by
    rw [← Bool.not_or, hpath]
    rfl
  rw [dumpTrace, hboot]
  simp [hwritable, hstatus]

theorem toInt32_own {retVal : TraceDumpRet} {globals : DumpGlobals}
    {info : TraceFileInfo}
    (hinfo : syncFileInfo call.files retVal.outputFile call.outputPath
      (globals.epollWaitforChildProcess retVal) = some info) :
    toInt32 (info.traceEndTime - info.traceStartTime) =
      Int32.ofNat (call.ownMs retVal) := by
  obtain ⟨hless, hstart, hend⟩ := syncFileInfo_range _ hinfo
  have hsome : syncFileInfo call.files retVal.outputFile call.outputPath
      (({} : DumpGlobals).epollWaitforChildProcess retVal) = some info := hinfo
  have hms : msToNs.toNat = 1000000 := rfl
  have hle : retVal.traceStartTime.toNat ≤ retVal.traceEndTime.toNat :=
    Nat.le_of_lt (UInt64.lt_iff_toNat_lt.mp hless)
  rw [ownMs, hsome, Option.isSome_some, if_pos rfl, hstart, hend,
    FileEnvironment.convertPageTraceTimeToUtTimeMs_sub, toInt32_eq]
  apply congrArg Int32.ofNat
  rw [UInt64.toNat_sub_of_le, UInt64.toNat_div, UInt64.toNat_div, hms]
  · rfl
  · rw [UInt64.le_iff_toNat_le, UInt64.toNat_div, UInt64.toNat_div]
    exact Nat.div_le_div_right hle

theorem dumpSync_coverDuration {globals : DumpGlobals} {retVal : TraceDumpRet}
    (horder : globals.InOrder)
    (hharmless : globals.Harmless call.files call.cacheFiles)
    (hdumped : call.dumped = .ok retVal) (ret : LoadedRetInfo) :
    (call.dumpSync globals ret).2.coverDuration =
      ret.coverDuration + Int32.ofNat
        (globals.foundMs call.files call.cacheFiles + call.ownMs retVal) := by
  have hsearched := @searchTraceFiles_coverDuration
    (globals.epollWaitforChildProcess retVal) _ _ horder hharmless ret.toTraceRetInfo
  have hfound : (globals.epollWaitforChildProcess retVal).foundMs call.files
      call.cacheFiles = globals.foundMs call.files call.cacheFiles := rfl
  rw [dumpSync, hdumped, Int32.ofNat_add, ← Int32.add_assoc, ← hfound, ← hsearched]
  dsimp only
  rw [processDumpSync, handleDumpResult]
  generalize hresult : searchTraceFiles call.files call.cacheFiles
    (globals.epollWaitforChildProcess retVal) ret.toTraceRetInfo = result
  have hsame : syncFileInfo call.files retVal.outputFile call.outputPath result.1 =
      syncFileInfo call.files retVal.outputFile call.outputPath
        (globals.epollWaitforChildProcess retVal) := by
    rw [← hresult]
    rfl
  obtain ⟨after, found⟩ := result
  dsimp only at hsame ⊢
  rw [hsame]
  cases hinfo : syncFileInfo call.files retVal.outputFile call.outputPath
      (globals.epollWaitforChildProcess retVal) with
  | none =>
      have hnone : call.ownMs retVal = 0 := by
        have hown : syncFileInfo call.files retVal.outputFile call.outputPath
            (({} : DumpGlobals).epollWaitforChildProcess retVal) = none := hinfo
        rw [ownMs, hown]
        rfl
      rw [hnone]
      exact (Int32.add_zero _).symm
  | some info =>
      rw [← toInt32_own hinfo]
      rfl

theorem dumpTrace_bounds (hpasses : call.passes trace = true)
    (hharmless : (call.requested globals).Harmless call.files call.cacheFiles)
    (hfound : (call.requested globals).foundMs call.files call.cacheFiles =
      call.foundMs globals) :
    ((0 ≤ (call.dumpTrace trace globals).2.coverDuration ∧
          (call.dumpTrace trace globals).2.coverDuration ≤ 30000) ∧
        0 ≤ (call.dumpTrace trace globals).2.coverRatio ∧
          (call.dumpTrace trace globals).2.coverRatio ≤ 1000) ↔
      call.gatheredMs trace globals % 2 ^ 32 < 2 ^ 31 := by
  have horder : (call.requested globals).InOrder := requested_inOrder
  have hcommitted : (call.requested globals).committedDuration ≤
      defaultFullTraceLength := by
    rw [Int32.le_iff_toInt_le, committedDuration, toInt_min]
    exact Int.min_le_left _ _
  rw [dumpTrace_passed hpasses, dumpRequested, gatheredMs, ← zero_le_ofNat_iff, ← hfound]
  dsimp only
  cases isCacheOn trace.traceMode with
  | true =>
      rw [if_pos rfl, if_pos rfl]
      apply (LoadedRetInfo.sanitized_bounds _ trace hcommitted).trans
      have hsum := searchTraceFiles_coverDuration horder hharmless {}
      rw [Int32.zero_add] at hsum
      rw [← hsum]
      rfl
  | false =>
      simp only [Bool.false_eq_true, if_false]
      split
      · have hempty : ((0 : Int32) ≤ 0 ∧ (0 : Int32) ≤ 30000) ∧
            (0 : Int32) ≤ 0 ∧ (0 : Int32) ≤ 1000 := by decide
        exact iff_of_true hempty (Int32.le_refl 0)
      · apply (LoadedRetInfo.sanitized_bounds _ trace hcommitted).trans
        cases hdumped : call.dumped with
        | error code =>
            rw [dumpSync, hdumped]
            exact iff_of_true (Int32.le_refl 0) (Int32.le_refl 0)
        | ok retVal =>
            have hsum := @dumpSync_coverDuration call
              { call.requested globals with
                firstPageTimestamp := UInt64.ofNat (UInt64.size - 1)
                lastPageTimestamp := 0 } retVal horder hharmless hdumped
              { mode := trace.traceMode }
            rw [hsum, Int32.zero_add]
            rfl

theorem bounds_of_harmless (hpasses : call.passes trace = true)
    (hharmless : call.Harmless globals) :
    ((0 ≤ (call.dumpTrace trace globals).2.coverDuration ∧
          (call.dumpTrace trace globals).2.coverDuration ≤ 30000) ∧
        0 ≤ (call.dumpTrace trace globals).2.coverRatio ∧
          (call.dumpTrace trace globals).2.coverRatio ≤ 1000) ↔
      call.gatheredMs trace globals % 2 ^ 32 < 2 ^ 31 := by
  have hmax := maxDuration_of_passes hpasses
  obtain ⟨hselected, hcontributes⟩ := (wanted_right_iff hmax).mpr hharmless
  have hmeeting := meetingFiles_eq hmax (late_of_selected hmax hselected)
  have hrequested := (selection_right_iff requested_inOrder).mp
    ⟨hselected.trans hmeeting.symm, hcontributes⟩
  exact dumpTrace_bounds hpasses hrequested (requested_foundMs hmax hmeeting)

/-- The requests and files for which selection and coverage are right. -/
theorem covers_right_iff (hpasses : call.passes trace = true) :
    call.CoversRight trace globals ↔
      call.Harmless globals ∧ call.gatheredMs trace globals % 2 ^ 32 < 2 ^ 31 := by
  have hwanted := @wanted_right_iff call globals (maxDuration_of_passes hpasses)
  constructor
  · intro hright
    have hharmless := hwanted.mp ⟨hright.selected, hright.contributes⟩
    exact ⟨hharmless, (bounds_of_harmless hpasses hharmless).mp
      ⟨hright.coverDuration, hright.coverRatio⟩⟩
  · rintro ⟨hharmless, hgathered⟩
    obtain ⟨hselected, hcontributes⟩ := hwanted.mpr hharmless
    obtain ⟨hduration, hratio⟩ := (bounds_of_harmless hpasses hharmless).mpr hgathered
    exact ⟨hselected, hcontributes, hduration, hratio⟩

/-- A request of the seconds up to `utTraceEndTime`, while the cache is on and holds a
slice of one second. -/
def cachedRequest (utTraceEndTime sliceStart : UInt64) : DumpTraceCall where
  utTraceEndTime
  currentTime := 5000
  ageing := { param := {} }
  files :=
    { clockOffset := 0
      localTime := fun _ => none
      fileExists := fun _ => true
      isDirectory := fun _ => false
      renames := fun _ _ => true
      fileSize := fun _ => none }
  cacheFiles :=
    [{ filename := "cache_slice.sys".toList
       traceStartTime := sliceStart
       traceEndTime := sliceStart + 1000 }]
  dumped := .error .fileError

def cachingTrace : TraceGlobals where
  traceMode := TraceMode.modeOpen ||| TraceMode.modeCache

/-- Twenty seconds, with a slice inside of them and one before. -/
def twoSlices : DumpTraceCall :=
  { cachedRequest 1000 985000 with
    maxDuration := 20
    cacheFiles := (cachedRequest 1000 985000).cacheFiles ++
      (cachedRequest 1000 970000).cacheFiles }

theorem covers_right_iff_slices :
    twoSlices.passes cachingTrace = true ∧
      twoSlices.wantedFiles {} = (cachedRequest 1000 985000).cacheFiles ∧
      twoSlices.CoversRight cachingTrace {} :=
  ⟨by decide, by decide +kernel, (covers_right_iff (by decide)).mpr ⟨by
    unfold Harmless
    decide +kernel, by decide +kernel⟩⟩

theorem late_slice_is_missed :
    (cachedRequest 18446744073709552 18446744073709523000).passes cachingTrace = true ∧
      ¬ (cachedRequest 18446744073709552 18446744073709523000).CoversRight
        cachingTrace {} := by
  refine ⟨by decide, fun hright => ?_⟩
  exact absurd hright.selected (by decide +kernel)

end DumpTraceCall

end Hitrace
