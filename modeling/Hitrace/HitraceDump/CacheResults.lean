import Hitrace.HitraceDump.CacheFiles

namespace Hitrace

open Library

/-! What a dump in cache mode returns: every file once, and only files that exist. -/

/-- The name that `RenameCacheFile` wants for a file. -/
def newFilePath (cacheFile : List Char) : Option (List Char) :=
  (findWord cacheFilePrefix (cacheFile.drop (baseNameStart cacheFile))).map fun pos =>
    cacheFile.take (baseNameStart cacheFile) ++
      (cacheFile.drop (baseNameStart cacheFile)).drop (pos + cacheFilePrefix.length)

theorem FileEnvironment.renameCacheFile_of_newFilePath {environment : FileEnvironment}
    {cacheFile new : List Char} (hnew : newFilePath cacheFile = some new)
    (hrenames : environment.renames cacheFile new = true) :
    environment.renameCacheFile cacheFile = new := by
  obtain ⟨pos, hpos, rfl⟩ := Option.map_eq_some_iff.mp hnew
  simp only [FileEnvironment.renameCacheFile, hpos]
  rw [if_pos hrenames]

theorem length_le_baseNameStart (directory name : List Char) :
    (directory ++ ['/']).length ≤ baseNameStart (directory ++ ['/'] ++ name) := by
  have htake : ∀ reversed : List Char,
      ((reversed ++ '/' :: directory.reverse).takeWhile (· ≠ '/')).length ≤
        reversed.length := by
    intro reversed
    induction reversed with
    | nil => simp
    | cons head rest ih =>
        simp only [List.cons_append, List.takeWhile_cons]
        split
        · simpa using ih
        · simp
  have hbound := htake name.reverse
  have hreverse : (directory ++ ['/'] ++ name).reverse =
      name.reverse ++ '/' :: directory.reverse := by
    simp
  rw [baseNameStart, hreverse]
  simp only [List.length_append, List.length_reverse] at hbound ⊢
  omega

theorem path_of_newFilePath {entry : DirEntry} {new : List Char}
    (hnew : newFilePath entry.path = some new) :
    traceFileDefaultDir ++ new.drop traceFileDefaultDir.length = new := by
  obtain ⟨pos, _, rfl⟩ := Option.map_eq_some_iff.mp hnew
  have hstart : traceFileDefaultDir.length ≤ baseNameStart entry.path :=
    length_le_baseNameStart "/data/log/hitrace".toList entry.name
  generalize (entry.path.drop (baseNameStart entry.path)).drop
    (pos + cacheFilePrefix.length) = rest
  generalize baseNameStart entry.path = start at hstart
  obtain ⟨more, rfl⟩ := Nat.exists_eq_add_of_le hstart
  simp [DirEntry.path, List.take_append]

section Search

variable {environment : FileEnvironment} {utStart utEnd : UInt64}

theorem getTraceFileFromVec_sublist (fileVec : List TraceFileInfo) :
    (getTraceFileFromVec environment utStart utEnd fileVec).2.Sublist fileVec := by
  induction fileVec with
  | nil => simp [getTraceFileFromVec]
  | cons file rest ih =>
      simp only [getTraceFileFromVec]
      split
      · exact ih.cons_cons file
      · exact ih.cons file

theorem fileExists_of_mem_getTraceFileFromVec {fileVec : List TraceFileInfo}
    {file : TraceFileInfo}
    (hmem : file ∈ (getTraceFileFromVec environment utStart utEnd fileVec).2) :
    environment.fileExists file.filename = true := by
  induction fileVec with
  | nil => simp [getTraceFileFromVec] at hmem
  | cons head rest ih =>
      simp only [getTraceFileFromVec] at hmem
      split at hmem
      · rename_i hfound
        rcases List.mem_cons.mp hmem with rfl | hrest
        · exact hfound.1
        · exact ih hrest
      · exact ih hmem

end Search

namespace FileAgeing

variable {environment : AgeingEnvironment}

theorem handleCheck_sublist (checkType : CheckType) (fileList : List TraceFileInfo)
    (directory : List DirEntry) :
    (handleCheck environment checkType fileList directory).1.Sublist fileList := by
  unfold handleCheck
  split
  · unfold handleAgeingSnapShort
    simp only []
    split
    · exact List.Sublist.refl fileList
    · exact List.filter_sublist
  · exact List.Sublist.refl fileList

theorem handleAgeing_sublist (fileList : List TraceFileInfo) (directory : List DirEntry) :
    (handleAgeing environment fileList directory).1.Sublist fileList := by
  unfold handleAgeing
  exact (handleCheck_sublist .fileSize _ _).trans (handleCheck_sublist .fileNumber _ _)

end FileAgeing

namespace CacheFiles

variable {files : FileSystem} {path : List Char}

theorem mem_names {fileVec : List TraceFileInfo} :
    path ∈ names fileVec ↔ ∃ file ∈ fileVec, file.filename = path :=
  List.mem_map

@[simp] theorem names_append (first second : List TraceFileInfo) :
    names (first ++ second) = names first ++ names second :=
  List.map_append

@[simp] theorem names_cons (file : TraceFileInfo) (rest : List TraceFileInfo) :
    names (file :: rest) = file.filename :: names rest :=
  rfl

@[simp] theorem names_nil : names [] = [] :=
  rfl

theorem names_sublist {first second : List TraceFileInfo} (hsublist : first.Sublist second) :
    (names first).Sublist (names second) :=
  hsublist.map TraceFileInfo.filename

namespace FileSystem

theorem fileExists_iff :
    files.fileExists path = true ↔
      (∃ entry ∈ files.directory, entry.path = path) ∨ path ∈ files.elsewhere := by
  simp [fileExists, List.any_eq_true]

theorem fileExists_store_self (files : FileSystem) (entry : DirEntry) :
    (files.store entry).fileExists entry.path = true := by
  refine fileExists_iff.mpr (Or.inl ⟨entry, ?_, rfl⟩)
  simp [store]

theorem fileExists_store (entry : DirEntry) (hexists : files.fileExists path = true) :
    (files.store entry).fileExists path = true := by
  by_cases hpath : entry.path = path
  · rw [← hpath]
    exact fileExists_store_self files entry
  · rcases fileExists_iff.mp hexists with ⟨other, hmem, rfl⟩ | helsewhere
    · refine fileExists_iff.mpr (Or.inl ⟨other, ?_, rfl⟩)
      apply List.mem_append_left
      simpa [hmem] using fun heq => hpath heq.symm
    · exact fileExists_iff.mpr (Or.inr helsewhere)

theorem fileExists_remove {removed : List Char} (hpath : path ≠ removed)
    (hexists : files.fileExists path = true) :
    (files.remove removed).fileExists path = true := by
  rcases fileExists_iff.mp hexists with ⟨entry, hmem, rfl⟩ | helsewhere
  · refine fileExists_iff.mpr (Or.inl ⟨entry, ?_, rfl⟩)
    simpa [remove, hmem] using hpath
  · refine fileExists_iff.mpr (Or.inr ?_)
    simpa [remove, helsewhere] using hpath

theorem fileExists_rename {old new : List Char} (hold : path ≠ old) (hnew : path ≠ new)
    (hexists : files.fileExists path = true) :
    (files.rename old new).fileExists path = true := by
  unfold rename
  split
  · exact hexists
  · rcases fileExists_iff.mp hexists with ⟨entry, hmem, rfl⟩ | helsewhere
    · refine fileExists_iff.mpr (Or.inl ⟨entry, ?_, rfl⟩)
      refine List.mem_map.mpr ⟨entry, ?_, if_neg hold⟩
      simpa [hmem] using hnew
    · refine fileExists_iff.mpr (Or.inr ?_)
      refine List.mem_map.mpr ⟨path, ?_, if_neg hold⟩
      simpa [helsewhere] using hnew

theorem fileExists_rename_new {old new : List Char} (hnew : newFilePath old = some new)
    (hexists : files.fileExists old = true) :
    (files.rename old new).fileExists new = true := by
  unfold rename
  split
  · rename_i hsame
    rw [← hsame]
    exact hexists
  · rename_i hdiffer
    rcases fileExists_iff.mp hexists with ⟨entry, hmem, rfl⟩ | helsewhere
    · refine fileExists_iff.mpr (Or.inl ⟨_, List.mem_map.mpr ⟨entry, ?_, rfl⟩, ?_⟩)
      · simpa [hmem] using hdiffer
      · rw [if_pos rfl]
        exact path_of_newFilePath hnew
    · refine fileExists_iff.mpr (Or.inr (List.mem_map.mpr ⟨old, ?_, if_pos rfl⟩))
      simpa [helsewhere] using hdiffer

end FileSystem

section Clearing

variable {fileSizeLimit : Int} {removable : List Char → Bool}

theorem clearCacheFiles_sublist (total : Int) (cacheFileVec : List TraceFileInfo)
    (files : FileSystem) :
    (clearCacheFiles fileSizeLimit removable total cacheFileVec files).1.Sublist
      cacheFileVec := by
  induction cacheFileVec generalizing total files with
  | nil => simp [clearCacheFiles]
  | cons info rest ih =>
      simp only [clearCacheFiles]
      split
      · split
        · exact (ih _ _).cons info
        · exact (ih _ _).cons info
      · exact List.Sublist.refl _

/-- Only files of the list are removed. -/
theorem fileExists_clearCacheFiles (total : Int) {cacheFileVec : List TraceFileInfo}
    (hpath : path ∉ names cacheFileVec) (hexists : files.fileExists path = true) :
    (clearCacheFiles fileSizeLimit removable total cacheFileVec files).2.fileExists path =
      true := by
  induction cacheFileVec generalizing total files with
  | nil => exact hexists
  | cons info rest ih =>
      simp only [names_cons, List.mem_cons, not_or] at hpath
      simp only [clearCacheFiles]
      split
      · split
        · exact ih _ hpath.2 (FileSystem.fileExists_remove hpath.1 hexists)
        · exact ih _ hpath.2 hexists
      · exact hexists

theorem clearCacheFiles_of_le {total : Int} (hlimit : total ≤ fileSizeLimit)
    (cacheFileVec : List TraceFileInfo) (files : FileSystem) :
    clearCacheFiles fileSizeLimit removable total cacheFileVec files =
      (cacheFileVec, files) := by
  cases cacheFileVec with
  | nil => rfl
  | cons info rest => exact if_neg (not_lt.mpr hlimit)

end Clearing

theorem findWord_slice (slice : CacheSlice) :
    (findWord cacheFilePrefix slice.info.filename).isSome = true :=
  rfl

/-- The record of a slice is the one that `SetFileInfo` makes of the file that the thread
has written. -/
theorem setFileInfo_slice (slice : CacheSlice) (written : List Char)
    {environment : FileEnvironment} (hclock : environment.clockOffset = slice.clockOffset)
    (htime : environment.localTime
      (environment.convertPageTraceTimeToUtTimeMs slice.range.firstPageTimestamp / sToMs) =
        some slice.timeBuf)
    (hrenames : ∀ old new, environment.renames old new = true)
    (hsize : environment.fileSize slice.info.filename = some slice.size) :
    environment.setFileInfo true
        (traceFileDefaultDir ++ cacheFilePrefix ++ traceSnapshotPrefix ++ written)
        slice.range = some slice.info := by
  have hindex : findWord traceSnapshotPrefix
      (traceFileDefaultDir ++ cacheFilePrefix ++ traceSnapshotPrefix ++ written) =
        some 24 :=
    rfl
  have hname : environment.regenerateTraceFileName
      (traceFileDefaultDir ++ cacheFilePrefix ++ traceSnapshotPrefix ++ written)
      slice.range.firstPageTimestamp
      ((slice.range.lastPageTimestamp - slice.range.firstPageTimestamp) / msToNs) [] =
        slice.info.filename := by
    simp only [FileEnvironment.regenerateTraceFileName, hindex, htime]
    rfl
  have hordered : ¬slice.range.firstPageTimestamp ≥ slice.range.lastPageTimestamp :=
    UInt64.not_le.mpr slice.ordered
  have hrename : environment.renameTraceFile
      (traceFileDefaultDir ++ cacheFilePrefix ++ traceSnapshotPrefix ++ written)
      slice.range [] = some slice.info.filename := by
    simp only [FileEnvironment.renameTraceFile, hname, hrenames]
    rw [if_neg hordered]
    rfl
  simp only [FileEnvironment.setFileInfo, FileEnvironment.getFileSize, hrename, if_true,
    Option.map_some, hsize, FileEnvironment.convertPageTraceTimeToUtTimeMs, hclock]
  rfl

/-- The lists have no name twice and none in common; the call returns different files, all
of them there, and those it has returned or found without the prefix are in the vector. -/
structure Sound (state : State) : Prop where
  recorded : (names state.traceFileVec).Nodup
  cached : (names state.cacheTraceFiles).Nodup
  sliced : ∀ path ∈ names state.cacheTraceFiles,
    path ∈ state.sliceNames ∧ (findWord cacheFilePrefix path).isSome = true
  apart : ∀ path ∈ names state.traceFileVec, path ∉ names state.cacheTraceFiles
  distinct : (state.call.outputFiles ++ names state.call.pending).Nodup
  present : ∀ path ∈ state.call.outputFiles ++ names state.call.pending,
    state.files.fileExists path = true
  returned : ∀ path ∈ state.call.outputFiles, path ∈ names state.traceFileVec
  searched : ∀ path ∈ names state.call.pending,
    (findWord cacheFilePrefix path).isSome = false → path ∈ names state.traceFileVec
  searching : ∀ utStart utEnd coverDuration targetFiles,
    state.call = .searching utStart utEnd coverDuration targetFiles →
      ∀ path ∈ names targetFiles, path ∈ names state.traceFileVec

/-- A slice has a name that is not in the vector; a clearing has nothing to remove, or no
slice that a call has yet to return; and a file whose name has the prefix is renamed, to a
name that is in none of the lists. -/
def Allowed (state : State) : Label → Prop
  | .appendSlice slice => slice.info.filename ∉ names state.traceFileVec
  | .clearCacheTraceFileBySize fileSizeLimit _ =>
      totalFileSize state.cacheTraceFiles ≤ fileSizeLimit.toInt64.toInt ∨
        ∀ path ∈ names state.call.pending, path ∉ names state.cacheTraceFiles
  | .returnFile renamed =>
      ∀ file ∈ state.call.pending.head?,
        (findWord cacheFilePrefix file.filename).isSome = true →
          renamed = true ∧ ∃ new ∈ newFilePath file.filename,
            new ∉ names state.traceFileVec ∧ new ∉ names state.cacheTraceFiles ∧
              new ∉ names state.call.pending.tail
  | _ => True

instance decidableAllowed (state : State) : ∀ label, Decidable (Allowed state label)
  | .appendSlice slice =>
      inferInstanceAs (Decidable (slice.info.filename ∉ names state.traceFileVec))
  | .clearCacheTraceFileBySize fileSizeLimit _ =>
      inferInstanceAs (Decidable
        (totalFileSize state.cacheTraceFiles ≤ fileSizeLimit.toInt64.toInt ∨
          ∀ path ∈ names state.call.pending, path ∉ names state.cacheTraceFiles))
  | .returnFile renamed =>
      inferInstanceAs (Decidable (∀ file ∈ state.call.pending.head?,
        (findWord cacheFilePrefix file.filename).isSome = true →
          renamed = true ∧ ∃ new ∈ newFilePath file.filename,
            new ∉ names state.traceFileVec ∧ new ∉ names state.cacheTraceFiles ∧
              new ∉ names state.call.pending.tail))
  | .refuseDump _ | .beginDump .. | .getCacheTraceFiles | .finishDump => isTrue trivial

section Steps

variable {state : State}

theorem sound_start (hstart : machine.init state) : Sound state := by
  obtain ⟨hrecorded, hcached, _, hcall⟩ := hstart
  refine ⟨hrecorded, ?_, ?_, ?_, ?_, ?_, ?_, ?_, ?_⟩
  all_goals simp [hcached, hcall, names, Call.outputFiles, Call.pending]

theorem sound_appendSlice (hsound : Sound state) {slice : CacheSlice}
    (hfresh : slice.info.filename ∉ state.sliceNames)
    (hvector : slice.info.filename ∉ names state.traceFileVec) :
    Sound (state.appendSlice slice) where
  recorded := hsound.recorded
  cached := by
    have hnew : slice.info.filename ∉ names state.cacheTraceFiles :=
      fun hmem => hfresh (hsound.sliced _ hmem).1
    simp only [State.appendSlice, names_append, names_cons, names_nil]
    rw [← List.concat_eq_append]
    exact hsound.cached.concat hnew
  sliced := by
    intro path hmem
    simp only [State.appendSlice, names_append, names_cons, names_nil, List.mem_append,
      List.mem_singleton] at hmem
    rcases hmem with hmem | rfl
    · exact ⟨List.mem_cons_of_mem _ (hsound.sliced path hmem).1, (hsound.sliced path hmem).2⟩
    · exact ⟨List.mem_cons_self, findWord_slice slice⟩
  apart := by
    intro path hmem hcache
    simp only [State.appendSlice, names_append, names_cons, names_nil, List.mem_append,
      List.mem_singleton] at hcache
    rcases hcache with hcache | rfl
    · exact hsound.apart path hmem hcache
    · exact hvector hmem
  distinct := hsound.distinct
  present := fun path hmem =>
    FileSystem.fileExists_store slice.entry (hsound.present path hmem)
  returned := hsound.returned
  searched := hsound.searched
  searching := hsound.searching

theorem fileExists_clearCache (hsound : Sound state) {fileSizeLimit : UInt64}
    (removable : List Char → Bool)
    (hallowed : totalFileSize state.cacheTraceFiles ≤ fileSizeLimit.toInt64.toInt ∨
      ∀ path ∈ names state.call.pending, path ∉ names state.cacheTraceFiles)
    {path : List Char} (hmem : path ∈ state.call.outputFiles ++ names state.call.pending) :
    (state.clearCache fileSizeLimit removable).files.fileExists path = true := by
  have hexists := hsound.present path hmem
  rcases hallowed with hlimit | hpending
  · simp only [State.clearCache, clearCacheTraceFileBySize, clearCacheFiles_of_le hlimit]
    exact hexists
  · have hpath : path ∉ names state.cacheTraceFiles := by
      rcases List.mem_append.mp hmem with houtput | hpend
      · exact hsound.apart path (hsound.returned path houtput)
      · exact hpending path hpend
    exact fileExists_clearCacheFiles _ hpath hexists

theorem sound_clearCache (hsound : Sound state) {fileSizeLimit : UInt64}
    (removable : List Char → Bool)
    (hallowed : totalFileSize state.cacheTraceFiles ≤ fileSizeLimit.toInt64.toInt ∨
      ∀ path ∈ names state.call.pending, path ∉ names state.cacheTraceFiles) :
    Sound (state.clearCache fileSizeLimit removable) := by
  have hsublist : (names (state.clearCache fileSizeLimit removable).cacheTraceFiles).Sublist
      (names state.cacheTraceFiles) :=
    names_sublist (clearCacheFiles_sublist _ _ _)
  exact
    { recorded := hsound.recorded
      cached := hsound.cached.sublist hsublist
      sliced := fun path hmem => hsound.sliced path (hsublist.subset hmem)
      apart := fun path hmem hcache => hsound.apart path hmem (hsublist.subset hcache)
      distinct := hsound.distinct
      present := fun path hmem => fileExists_clearCache hsound removable hallowed hmem
      returned := hsound.returned
      searched := hsound.searched
      searching := hsound.searching }

theorem sound_refuseDump (hsound : Sound state) (errorCode : TraceErrorCode) :
    Sound { state with call := .returned { errorCode } } where
  recorded := hsound.recorded
  cached := hsound.cached
  sliced := hsound.sliced
  apart := hsound.apart
  distinct := List.nodup_nil
  present := by simp [Call.outputFiles, Call.pending]
  returned := by simp [Call.outputFiles]
  searched := by simp [Call.pending]
  searching := by simp

theorem sound_beginDump (hsound : Sound state) (ageing : AgeingEnvironment)
    (utStart utEnd : UInt64) : Sound (state.beginDump ageing utStart utEnd) := by
  have haged : (names (state.beginDump ageing utStart utEnd).traceFileVec).Sublist
      (names state.traceFileVec) :=
    names_sublist (FileAgeing.handleAgeing_sublist _ _)
  have hfound : (names (state.beginDump ageing utStart utEnd).call.pending).Sublist
      (names (state.beginDump ageing utStart utEnd).traceFileVec) :=
    names_sublist (getTraceFileFromVec_sublist _)
  exact
    { recorded := hsound.recorded.sublist haged
      cached := hsound.cached
      sliced := hsound.sliced
      apart := fun path hmem => hsound.apart path (haged.subset hmem)
      distinct := (hsound.recorded.sublist haged).sublist hfound
      present := by
        intro path hmem
        obtain ⟨file, hfile, rfl⟩ := mem_names.mp hmem
        exact fileExists_of_mem_getTraceFileFromVec hfile
      returned := by simp [State.beginDump, Call.outputFiles]
      searched := fun path hmem _ => hfound.subset hmem
      searching := by
        intro utStart utEnd coverDuration targetFiles hcall path hmem
        apply hfound.subset
        rw [hcall]
        exact hmem }

theorem sound_searchCache (hsound : Sound state) {utStart utEnd : UInt64}
    {coverDuration : Int32} {targetFiles : List TraceFileInfo}
    (hcall : state.call = .searching utStart utEnd coverDuration targetFiles) :
    Sound (state.searchCache utStart utEnd coverDuration targetFiles) := by
  have hvector := hsound.searching _ _ _ _ hcall
  have hdistinct := hsound.distinct
  have hpresent := hsound.present
  rw [hcall] at hdistinct hpresent
  have hfound : (names (getTraceFileFromVec (state.files.environment true) utStart utEnd
      state.cacheTraceFiles).2).Sublist (names state.cacheTraceFiles) :=
    names_sublist (getTraceFileFromVec_sublist _)
  exact
    { recorded := hsound.recorded
      cached := hsound.cached
      sliced := hsound.sliced
      apart := hsound.apart
      distinct := by
        simp only [State.searchCache, Call.outputFiles, Call.pending, names_append,
          List.nil_append]
        refine List.nodup_append.mpr ⟨hdistinct, hsound.cached.sublist hfound, ?_⟩
        rintro path hmem other hother rfl
        exact hsound.apart path (hvector path hmem) (hfound.subset hother)
      present := by
        intro path hmem
        simp only [State.searchCache, Call.outputFiles, Call.pending, names_append,
          List.nil_append, List.mem_append] at hmem
        rcases hmem with hmem | hmem
        · exact hpresent path hmem
        · obtain ⟨file, hfile, rfl⟩ := mem_names.mp hmem
          exact fileExists_of_mem_getTraceFileFromVec hfile
      returned := by simp [State.searchCache, Call.outputFiles]
      searched := by
        intro path hmem hword
        simp only [State.searchCache, Call.pending, names_append, List.mem_append] at hmem
        rcases hmem with hmem | hmem
        · exact hvector path hmem
        · rw [(hsound.sliced path (hfound.subset hmem)).2] at hword
          cases hword
      searching := by simp [State.searchCache] }

theorem returnFile_of_plain (state : State) (renamed : Bool) (coverDuration : Int32)
    {file : TraceFileInfo} (rest : List TraceFileInfo) (ret : TraceRetInfo)
    (hplain : (findWord cacheFilePrefix file.filename).isSome = false) :
    state.returnFile renamed coverDuration file rest ret =
      { state with
        call := .returning coverDuration rest
          { ret with
            outputFiles := ret.outputFiles ++ [file.filename]
            fileSize := ret.fileSize + file.fileSize } } := by
  simp [State.returnFile, returnTargetFile, hplain]

theorem returnFile_of_renamed (state : State) (coverDuration : Int32)
    {file : TraceFileInfo} (rest : List TraceFileInfo) (ret : TraceRetInfo)
    {new : List Char} (hcache : (findWord cacheFilePrefix file.filename).isSome = true)
    (hnew : newFilePath file.filename = some new)
    (hexists : state.files.fileExists file.filename = true) :
    state.returnFile true coverDuration file rest ret =
      { state with
        files := state.files.rename file.filename new
        traceFileVec := state.traceFileVec ++ [{ file with filename := new }]
        call := .returning coverDuration rest
          { ret with
            outputFiles := ret.outputFiles ++ [new]
            fileSize := ret.fileSize + file.fileSize } } := by
  have hrename : (state.files.environment true).renameCacheFile file.filename = new :=
    FileEnvironment.renameCacheFile_of_newFilePath hnew hexists
  simp [State.returnFile, returnTargetFile, hcache, hrename]

theorem sound_returnFile_plain (hsound : Sound state) (renamed : Bool)
    {coverDuration : Int32} {file : TraceFileInfo} {rest : List TraceFileInfo}
    {ret : TraceRetInfo} (hcall : state.call = .returning coverDuration (file :: rest) ret)
    (hplain : (findWord cacheFilePrefix file.filename).isSome = false) :
    Sound (state.returnFile renamed coverDuration file rest ret) := by
  obtain ⟨hrecorded, hcached, hsliced, hapart, hdistinct, hpresent, hreturned, hsearched, _⟩ :=
    hsound
  rw [hcall] at hdistinct hpresent hreturned hsearched
  have hmoved : ret.outputFiles ++ [file.filename] ++ names rest =
      ret.outputFiles ++ names (file :: rest) := by
    simp
  rw [returnFile_of_plain state renamed coverDuration rest ret hplain]
  refine ⟨hrecorded, hcached, hsliced, hapart, ?_, ?_, ?_, ?_, by simp⟩
  · change (ret.outputFiles ++ [file.filename] ++ names rest).Nodup
    rw [hmoved]
    exact hdistinct
  · intro path hmem
    change path ∈ ret.outputFiles ++ [file.filename] ++ names rest at hmem
    rw [hmoved] at hmem
    exact hpresent path hmem
  · intro path hmem
    rcases List.mem_append.mp hmem with hmem | hmem
    · exact hreturned path hmem
    · rw [List.mem_singleton.mp hmem]
      exact hsearched file.filename List.mem_cons_self hplain
  · exact fun path hmem => hsearched path (List.mem_cons_of_mem _ hmem)

theorem sound_returnFile_renamed (hsound : Sound state) {coverDuration : Int32}
    {file : TraceFileInfo} {rest : List TraceFileInfo} {ret : TraceRetInfo}
    {new : List Char} (hcall : state.call = .returning coverDuration (file :: rest) ret)
    (hcache : (findWord cacheFilePrefix file.filename).isSome = true)
    (hnew : newFilePath file.filename = some new)
    (hvector : new ∉ names state.traceFileVec)
    (hslices : new ∉ names state.cacheTraceFiles) (hrest : new ∉ names rest) :
    Sound (state.returnFile true coverDuration file rest ret) := by
  obtain ⟨hrecorded, hcached, hsliced, hapart, hdistinct, hpresent, hreturned, hsearched, _⟩ :=
    hsound
  rw [hcall] at hdistinct hpresent hreturned hsearched
  have hexists : state.files.fileExists file.filename = true :=
    hpresent file.filename (List.mem_append_right _ List.mem_cons_self)
  have hfresh : new ∉ ret.outputFiles ++ names rest := by
    rw [List.mem_append]
    rintro (hmem | hmem)
    · exact hvector (hreturned new hmem)
    · exact hrest hmem
  have hothers : (ret.outputFiles ++ names rest).Nodup ∧
      file.filename ∉ ret.outputFiles ++ names rest :=
    List.nodup_middle.mp hdistinct |> List.nodup_cons.mp |>.symm
  have hmoved : (ret.outputFiles ++ [new] ++ names rest).Perm
      (new :: (ret.outputFiles ++ names rest)) := by
    simp
  rw [returnFile_of_renamed state coverDuration rest ret hcache hnew hexists]
  refine ⟨?_, hcached, hsliced, ?_, ?_, ?_, ?_, ?_, by simp⟩
  · simp only [names_append, names_cons, names_nil]
    rw [← List.concat_eq_append]
    exact hrecorded.concat hvector
  · intro path hmem
    simp only [names_append, names_cons, names_nil, List.mem_append, List.mem_singleton] at hmem
    rcases hmem with hmem | rfl
    · exact hapart path hmem
    · exact hslices
  · exact hmoved.nodup_iff.mpr (List.nodup_cons.mpr ⟨hfresh, hothers.1⟩)
  · intro path hmem
    rcases List.mem_cons.mp (hmoved.mem_iff.mp hmem) with rfl | hother
    · exact FileSystem.fileExists_rename_new hnew hexists
    · apply FileSystem.fileExists_rename
      · rintro rfl
        exact hothers.2 hother
      · rintro rfl
        exact hfresh hother
      · apply hpresent
        rcases List.mem_append.mp hother with hmem | hmem
        · exact List.mem_append_left _ hmem
        · exact List.mem_append_right _ (List.mem_cons_of_mem _ hmem)
  · intro path hmem
    simp only [names_append, names_cons, names_nil]
    rcases List.mem_append.mp hmem with hmem | hmem
    · exact List.mem_append_left _ (hreturned path hmem)
    · exact List.mem_append_right _ hmem
  · intro path hmem hword
    simp only [names_append]
    exact List.mem_append_left _ (hsearched path (List.mem_cons_of_mem _ hmem) hword)

theorem sound_finishDump (hsound : Sound state) {coverDuration : Int32}
    {ret : TraceRetInfo} (hcall : state.call = .returning coverDuration [] ret) :
    Sound { state with call := .returned (getFileInCache coverDuration ret) } := by
  obtain ⟨hrecorded, hcached, hsliced, hapart, hdistinct, hpresent, hreturned, _, _⟩ := hsound
  rw [hcall] at hdistinct hpresent hreturned
  exact ⟨hrecorded, hcached, hsliced, hapart, hdistinct, hpresent, hreturned,
    by simp [Call.pending], by simp⟩

theorem sound_step {label : Label} {next : State} (hsound : Sound state)
    (hallowed : Allowed state label) (hstep : state.step label = some next) : Sound next := by
  cases label with
  | appendSlice slice =>
      obtain ⟨hfresh, hnext⟩ := Option.ite_none_left_eq_some.mp hstep
      cases hnext
      exact sound_appendSlice hsound hfresh hallowed
  | clearCacheTraceFileBySize fileSizeLimit removable =>
      cases hstep
      exact sound_clearCache hsound removable hallowed
  | refuseDump errorCode =>
      obtain ⟨_, hnext⟩ := Option.ite_none_left_eq_some.mp hstep
      cases hnext
      exact sound_refuseDump hsound errorCode
  | beginDump ageing utStart utEnd =>
      obtain ⟨_, hnext⟩ := Option.ite_none_left_eq_some.mp hstep
      cases hnext
      exact sound_beginDump hsound ageing utStart utEnd
  | getCacheTraceFiles =>
      simp only [State.step] at hstep
      split at hstep
      · rename_i hcall
        cases hstep
        exact sound_searchCache hsound hcall
      · cases hstep
  | returnFile renamed =>
      simp only [State.step] at hstep
      split at hstep
      · rename_i coverDuration file rest ret hcall
        cases hstep
        simp only [Allowed, hcall, Call.pending, List.head?_cons, List.tail_cons,
          Option.mem_def, Option.some.injEq, forall_eq'] at hallowed
        cases hword : (findWord cacheFilePrefix file.filename).isSome with
        | false => exact sound_returnFile_plain hsound renamed hcall hword
        | true =>
            obtain ⟨rfl, new, hnew, hvector, hslices, hrest⟩ := hallowed hword
            exact sound_returnFile_renamed hsound hcall hword hnew hvector hslices hrest
      · cases hstep
  | finishDump =>
      simp only [State.step] at hstep
      split at hstep
      · rename_i hcall
        cases hstep
        exact sound_finishDump hsound hcall
      · cases hstep

end Steps

end CacheFiles

open CacheFiles in
/-- In a run whose renames succeed, to names that no list has yet, and whose clearings spare
the slices that a call has yet to return: no name is twice in the vector, and every call
returns different files that exist. -/
theorem cache_results_distinct (start final : State) (labels : List Label)
    (hstart : machine.init start) (hobeys : machine.Obeys Allowed start labels)
    (hrun : machine.run start labels = some final) :
    (names final.traceFileVec).Nodup ∧
      ∀ ret, final.call = .returned ret →
        ret.outputFiles.Nodup ∧
          ∀ path ∈ ret.outputFiles, final.files.fileExists path = true := by
  have hsound : Sound final := by
    refine machine.invariant_of_obeys (motive := Sound) ?_ (sound_start hstart) hobeys hrun
    intro state label next hsound hallowed hstep
    exact sound_step hsound hallowed hstep
  refine ⟨hsound.recorded, ?_⟩
  intro ret hcall
  have hdistinct := hsound.distinct
  have hpresent := hsound.present
  rw [hcall] at hdistinct hpresent
  simp only [Call.outputFiles, Call.pending, names_nil, List.append_nil] at hdistinct hpresent
  exact ⟨hdistinct, hpresent⟩

namespace CacheFiles

def sampleSlice : CacheSlice where
  timeBuf := "20250101120000".toList
  range := ⟨5000000000, 8000000000⟩
  ordered := by decide
  size := 100

def sampleDump (renamed : List Bool) : List Label :=
  .beginDump { param := {} } 4 100 :: .getCacheTraceFiles ::
    (renamed.map Label.returnFile ++ [Label.finishDump])

def sliceRun (first second : List Bool) : List Label :=
  .appendSlice sampleSlice :: (sampleDump first ++ sampleDump second)

def cacheName : List Char :=
  "/data/log/hitrace/cache_trace_20250101120000@5-3000.sys".toList

def snapshotName : List Char :=
  "/data/log/hitrace/trace_20250101120000@5-3000.sys".toList

end CacheFiles

open CacheFiles in
theorem cache_results_distinct_renamed_slice :
    ∃ final, machine.run {} (sliceRun [true] [true]) = some final ∧
      final.call.outputFiles = [snapshotName] ∧ (names final.traceFileVec).Nodup := by
  have hobeys : machine.Obeys Allowed {} (sliceRun [true] [true]) := by
    decide +kernel
  have hfinal : (machine.run {} (sliceRun [true] [true])).map
      (fun state => state.call.outputFiles) = some [snapshotName] := by
    decide +kernel
  obtain ⟨final, hrun, houtput⟩ := Option.map_eq_some_iff.mp hfinal
  exact ⟨final, hrun, houtput,
    (cache_results_distinct {} final _ ⟨List.nodup_nil, rfl, rfl, rfl⟩ hobeys hrun).1⟩

open CacheFiles in
/-- A slice whose rename fails is in both lists.  If it fails again, the next call returns
the slice twice and counts it twice; if it succeeds, the call returns the old name too, which
no file has, and the vector has that name twice. -/
theorem failed_rename_repeats_slice :
    (∃ final, machine.run {} (sliceRun [false] [false, false]) = some final ∧
      final.call = .returned
        { outputFiles := [cacheName, cacheName], fileSize := 200, coverDuration := 6000 }) ∧
      ∃ final, machine.run {} (sliceRun [false] [true, true]) = some final ∧
        final.call = .returned
          { outputFiles := [snapshotName, cacheName], fileSize := 200,
            coverDuration := 6000 } ∧
        final.files.fileExists cacheName = false ∧
        ¬(names final.traceFileVec).Nodup := by
  have hrepeated : (machine.run {} (sliceRun [false] [false, false])).map State.call =
      some (.returned
        { outputFiles := [cacheName, cacheName], fileSize := 200, coverDuration := 6000 }) := by
    decide +kernel
  have hmissing : (machine.run {} (sliceRun [false] [true, true])).map
      (fun state => (state.call, state.files.fileExists cacheName,
        names state.traceFileVec)) =
      some (.returned
        { outputFiles := [snapshotName, cacheName], fileSize := 200,
          coverDuration := 6000 }, false, [cacheName, snapshotName, cacheName]) := by
    decide +kernel
  obtain ⟨first, hfirst, hcall⟩ := Option.map_eq_some_iff.mp hrepeated
  obtain ⟨second, hsecond, hfields⟩ := Option.map_eq_some_iff.mp hmissing
  simp only [Prod.mk.injEq] at hfields
  refine ⟨⟨first, hfirst, hcall⟩, second, hsecond, hfields.1, hfields.2.1, ?_⟩
  rw [hfields.2.2]
  simp

end Hitrace
