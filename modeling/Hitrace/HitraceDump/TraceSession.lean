import Hitrace.HitraceDump.OpenTrace
import Hitrace.Library.Transition
import Hitrace.Utils.FileAgeing

namespace Hitrace

open Library

/-! Whole histories of the calls of `hitrace_dump.cpp` and `hitrace_option.cpp`
that touch the globals of an opened trace, over a trace directory that other
programs, the dumping process and the cleaning of cache files may change as well. -/

/-- `ResetTracePipelineLocked`; without tags the parameter of the flags stays. -/
def TraceGlobals.resetTracePipeline (globals : TraceGlobals) (allTagsEmpty : Bool) :
    TraceGlobals :=
  { globals.clearFilterParam with
    traceMode := TraceMode.modeClose
    appPid := "-1".toList
    enableFlags := if allTagsEmpty then globals.enableFlags else 0 }

def TraceGlobals.closeTrace (globals : TraceGlobals) (boot : BootTrace)
    (allTagsEmpty : Bool) : TraceGlobals :=
  match bootTraceArbShouldReturnLocked boot true with
  | some _ => globals
  | none =>
      if globals.traceMode = TraceMode.modeClose then globals
      else globals.resetTracePipeline allTagsEmpty

def TraceGlobals.setFilterAppName (globals : TraceGlobals) (apps : List (List Char)) :
    TraceGlobals :=
  if apps.length > 10 then globals
  else { globals with telemetryApp := List.intercalate ['\t'] apps }

/-- A call of `DumpTrace` or `DumpTraceAsync`, the second without a path.
`recorded` and `directory` are what the dump adds to the vector behind its ageing
and the directory it leaves. -/
structure DumpCall where
  boot : BootTrace := ⟨false, false⟩
  outputPath : List Char := []
  maxDuration : UInt32 := 0
  isTracingOn : Bool := true
  ageing : AgeingEnvironment
  recorded : List TraceFileInfo := []
  directory : List DirEntry := []

/-- The error of `CheckTraceDumpStatus`. -/
def TraceGlobals.checkTraceDumpStatus (globals : TraceGlobals) (maxDuration : UInt32)
    (isTracingOn : Bool) : Option TraceErrorCode :=
  if !isTraceOpen globals.traceMode || isRecordOn globals.traceMode then
    some .wrongTraceMode
  else if maxDuration.toNat = 2 ^ 32 - 1 then some .invalidMaxDuration
  else if !(globals.enableFlags == globals.sysInitParamTags && isTracingOn) then
    some .traceIsOccupied
  else none

/-- The call gets to its ageing. -/
def DumpCall.ages (call : DumpCall) (globals : TraceGlobals) : Bool :=
  (bootTraceArbShouldReturnLocked call.boot false).isNone &&
    (call.outputPath.isEmpty || isWritable call.outputPath) &&
    (globals.checkTraceDumpStatus call.maxDuration call.isTracingOn).isNone

/-- `opened` records that an `OpenTrace` has returned SUCCESS and that no ageing has
followed it yet. -/
structure TraceSession where
  globals : TraceGlobals := {}
  directory : List DirEntry := []
  opened : Bool := false
deriving Repr, DecidableEq

namespace TraceSession

inductive Label
  | openTrace (environment : OpenEnvironment) (call : OpenCall)
  | closeTrace (boot : BootTrace) (allTagsEmpty : Bool)
  | loopOn (kind : LoopKind)
  | loopOff (kind : LoopKind)
  | dumpTrace (call : DumpCall)
  | asyncResult (info : TraceFileInfo)
  | setFilterAppName (apps : List (List Char))
  | addFilterPid (environment : OpenEnvironment) (pid : Int32)
  | setEnableFlags (flags : UInt64)
  | changeDirectory (directory : List DirEntry)
  | restart

section Steps

variable (mktime : BrokenTime → Option Int)

/-- The opening reads the directory of the session. -/
def openResult (session : TraceSession) (environment : OpenEnvironment)
    (call : OpenCall) : TraceErrorCode × TraceGlobals :=
  session.globals.openTrace
    { environment with directory := session.directory, mktime := mktime } call

def withGlobals (session : TraceSession) (globals : TraceGlobals) : TraceSession :=
  { session with globals }

def dumpTrace (session : TraceSession) (call : DumpCall) : TraceSession :=
  if call.ages session.globals then
    { globals :=
        { session.globals with
          traceFileVec :=
            (FileAgeing.handleAgeing call.ageing session.globals.traceFileVec
              session.directory).1 ++ call.recorded }
      directory := call.directory
      opened := false }
  else session

/-- The modes that a call of `RecordTraceOff` or `CacheTraceOff` accepts. -/
def acceptsOff (mode : TraceMode) : LoopKind → Bool
  | .record => isRecordOn mode
  | .cache => mode == TraceMode.modeOpen ||| TraceMode.modeCache

/-- A new process finds the parameters of the old one. -/
def restart (session : TraceSession) : TraceSession :=
  { session with
    globals :=
      { telemetryApp := session.globals.telemetryApp
        appPid := session.globals.appPid
        enableFlags := session.globals.enableFlags }
    opened := false }

def step (session : TraceSession) : Label → Option TraceSession
  | .openTrace environment call =>
      let result := openResult mktime session environment call
      some { session with
        globals := result.2
        opened := result.1 == .success || session.opened }
  | .closeTrace boot allTagsEmpty =>
      some (session.withGlobals (session.globals.closeTrace boot allTagsEmpty))
  | .loopOn kind =>
      if session.globals.traceMode = TraceMode.modeOpen then
        some (session.withGlobals { session.globals with
          traceMode := session.globals.traceMode ||| kind.mode })
      else none
  | .loopOff kind =>
      if acceptsOff session.globals.traceMode kind then
        some (session.withGlobals { session.globals with
          traceMode := session.globals.traceMode &&& ~~~kind.mode })
      else none
  | .dumpTrace call => some (session.dumpTrace call)
  | .asyncResult info =>
      some (session.withGlobals { session.globals with
        traceFileVec := session.globals.traceFileVec ++ [info] })
  | .setFilterAppName apps =>
      some (session.withGlobals (session.globals.setFilterAppName apps))
  | .addFilterPid environment pid =>
      some (session.withGlobals
        (session.globals.addFilterPids environment [intToString pid.toInt]))
  | .setEnableFlags flags =>
      some (session.withGlobals { session.globals with enableFlags := flags })
  | .changeDirectory directory => some { session with directory }
  | .restart => some session.restart

/-- A process that has just started, over any parameters and any directory. -/
def IsFresh (session : TraceSession) : Prop :=
  session = session.restart

def machine : Machine TraceSession Label where
  init := IsFresh
  step := step mktime

/-- The vector of the session lists its directory. -/
def Lists (session : TraceSession) : Prop :=
  ListsSnapshots mktime session.globals.traceFileVec session.directory

/-- `OpenTrace(string)` succeeds only over a vector that lists the directory, and
between a successful opening and the next ageing no snapshot file comes, goes or
changes and no asynchronous result is recorded. -/
def Admits (session : TraceSession) : Label → Prop
  | .openTrace environment (.args args) =>
      (openResult mktime session environment (.args args)).1 = .success →
        session.Lists mktime
  | .asyncResult _ => session.opened = false
  | .changeDirectory directory =>
      session.opened = true →
        snapshots mktime directory = snapshots mktime session.directory
  | _ => True

end Steps

end TraceSession

/-! What the openings do to the vector. -/

section Opening

variable {environment : OpenEnvironment} {globals : TraceGlobals}

@[simp] theorem traceFileVec_handleTraceOpen (traceParams : TraceParams) :
    (globals.handleTraceOpen environment traceParams).traceFileVec =
      globals.traceFileVec := by
  unfold TraceGlobals.handleTraceOpen
  split <;> rfl

theorem traceFileVec_refused (call : OpenCall) :
    (globals.refused environment call).traceFileVec = globals.traceFileVec := by
  cases call with
  | tagGroups tagGroups => rfl
  | traceArgs traceArgs => rfl
  | args args =>
      simp only [TraceGlobals.refused]
      split <;> rfl

theorem traceFileVec_of_failed {call : OpenCall}
    (hfailed : (globals.openTrace environment call).1 ≠ .success) :
    (globals.openTrace environment call).2.traceFileVec = globals.traceFileVec := by
  cases hboot : bootTraceArbShouldReturnLocked environment.boot false with
  | some bootGate => rw [TraceGlobals.openTrace_of_boot hboot]
  | none => rw [TraceGlobals.openTrace_refused hboot hfailed, traceFileVec_refused]

/-- `OpenTrace(string)` does not refresh the vector. -/
def OpenCall.refreshes : OpenCall → Bool
  | .args _ => false
  | _ => true

theorem traceFileVec_of_success {call : OpenCall}
    (hsuccess : (globals.openTrace environment call).1 = .success) :
    (globals.openTrace environment call).2.traceFileVec =
      if call.refreshes then refreshTraceVec environment.mktime environment.directory
      else globals.traceFileVec := by
  revert hsuccess
  cases hboot : bootTraceArbShouldReturnLocked environment.boot false with
  | some bootGate =>
      rw [TraceGlobals.openTrace_of_boot hboot]
      exact fun hsuccess => absurd hsuccess (boot_ne_success hboot)
  | none =>
      cases call with
      | tagGroups tagGroups =>
          simp only [TraceGlobals.openTrace, TraceGlobals.openTagGroups, hboot]
          split
          · intro hsuccess
            cases hsuccess
          · split
            · intro hsuccess
              cases hsuccess
            · split
              · intro hsuccess
                cases hsuccess
              · split
                · intro hsuccess
                  cases hsuccess
                · exact fun _ => rfl
      | traceArgs traceArgs =>
          simp only [TraceGlobals.openTrace, TraceGlobals.openTraceArgs, hboot]
          split
          · intro hsuccess
            cases hsuccess
          · split
            · intro hsuccess
              cases hsuccess
            · split
              · rename_i hprepared
                exact fun hsuccess => absurd hsuccess hprepared
              · exact fun _ => rfl
      | args args =>
          simp only [TraceGlobals.openTrace, TraceGlobals.openArgs, hboot]
          split
          · intro hsuccess
            cases hsuccess
          · split
            · intro hsuccess
              cases hsuccess
            · split
              · intro hsuccess
                cases hsuccess
              · split
                · intro hsuccess
                  cases hsuccess
                · exact fun _ => traceFileVec_handleTraceOpen _

end Opening

namespace TraceSession

variable {mktime : BrokenTime → Option Int}

/-- The vector lists the directory from a successful opening to the next ageing. -/
def Current (mktime : BrokenTime → Option Int) (session : TraceSession) : Prop :=
  session.opened = true → session.Lists mktime

theorem current_of_fresh {session : TraceSession} (hfresh : session.IsFresh) :
    session.Current mktime := by
  intro hopened
  rw [IsFresh] at hfresh
  rw [hfresh] at hopened
  cases hopened

theorem current_withGlobals {session : TraceSession} {globals : TraceGlobals}
    (hvec : globals.traceFileVec = session.globals.traceFileVec)
    (hcurrent : session.Current mktime) :
    (session.withGlobals globals).Current mktime := by
  intro hopened
  have hlists := hcurrent hopened
  rw [Lists] at hlists ⊢
  simp only [withGlobals, hvec]
  exact hlists

theorem traceFileVec_closeTrace (globals : TraceGlobals) (boot : BootTrace)
    (allTagsEmpty : Bool) :
    (globals.closeTrace boot allTagsEmpty).traceFileVec = globals.traceFileVec := by
  unfold TraceGlobals.closeTrace
  split
  · rfl
  · split <;> rfl

theorem traceFileVec_setFilterAppName (globals : TraceGlobals)
    (apps : List (List Char)) :
    (globals.setFilterAppName apps).traceFileVec = globals.traceFileVec := by
  unfold TraceGlobals.setFilterAppName
  split <;> rfl

theorem current_openTrace {session : TraceSession} {environment : OpenEnvironment}
    {call : OpenCall} (hcurrent : session.Current mktime)
    (hadmits : session.Admits mktime (.openTrace environment call)) {next : TraceSession}
    (hstep : session.step mktime (.openTrace environment call) = some next) :
    next.Current mktime := by
  cases hstep
  intro hopened
  simp only [Bool.or_eq_true, beq_iff_eq] at hopened
  rw [Lists]
  by_cases hsuccess : (openResult mktime session environment call).1 = .success
  · have hvec := traceFileVec_of_success hsuccess
    cases call with
    | tagGroups tagGroups =>
        exact (congrArg (ListsSnapshots mktime · session.directory) hvec).mpr
          (listsSnapshots_refresh mktime session.directory)
    | traceArgs traceArgs =>
        exact (congrArg (ListsSnapshots mktime · session.directory) hvec).mpr
          (listsSnapshots_refresh mktime session.directory)
    | args args =>
        exact (congrArg (ListsSnapshots mktime · session.directory) hvec).mpr
          (hadmits hsuccess)
  · have hvec := traceFileVec_of_failed hsuccess
    exact (congrArg (ListsSnapshots mktime · session.directory) hvec).mpr
      (hcurrent (hopened.resolve_left hsuccess))

theorem current_dumpTrace {session : TraceSession} (call : DumpCall)
    (hcurrent : session.Current mktime) : (session.dumpTrace call).Current mktime := by
  unfold dumpTrace
  split
  · exact nofun
  · exact hcurrent

theorem current_step {session next : TraceSession} {label : Label}
    (hcurrent : session.Current mktime) (hadmits : session.Admits mktime label)
    (hstep : session.step mktime label = some next) : next.Current mktime := by
  cases label with
  | openTrace environment call => exact current_openTrace hcurrent hadmits hstep
  | closeTrace boot allTagsEmpty =>
      cases hstep
      exact current_withGlobals (traceFileVec_closeTrace _ boot allTagsEmpty) hcurrent
  | loopOn kind =>
      obtain ⟨_, hnext⟩ := Option.ite_none_right_eq_some.mp hstep
      cases hnext
      exact current_withGlobals rfl hcurrent
  | loopOff kind =>
      obtain ⟨_, hnext⟩ := Option.ite_none_right_eq_some.mp hstep
      cases hnext
      exact current_withGlobals rfl hcurrent
  | dumpTrace call =>
      cases hstep
      exact current_dumpTrace call hcurrent
  | asyncResult info =>
      cases hstep
      intro hopened
      cases hopened.symm.trans hadmits
  | setFilterAppName apps =>
      cases hstep
      exact current_withGlobals (traceFileVec_setFilterAppName _ apps) hcurrent
  | addFilterPid environment pid =>
      cases hstep
      exact current_withGlobals rfl hcurrent
  | setEnableFlags flags =>
      cases hstep
      exact current_withGlobals rfl hcurrent
  | changeDirectory directory =>
      cases hstep
      intro hopened
      exact FileAgeing.listsSnapshots_of_eq (hcurrent hopened) (hadmits hopened)
  | restart =>
      cases hstep
      exact nofun

/-- In a history that keeps to `Admits`, the first ageing behind a successful opening
takes a snapshot file only over a limit that the directory exceeds. -/
theorem ageing_removes_only_over_limit (start session : TraceSession)
    {labels : List Label} (hfresh : start.IsFresh)
    (hobeys : (machine mktime).Obeys (Admits mktime) start labels)
    (hrun : (machine mktime).run start labels = some session)
    (hopened : session.opened = true) (call : DumpCall)
    (hremoves : FileAgeing.RemovesSnapshot call.ageing mktime
      session.globals.traceFileVec session.directory) :
    FileAgeing.LimitExceeded call.ageing mktime session.directory := by
  have hcurrent : session.Current mktime :=
    (machine mktime).invariant_of_obeys
      (fun _ _ _ hstate hadmits hstep => current_step hstate hadmits hstep)
      (current_of_fresh hfresh) hobeys hrun
  exact FileAgeing.limitExceeded_of_removes (hcurrent hopened) hremoves

/-! A snapshot of the first second of 2025 in a process of its own. -/

def januaryTime : BrokenTime → Option Int := fun time =>
  if time = ⟨125, 0, 1, 0, 0, 0⟩ then some 1735689600 else none

def januaryEntry (name : List Char) : DirEntry :=
  { name, regular := true, ctime := 1735689605, size := 4096 }

def januaryInfo (name : List Char) : TraceFileInfo :=
  { filename := (januaryEntry name).path
    traceStartTime := 1735689600000
    traceEndTime := 1735689600005
    fileSize := 4096 }

def ohosEnvironment : OpenEnvironment :=
  { allTags := [("ohos".toList, ⟨(1 : UInt64) <<< 30, .user⟩)]
    tagGroupTable := [("default".toList, ["ohos".toList])] }

def ohosOpened : TraceGlobals :=
  { traceMode := TraceMode.modeOpen
    currentTraceParams := { tags := ["ohos".toList] }
    sysInitParamTags := (1 : UInt64) <<< 30
    enableFlags := (1 : UInt64) <<< 30 }

def firstName : List Char := "trace_20250101000000@100-5.sys".toList

def secondName : List Char := "trace_20250101000000@200-5.sys".toList

/-- `OpenTrace("tags:ohos")` in a fresh process, and the next dump takes a file from
far below both limits. -/
theorem unlisted_snapshot_removed :
    ∃ session, (machine januaryTime).Reachable session ∧ session.opened = true ∧
      ∃ call : DumpCall, call.ages session.globals = true ∧
        FileAgeing.RemovesSnapshot call.ageing januaryTime
          session.globals.traceFileVec session.directory ∧
        ¬ FileAgeing.LimitExceeded call.ageing januaryTime session.directory := by
  refine ⟨{ globals := ohosOpened, directory := [januaryEntry firstName], opened := true },
    ⟨[.openTrace ohosEnvironment (.args "tags:ohos".toList)],
      { directory := [januaryEntry firstName] }, rfl, by decide +kernel⟩, rfl,
    { ageing := { param := { fileNumberLimit := 20, fileSizeKbLimit := 1024 } } },
    by decide +kernel, ⟨januaryEntry firstName, by decide +kernel, by decide +kernel⟩, ?_⟩
  rintro ⟨checkType, _, hexceeded⟩
  revert hexceeded
  cases checkType with
  | fileNumber => decide +kernel
  | fileSize => decide +kernel

/-- The history of two dumps in one process that is closed and opened again. -/
def twoSnapshots : List Label :=
  [.openTrace ohosEnvironment (.args "tags:ohos".toList),
    .dumpTrace
      { ageing := { param := {} }
        recorded := [januaryInfo firstName, januaryInfo secondName]
        directory := [januaryEntry firstName, januaryEntry secondName] },
    .closeTrace ⟨false, false⟩ false,
    .openTrace ohosEnvironment (.args "tags:ohos".toList)]

def reopened : TraceSession :=
  { globals :=
      { ohosOpened with
        traceFileVec := [januaryInfo firstName, januaryInfo secondName] }
    directory := [januaryEntry firstName, januaryEntry secondName]
    opened := true }

theorem twoSnapshots_admitted :
    (machine januaryTime).Obeys (Admits januaryTime) {} twoSnapshots := by
  refine ⟨fun _ => ?_, trivial, trivial, fun _ => ?_, trivial⟩
  · exact List.Perm.nil
  · rw [Lists, ListsSnapshots]
    decide +kernel

theorem ageing_removes_only_over_limit_one_file :
    FileAgeing.LimitExceeded { param := { fileNumberLimit := 1 } } januaryTime
      [januaryEntry firstName, januaryEntry secondName] :=
  ageing_removes_only_over_limit {} reopened rfl
    twoSnapshots_admitted (by decide +kernel) rfl
    { ageing := { param := { fileNumberLimit := 1 } } }
    ⟨januaryEntry firstName, by decide +kernel, by decide +kernel⟩

end TraceSession

end Hitrace
