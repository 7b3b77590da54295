import Hitrace.HitraceDump.TraceSession

namespace Hitrace

open Library

/-! What a failed `OpenTrace` leaves of a session that may be running. -/

namespace TraceGlobals

/-- The globals and parameters that an opening sets up. -/
structure SameSession (before after : TraceGlobals) : Prop where
  traceMode : after.traceMode = before.traceMode
  currentTraceParams : after.currentTraceParams = before.currentTraceParams
  sysInitParamTags : after.sysInitParamTags = before.sysInitParamTags
  filterContext : after.filterContext = before.filterContext
  telemetryApp : after.telemetryApp = before.telemetryApp
  appPid : after.appPid = before.appPid

theorem SameSession.refl (globals : TraceGlobals) : SameSession globals globals :=
  ⟨rfl, rfl, rfl, rfl, rfl, rfl⟩

/-- The gate of the boot trace stops the call; or there is no filter to clear; or the
argument string is not parsed, or the last app pid it gets to set is the one that is
set already. -/
def Undisturbed (environment : OpenEnvironment) (globals : TraceGlobals) (call : OpenCall) :
    Prop :=
  (bootTraceArbShouldReturnLocked environment.boot false).isSome = true ∨
    match call with
    | .args args =>
        parsesArgs environment globals = true →
          ∀ pid ∈ (acceptedAppPids args).getLast?, pid = globals.appPid
    | _ => globals.telemetryApp = [] ∧ globals.filterContext = none

variable {environment : OpenEnvironment} {globals : TraceGlobals}

theorem sameSession_clearFilterParam_iff :
    SameSession globals globals.clearFilterParam ↔
      globals.telemetryApp = [] ∧ globals.filterContext = none := by
  constructor
  · intro hsame
    exact ⟨hsame.telemetryApp.symm, hsame.filterContext.symm⟩
  · rintro ⟨htelemetry, hcontext⟩
    exact ⟨rfl, rfl, rfl, hcontext.symm, htelemetry.symm, rfl⟩

theorem sameSession_appPid_iff (appPid : List Char) :
    SameSession globals { globals with appPid } ↔ appPid = globals.appPid := by
  constructor
  · intro hsame
    exact hsame.appPid
  · intro happPid
    exact ⟨rfl, rfl, rfl, rfl, rfl, happPid⟩

theorem getD_eq_iff {written : Option (List Char)} {appPid : List Char} :
    written.getD appPid = appPid ↔ ∀ pid ∈ written, pid = appPid := by
  cases written with
  | none => simp
  | some pid => simp

theorem sameSession_refused_iff
    (hboot : bootTraceArbShouldReturnLocked environment.boot false = none)
    (call : OpenCall) :
    SameSession globals (globals.refused environment call) ↔
      Undisturbed environment globals call := by
  simp only [Undisturbed, hboot, Option.isSome_none, Bool.false_eq_true, false_or]
  cases call with
  | tagGroups tagGroups => exact sameSession_clearFilterParam_iff
  | traceArgs traceArgs => exact sameSession_clearFilterParam_iff
  | args args =>
      simp only [refused]
      split
      · rename_i hparses
        rw [sameSession_appPid_iff, getD_eq_iff]
        exact ⟨fun hall _ => hall, fun hall => hall hparses⟩
      · rename_i hparses
        exact ⟨fun _ hparsed => absurd hparsed hparses, fun _ => SameSession.refl globals⟩

/-- A failed call leaves the session as it was exactly if it is `Undisturbed`. -/
theorem openTrace_failed_iff (environment : OpenEnvironment) (globals : TraceGlobals)
    (call : OpenCall) (hfailed : (globals.openTrace environment call).1 ≠ .success) :
    SameSession globals (globals.openTrace environment call).2 ↔
      Undisturbed environment globals call := by
  cases hboot : bootTraceArbShouldReturnLocked environment.boot false with
  | some bootGate =>
      rw [openTrace_of_boot hboot]
      have hblocked : Undisturbed environment globals call := Or.inl (by rw [hboot]; rfl)
      exact iff_of_true (SameSession.refl globals) hblocked
  | none =>
      rw [openTrace_refused hboot hfailed]
      exact sameSession_refused_iff hboot call

end TraceGlobals

open TraceGlobals TraceSession

/-- A running session with a filter. -/
def filtered : TraceGlobals :=
  { ohosOpened with
    currentTraceParams := { tags := ["ohos".toList], filterPids := ["1234".toList] }
    filterContext := some { standInTid := 0 } }

/-- A second opening by arguments is refused and leaves the running session alone, one by
tag groups clears its filter. -/
theorem openTrace_failed_iff_filtered :
    SameSession filtered (filtered.openTrace ohosEnvironment (.args "none:1".toList)).2 ∧
      ¬ SameSession filtered
        (filtered.openTrace ohosEnvironment (.tagGroups ["default".toList])).2 := by
  constructor
  · have hnone : acceptedAppPids "none:1".toList = [] := by decide +kernel
    refine (openTrace_failed_iff ohosEnvironment filtered _ (by decide +kernel)).mpr (.inr ?_)
    intro _ pid hpid
    rw [hnone] at hpid
    cases hpid
  · intro hsame
    have hundisturbed :=
      (openTrace_failed_iff ohosEnvironment filtered _ (by decide +kernel)).mp hsame
    rcases hundisturbed with hboot | ⟨_, hcontext⟩
    · cases hboot
    · cases hcontext

/-- A second opening is refused and releases the filter of the running session. -/
theorem refused_opening_releases_filter :
    ∃ session, (machine januaryTime).Reachable session ∧ ∃ environment call,
      (session.globals.openTrace environment call).1 ≠ .success ∧
        ¬ SameSession session.globals (session.globals.openTrace environment call).2 := by
  refine ⟨{ globals := filtered, opened := true },
    ⟨[.openTrace ohosEnvironment (.args "tags:ohos filterPids:1234".toList)], {}, rfl,
      by decide +kernel⟩,
    ohosEnvironment, .tagGroups ["default".toList], by decide +kernel, ?_⟩
  intro hsame
  cases hsame.filterContext

end Hitrace
