import Hitrace.HitraceMeter.TraceMarker
import Hitrace.Library.Transition

namespace Hitrace

open Library

namespace HitraceMeter

open AppTrace

/-! The trace listeners of `hitrace_meter.cpp`: the registry of the callbacks, the queue
of their calls and the operations that change the two tag words. -/

def maxCallbacks : Nat := 10

def invalidParameter : Int := -2

def reachMaxCallbacks : Int := -1

def invalidIndex : Int := -2

def indexNotRegistered : Int := -1

def successUnregister : Int := 0

def hitraceTagAlways : UInt64 := 1

def hitraceTagValidMask : UInt64 := (hitraceTagApp - 1) ||| hitraceTagApp

inductive HiTraceCallbackType
  | native
  | napi
  | ani
deriving Repr, DecidableEq

/-- A registered callback, with the last value it received. -/
structure Listener where
  callback : Nat
  type : HiTraceCallbackType
  received : Option Bool := none
deriving Repr, DecidableEq

inductive ListenerTask
  | executeOne (index : Int) (appTagEnable : Bool)
  | executeAll (appTagEnable : Bool)
deriving Repr, DecidableEq

structure ListenerState where
  tagsProperty : UInt64 := hitraceTagNotReady
  appTag : UInt64 := hitraceTagNotReady
  appFd : Bool := false
  /-- The three handles of cached parameters are there. -/
  cachedHandles : Bool := false
  /-- `g_onceFlag` is used up. -/
  markerOpened : Bool := false
  callbacks : List (Int × Listener) := []
  isCallbacksEmpty : Bool := true
  executeCallbackNapi : Bool := false
  executeCallbackAni : Bool := false
  queue : List ListenerTask := []
deriving Repr, DecidableEq

def hasAppTag (tags : UInt64) : Bool :=
  decide (tags &&& hitraceTagApp ≠ 0)

namespace ListenerState

def appTagEnable (state : ListenerState) : Bool :=
  hasAppTag (state.tagsProperty ||| state.appTag)

def enqueue (state : ListenerState) (task : ListenerTask) : ListenerState :=
  { state with queue := state.queue ++ [task] }

def handleAppTagChange (state : ListenerState) (oldTags newTags : UInt64) :
    ListenerState :=
  if hasAppTag newTags ≠ hasAppTag oldTags ∧ state.isCallbacksEmpty = false then
    state.enqueue (.executeAll (hasAppTag newTags))
  else state

def registered (state : ListenerState) (index : Int) : Bool :=
  state.callbacks.any fun entry => entry.1 = index

def freeIndex (state : ListenerState) : Option Int :=
  ((List.range maxCallbacks).map Int.ofNat).find? fun index => !state.registered index

/-- `callback` is absent for a null pointer. -/
def register (state : ListenerState) (callback : Option Nat) (type : HiTraceCallbackType) :
    Int × ListenerState :=
  match callback with
  | none => (invalidParameter, state)
  | some callback =>
      match state.freeIndex with
      | none => (reachMaxCallbacks, state)
      | some index =>
          (index,
            { state with
              callbacks := (index, { callback, type }) :: state.callbacks
              isCallbacksEmpty := false
              queue := state.queue ++ [ListenerTask.executeOne index state.appTagEnable] })

def unregister (state : ListenerState) (index : Int) : Int × ListenerState :=
  if index < 0 ∨ index ≥ maxCallbacks then (invalidIndex, state)
  else if !state.registered index then (indexNotRegistered, state)
  else
    let callbacks := state.callbacks.filter fun entry => entry.1 ≠ index
    (successUnregister,
      { state with
        callbacks
        isCallbacksEmpty := if callbacks.isEmpty then true else state.isCallbacksEmpty })

def executes (state : ListenerState) : HiTraceCallbackType → Bool
  | .native => true
  | .napi => state.executeCallbackNapi
  | .ani => state.executeCallbackAni

end ListenerState

/-- The value a task has for the callback of an index. -/
def ListenerTask.value (index : Int) : ListenerTask → Option Bool
  | .executeOne target appTagEnable => if target = index then some appTagEnable else none
  | .executeAll appTagEnable => some appTagEnable

namespace ListenerState

def execute (state : ListenerState) (task : ListenerTask) : ListenerState :=
  { state with
    callbacks := state.callbacks.map fun entry =>
      if state.executes entry.2.type then
        (entry.1, { entry.2 with received := (task.value entry.1).or entry.2.received })
      else entry }

/-- `created` says whether all handles are there after `CreateCacheHandle`; `seen` is the
number of a change that `CachedParameterGetChanged` reports. -/
def updateSysParamTags (state : ListenerState) (created : Bool) (seen : Option UInt64) :
    ListenerState :=
  if !state.cachedHandles then { state with cachedHandles := created }
  else
    match seen with
    | none => state
    | some tags =>
        let targetTags := (tags ||| hitraceTagAlways) &&& hitraceTagValidMask
        if state.tagsProperty ≠ targetTags then
          handleAppTagChange { state with tagsProperty := targetTags }
            (state.tagsProperty ||| state.appTag) (targetTags ||| state.appTag)
        else state

/-- `opened` says whether one of the two marker files opens, `tags` is the parameter. -/
def openTraceMarkerFile (state : ListenerState) (opened : Bool) (tags : UInt64)
    (created : Bool) : ListenerState :=
  if state.markerOpened then state
  else if !opened then { state with markerOpened := true, tagsProperty := 0 }
  else
    { state with
      markerOpened := true
      tagsProperty := tags
      cachedHandles := state.cachedHandles || created }

def resetGlobalStatus (state : ListenerState) : ListenerState :=
  { state with appFd := false, appTag := hitraceTagNotReady }

/-- `args.opened` is what the file name and `open` come to, `header` whether
`InitTraceHead` succeeds. -/
def startCaptureAppTrace (state : ListenerState) (args : StartArgs) (header : Bool) :
    ListenerState :=
  if checkAppTraceArgs args ≠ .succ then state
  else if state.appFd then state
  else
    let state := { state with appTag := args.tags }
    if args.opened ≠ .succ then state.resetGlobalStatus
    else
      let state := { state with appFd := true }
      if header then
        state.handleAppTagChange state.tagsProperty (state.tagsProperty ||| state.appTag)
      else state.resetGlobalStatus

/-- `written` says whether the header gets into the file. -/
def stopCaptureAppTrace (state : ListenerState) (written : Bool) : ListenerState :=
  if !state.appFd then state
  else if !written then state
  else
    (state.handleAppTagChange (state.tagsProperty ||| state.appTag)
      state.tagsProperty).resetGlobalStatus

end ListenerState

inductive ListenerLabel
  | register (callback : Option Nat) (type : HiTraceCallbackType)
  | unregister (index : Int)
  | setCallbacksNapi (executeCallbackNapi : Bool)
  | setCallbacksAni (executeCallbackAni : Bool)
  | updateSysParamTags (created : Bool) (seen : Option UInt64)
  | openTraceMarkerFile (opened : Bool) (tags : UInt64) (created : Bool)
  | startCaptureAppTrace (args : StartArgs) (header : Bool)
  | stopCaptureAppTrace (written : Bool)
  | processTask

def listenerStep (state : ListenerState) : ListenerLabel → Option ListenerState
  | .register callback type => some (state.register callback type).2
  | .unregister index => some (state.unregister index).2
  | .setCallbacksNapi executeCallbackNapi => some { state with executeCallbackNapi }
  | .setCallbacksAni executeCallbackAni => some { state with executeCallbackAni }
  | .updateSysParamTags created seen => some (state.updateSysParamTags created seen)
  | .openTraceMarkerFile opened tags created =>
      some (state.openTraceMarkerFile opened tags created)
  | .startCaptureAppTrace args header => some (state.startCaptureAppTrace args header)
  | .stopCaptureAppTrace written => some (state.stopCaptureAppTrace written)
  | .processTask =>
      match state.queue with
      | [] => none
      | task :: queue => some (ListenerState.execute { state with queue } task)

def listeners : Machine ListenerState ListenerLabel where
  init := fun state => state = {}
  step := listenerStep

/-! The registry. -/

namespace ListenerState

variable {state : ListenerState}

structure Registry (state : ListenerState) : Prop where
  distinct : (state.callbacks.map Prod.fst).Nodup
  range : ∀ entry ∈ state.callbacks, 0 ≤ entry.1 ∧ entry.1 < maxCallbacks
  empty : state.isCallbacksEmpty = true ↔ state.callbacks = []
  idle : state.appFd = false → state.appTag = hitraceTagNotReady

@[simp] theorem handleAppTagChange_callbacks (oldTags newTags : UInt64) :
    (state.handleAppTagChange oldTags newTags).callbacks = state.callbacks := by
  rw [handleAppTagChange]
  split <;> rfl

@[simp] theorem handleAppTagChange_isCallbacksEmpty (oldTags newTags : UInt64) :
    (state.handleAppTagChange oldTags newTags).isCallbacksEmpty =
      state.isCallbacksEmpty := by
  rw [handleAppTagChange]
  split <;> rfl

@[simp] theorem handleAppTagChange_tagsProperty (oldTags newTags : UInt64) :
    (state.handleAppTagChange oldTags newTags).tagsProperty = state.tagsProperty := by
  rw [handleAppTagChange]
  split <;> rfl

@[simp] theorem handleAppTagChange_appTag (oldTags newTags : UInt64) :
    (state.handleAppTagChange oldTags newTags).appTag = state.appTag := by
  rw [handleAppTagChange]
  split <;> rfl

@[simp] theorem handleAppTagChange_appFd (oldTags newTags : UInt64) :
    (state.handleAppTagChange oldTags newTags).appFd = state.appFd := by
  rw [handleAppTagChange]
  split <;> rfl

theorem handleAppTagChange_queue (oldTags newTags : UInt64) :
    (state.handleAppTagChange oldTags newTags).queue =
      if hasAppTag newTags ≠ hasAppTag oldTags ∧ state.isCallbacksEmpty = false then
        state.queue ++ [ListenerTask.executeAll (hasAppTag newTags)]
      else state.queue := by
  rw [handleAppTagChange]
  split <;> rfl

theorem freeIndex_spec {index : Int} (hfree : state.freeIndex = some index) :
    (0 ≤ index ∧ index < maxCallbacks) ∧ index ∉ state.callbacks.map Prod.fst := by
  have hmem := List.mem_of_find?_eq_some hfree
  have hunused := List.find?_some hfree
  constructor
  · rw [List.mem_map] at hmem
    obtain ⟨number, hnumber, rfl⟩ := hmem
    rw [List.mem_range] at hnumber
    exact ⟨Int.natCast_nonneg number, Int.ofNat_lt.mpr hnumber⟩
  · intro hused
    obtain ⟨entry, hentry, hindex⟩ := List.mem_map.mp hused
    simp only [registered, Bool.not_eq_true', List.any_eq_false, decide_eq_true_iff] at hunused
    exact hunused entry hentry hindex

theorem Registry.register (hregistry : state.Registry) (callback : Option Nat)
    (type : HiTraceCallbackType) : (state.register callback type).2.Registry := by
  unfold ListenerState.register
  split
  · exact hregistry
  split
  · exact hregistry
  · next index hfree =>
      obtain ⟨hrange, hunused⟩ := freeIndex_spec hfree
      refine ⟨?_, ?_, ?_, hregistry.idle⟩
      · rw [List.map_cons, List.nodup_cons]
        exact ⟨hunused, hregistry.distinct⟩
      · rw [List.forall_mem_cons]
        exact ⟨hrange, hregistry.range⟩
      · simp

theorem Registry.unregister (hregistry : state.Registry) (index : Int) :
    (state.unregister index).2.Registry := by
  rw [ListenerState.unregister]
  split
  · exact hregistry
  split
  · exact hregistry
  · next hregistered =>
      refine ⟨?_, ?_, ?_, hregistry.idle⟩
      · exact hregistry.distinct.sublist (List.filter_sublist.map Prod.fst)
      · intro entry hentry
        exact hregistry.range entry (List.mem_of_mem_filter hentry)
      · have hfull : state.isCallbacksEmpty = false := by
          rw [← Bool.not_eq_true, hregistry.empty]
          intro hnil
          simp [registered, hnil] at hregistered
        dsimp only
        rw [hfull]
        generalize state.callbacks.filter (fun entry => entry.1 ≠ index) = callbacks
        cases callbacks with
        | nil => simp
        | cons entry rest => simp

theorem Registry.congr (hregistry : state.Registry) {next : ListenerState}
    (hcallbacks : next.callbacks = state.callbacks)
    (hempty : next.isCallbacksEmpty = state.isCallbacksEmpty)
    (hidle : next.appFd = false → next.appTag = hitraceTagNotReady) : next.Registry where
  distinct := by
    rw [hcallbacks]
    exact hregistry.distinct
  range := by
    rw [hcallbacks]
    exact hregistry.range
  empty := by
    rw [hcallbacks, hempty]
    exact hregistry.empty
  idle := hidle

theorem Registry.execute (hregistry : state.Registry) (task : ListenerTask) :
    (state.execute task).Registry := by
  have hkeys : (state.execute task).callbacks.map Prod.fst = state.callbacks.map Prod.fst := by
    rw [ListenerState.execute, List.map_map]
    apply List.map_congr_left
    intro entry _
    dsimp only [Function.comp_apply]
    split <;> rfl
  refine ⟨?_, ?_, ?_, hregistry.idle⟩
  · rw [hkeys]
    exact hregistry.distinct
  · intro entry hentry
    have hkey : entry.1 ∈ state.callbacks.map Prod.fst := by
      rw [← hkeys]
      exact List.mem_map_of_mem hentry
    obtain ⟨other, hother, hsame⟩ := List.mem_map.mp hkey
    rw [← hsame]
    exact hregistry.range other hother
  · rw [ListenerState.execute, List.map_eq_nil_iff]
    exact hregistry.empty

theorem Registry.step (hregistry : state.Registry) {label : ListenerLabel}
    {next : ListenerState} (hstep : listenerStep state label = some next) :
    next.Registry := by
  cases label with
  | register callback type =>
      cases hstep
      exact hregistry.register callback type
  | unregister index =>
      cases hstep
      exact hregistry.unregister index
  | setCallbacksNapi executeCallbackNapi =>
      cases hstep
      exact hregistry.congr rfl rfl hregistry.idle
  | setCallbacksAni executeCallbackAni =>
      cases hstep
      exact hregistry.congr rfl rfl hregistry.idle
  | updateSysParamTags created seen =>
      cases hstep
      unfold ListenerState.updateSysParamTags
      split
      · exact hregistry.congr rfl rfl hregistry.idle
      split
      · exact hregistry
      dsimp only
      split
      · exact hregistry.congr (by simp) (by simp) (by simpa using hregistry.idle)
      · exact hregistry
  | openTraceMarkerFile opened tags created =>
      cases hstep
      unfold ListenerState.openTraceMarkerFile
      split
      · exact hregistry
      split
      · exact hregistry.congr rfl rfl hregistry.idle
      · exact hregistry.congr rfl rfl hregistry.idle
  | startCaptureAppTrace args header =>
      cases hstep
      unfold ListenerState.startCaptureAppTrace
      split
      · exact hregistry
      split
      · exact hregistry
      dsimp only
      split
      · exact hregistry.congr rfl rfl fun _ => rfl
      split
      · exact hregistry.congr (by simp) (by simp) (by simp)
      · exact hregistry.congr rfl rfl fun _ => rfl
  | stopCaptureAppTrace written =>
      cases hstep
      unfold ListenerState.stopCaptureAppTrace
      split
      · exact hregistry
      split
      · exact hregistry
      · exact hregistry.congr (by simp [resetGlobalStatus]) (by simp [resetGlobalStatus])
          fun _ => rfl
  | processTask =>
      rw [listenerStep] at hstep
      split at hstep
      · cases hstep
      · next task queue _ =>
          cases hstep
          have hpopped : Registry { state with queue } :=
            hregistry.congr rfl rfl hregistry.idle
          exact hpopped.execute task

end ListenerState

/-! The values of the callbacks. -/

/-- The last value of a callback once the tasks are done. -/
def eventual (queue : List ListenerTask) (index : Int) (received : Option Bool) :
    Option Bool :=
  queue.foldl (fun last task => (task.value index).or last) received

theorem eventual_concat (queue : List ListenerTask) (task : ListenerTask) (index : Int)
    (received : Option Bool) :
    eventual (queue ++ [task]) index received =
      (task.value index).or (eventual queue index received) := by
  rw [eventual, List.foldl_concat]
  rfl

namespace ListenerState

/-- Every native callback has the current value, or will get it from the tasks. -/
def Fresh (state : ListenerState) : Prop :=
  ∀ entry ∈ state.callbacks, entry.2.type = .native →
    eventual state.queue entry.1 entry.2.received = some state.appTagEnable

variable {state : ListenerState}

theorem Fresh.register (hfresh : state.Fresh) (callback : Option Nat)
    (type : HiTraceCallbackType) : (state.register callback type).2.Fresh := by
  unfold ListenerState.register
  split
  · exact hfresh
  split
  · exact hfresh
  · next index _ =>
      intro entry hentry hnative
      rw [eventual_concat]
      rcases List.mem_cons.mp hentry with rfl | hold
      · simp [ListenerTask.value, appTagEnable]
      · rw [hfresh entry hold hnative, ListenerTask.value]
        split <;> rfl

theorem Fresh.unregister (hfresh : state.Fresh) (index : Int) :
    (state.unregister index).2.Fresh := by
  unfold ListenerState.unregister
  split
  · exact hfresh
  split
  · exact hfresh
  · intro entry hentry hnative
    exact hfresh entry (List.mem_of_mem_filter hentry) hnative

/-- The tags change, and the callbacks are told if their value does. -/
theorem Fresh.notified (hfresh : state.Fresh) (hregistry : state.Registry)
    {next : ListenerState} (hcallbacks : next.callbacks = state.callbacks)
    (hqueue : next.queue =
      if next.appTagEnable ≠ state.appTagEnable ∧ state.isCallbacksEmpty = false then
        state.queue ++ [ListenerTask.executeAll next.appTagEnable]
      else state.queue) : next.Fresh := by
  intro entry hentry hnative
  rw [hcallbacks] at hentry
  have hfull : state.isCallbacksEmpty = false := by
    rw [← Bool.not_eq_true, hregistry.empty]
    intro hnil
    rw [hnil] at hentry
    cases hentry
  have hcurrent := hfresh entry hentry hnative
  rw [hqueue]
  split
  · rw [eventual_concat]
    rfl
  · next hsame =>
      rw [hcurrent]
      by_contra hchanged
      apply hsame
      exact ⟨fun heq => hchanged (congrArg some heq.symm), hfull⟩

theorem Fresh.congr (hfresh : state.Fresh) (hregistry : state.Registry)
    {next : ListenerState} (hcallbacks : next.callbacks = state.callbacks)
    (hqueue : next.queue = state.queue)
    (hvalue : next.appTagEnable = state.appTagEnable) : next.Fresh := by
  apply hfresh.notified hregistry hcallbacks
  rw [if_neg (fun hchange => hchange.1 hvalue), hqueue]

theorem Fresh.execute {task : ListenerTask} {queue : List ListenerTask}
    (hqueue : state.queue = task :: queue) (hfresh : state.Fresh) :
    (ListenerState.execute { state with queue } task).Fresh := by
  intro entry hentry hnative
  rw [ListenerState.execute, List.mem_map] at hentry
  obtain ⟨other, hother, rfl⟩ := hentry
  have hcurrent : other.2.type = .native →
      eventual (task :: queue) other.1 other.2.received = some state.appTagEnable := by
    rw [← hqueue]
    exact hfresh other hother
  split at hnative
  · next hexecutes =>
      rw [if_pos hexecutes]
      exact hcurrent hnative
  · next hexecutes =>
      rw [hnative] at hexecutes
      exact absurd rfl hexecutes

theorem hasAppTag_notReady (tags : UInt64) :
    hasAppTag (tags ||| hitraceTagNotReady) = hasAppTag tags := by
  have hdistrib : (tags ||| hitraceTagNotReady) &&& hitraceTagApp =
      (tags &&& hitraceTagApp) ||| (hitraceTagNotReady &&& hitraceTagApp) :=
    UInt64.toBitVec_inj.mp BitVec.and_or_distrib_right
  have hapart : hitraceTagNotReady &&& hitraceTagApp = 0 := by decide
  rw [hasAppTag, hdistrib, hapart, UInt64.or_zero, hasAppTag]

/-- The initialisation does not change the value of the callbacks, or there are none. -/
def Allowed (state : ListenerState) : ListenerLabel → Prop
  | .openTraceMarkerFile opened tags _ =>
      state.markerOpened = true ∨ (∀ entry ∈ state.callbacks, entry.2.type ≠ .native) ∨
        hasAppTag ((if opened then tags else 0) ||| state.appTag) = state.appTagEnable
  | _ => True

instance decidableAllowed (state : ListenerState) : ∀ label, Decidable (state.Allowed label)
  | .register _ _ => isTrue trivial
  | .unregister _ => isTrue trivial
  | .setCallbacksNapi _ => isTrue trivial
  | .setCallbacksAni _ => isTrue trivial
  | .updateSysParamTags _ _ => isTrue trivial
  | .openTraceMarkerFile _ _ _ => inferInstanceAs (Decidable (_ ∨ _))
  | .startCaptureAppTrace _ _ => isTrue trivial
  | .stopCaptureAppTrace _ => isTrue trivial
  | .processTask => isTrue trivial

theorem Fresh.updateSysParamTags (hfresh : state.Fresh) (hregistry : state.Registry)
    (created : Bool) (seen : Option UInt64) :
    (state.updateSysParamTags created seen).Fresh := by
  unfold ListenerState.updateSysParamTags
  split
  · exact hfresh.congr hregistry rfl rfl rfl
  split
  · exact hfresh
  dsimp only
  split
  · apply hfresh.notified hregistry
    · simp
    · simp [handleAppTagChange_queue, appTagEnable]
  · exact hfresh

theorem Fresh.openTraceMarkerFile (hfresh : state.Fresh) (hregistry : state.Registry)
    {opened : Bool} {tags : UInt64} (created : Bool)
    (hallowed : state.Allowed (.openTraceMarkerFile opened tags created)) :
    (state.openTraceMarkerFile opened tags created).Fresh := by
  unfold ListenerState.openTraceMarkerFile
  split
  · exact hfresh
  · next hfirst =>
      rcases hallowed.resolve_left hfirst with hnone | hvalue
      · split
        · intro entry hentry hnative
          exact absurd hnative (hnone entry hentry)
        · intro entry hentry hnative
          exact absurd hnative (hnone entry hentry)
      · cases opened with
        | false => exact hfresh.congr hregistry rfl rfl hvalue
        | true => exact hfresh.congr hregistry rfl rfl hvalue

theorem Fresh.startCaptureAppTrace (hfresh : state.Fresh) (hregistry : state.Registry)
    (args : StartArgs) (header : Bool) :
    (state.startCaptureAppTrace args header).Fresh := by
  unfold ListenerState.startCaptureAppTrace
  split
  · exact hfresh
  split
  · exact hfresh
  · next happFd =>
      have hidle := hregistry.idle (Bool.not_eq_true _ ▸ happFd)
      have hvalue : state.appTagEnable = hasAppTag state.tagsProperty := by
        rw [appTagEnable, hidle, hasAppTag_notReady]
      have hreset : ∀ appFd, ListenerState.Fresh
          (resetGlobalStatus { state with appTag := args.tags, appFd }) := by
        intro appFd
        refine hfresh.congr hregistry ?_ ?_ ?_
        · rfl
        · rfl
        · rw [appTagEnable, appTagEnable, hidle]
          rfl
      dsimp only
      split
      · exact hreset state.appFd
      split
      · apply hfresh.notified hregistry
        · simp
        · rw [hvalue]
          simp [handleAppTagChange_queue, appTagEnable]
      · exact hreset true

theorem Fresh.stopCaptureAppTrace (hfresh : state.Fresh) (hregistry : state.Registry)
    (written : Bool) : (state.stopCaptureAppTrace written).Fresh := by
  unfold ListenerState.stopCaptureAppTrace
  split
  · exact hfresh
  split
  · exact hfresh
  · apply hfresh.notified hregistry
    · simp [resetGlobalStatus]
    · simp [resetGlobalStatus, handleAppTagChange_queue, appTagEnable, hasAppTag_notReady]

theorem Fresh.step (hfresh : state.Fresh) (hregistry : state.Registry)
    {label : ListenerLabel} (hallowed : state.Allowed label) {next : ListenerState}
    (hstep : listenerStep state label = some next) : next.Fresh := by
  cases label with
  | register callback type =>
      cases hstep
      exact hfresh.register callback type
  | unregister index =>
      cases hstep
      exact hfresh.unregister index
  | setCallbacksNapi executeCallbackNapi =>
      cases hstep
      exact hfresh.congr hregistry rfl rfl rfl
  | setCallbacksAni executeCallbackAni =>
      cases hstep
      exact hfresh.congr hregistry rfl rfl rfl
  | updateSysParamTags created seen =>
      cases hstep
      exact hfresh.updateSysParamTags hregistry created seen
  | openTraceMarkerFile opened tags created =>
      cases hstep
      exact hfresh.openTraceMarkerFile hregistry created hallowed
  | startCaptureAppTrace args header =>
      cases hstep
      exact hfresh.startCaptureAppTrace hregistry args header
  | stopCaptureAppTrace written =>
      cases hstep
      exact hfresh.stopCaptureAppTrace hregistry written
  | processTask =>
      rw [listenerStep] at hstep
      split at hstep
      · cases hstep
      · next task queue hqueue =>
          cases hstep
          exact hfresh.execute hqueue

theorem registry_start : Registry {} where
  distinct := List.nodup_nil
  range := by
    intro entry hentry
    cases hentry
  empty := by simp
  idle := fun _ => rfl

theorem fresh_start : Fresh {} := by
  intro entry hentry
  cases hentry

theorem registry_of_run {final : ListenerState} {labels : List ListenerLabel}
    (hrun : listeners.run {} labels = some final) : final.Registry :=
  listeners.run_induction (motive := fun _ state => state.Registry) registry_start
    (fun _ _ _ _ _ hregistry hstep => hregistry.step hstep) hrun

theorem fresh_of_run {final : ListenerState} {labels : List ListenerLabel}
    (hobeys : listeners.Obeys Allowed {} labels)
    (hrun : listeners.run {} labels = some final) : final.Registry ∧ final.Fresh := by
  refine listeners.invariant_of_obeys (motive := fun state => state.Registry ∧ state.Fresh)
    ?_ ⟨registry_start, fresh_start⟩ hobeys hrun
  intro state label next hstate hallowed hstep
  exact ⟨hstate.1.step hstep, hstate.2.step hstate.1 hallowed hstep⟩

theorem drains (state : ListenerState) :
    ∃ final, listeners.run state (List.replicate state.queue.length .processTask) =
      some final ∧ final.queue = [] := by
  generalize hqueue : state.queue = queue
  induction queue generalizing state with
  | nil => exact ⟨state, rfl, hqueue⟩
  | cons task queue ih =>
      have hstep : listeners.step state .processTask =
          some (ListenerState.execute { state with queue } task) := by
        change listenerStep state .processTask = _
        rw [listenerStep, hqueue]
      obtain ⟨final, hrun, hempty⟩ := ih (ListenerState.execute { state with queue } task) rfl
      rw [List.length_cons, List.replicate_succ, listeners.run_cons_of_step hstep]
      exact ⟨final, hrun, hempty⟩

end ListenerState

end HitraceMeter

open HitraceMeter ListenerState in
/-- The registry is in order after every run; a run can be drained; and after a drained
run in which the initialisation changes no value behind the back of a callback, every
native callback has the current value. -/
theorem trace_listeners_current (labels : List ListenerLabel) (final : ListenerState)
    (hrun : listeners.run {} labels = some final) :
    (final.callbacks.map Prod.fst).Nodup ∧
      (∀ entry ∈ final.callbacks, 0 ≤ entry.1 ∧ entry.1 < 10) ∧
      (final.isCallbacksEmpty = true ↔ final.callbacks = []) ∧
      (∃ drained, listeners.run final
          (List.replicate final.queue.length .processTask) = some drained ∧
        drained.queue = []) ∧
      (listeners.Obeys Allowed {} labels → final.queue = [] →
        ∀ entry ∈ final.callbacks, entry.2.type = .native →
          entry.2.received = some (hasAppTag (final.tagsProperty ||| final.appTag))) := by
  have hregistry := registry_of_run hrun
  refine ⟨hregistry.distinct, hregistry.range, hregistry.empty, drains final, ?_⟩
  intro hobeys hdrained entry hentry hnative
  have hcurrent := (fresh_of_run hobeys hrun).2 entry hentry hnative
  rw [hdrained] at hcurrent
  exact hcurrent

namespace HitraceMeter

/-- A listener, and a change of the parameter that switches the app tag on. -/
def notifiedRun : List ListenerLabel :=
  [.openTraceMarkerFile true 1 true, .register (some 7) .native,
    .updateSysParamTags true (some hitraceTagApp), .processTask, .processTask]

end HitraceMeter

open HitraceMeter in
theorem trace_listeners_current_parameter_change :
    ∃ final, listeners.run {} notifiedRun = some final ∧
      ∀ entry ∈ final.callbacks, entry.2.type = .native →
        entry.2.received = some (hasAppTag (final.tagsProperty ||| final.appTag)) := by
  refine ⟨_, rfl, ?_⟩
  exact (trace_listeners_current notifiedRun _ rfl).2.2.2.2 (by decide) (by decide)

open HitraceMeter ListenerState in
/-- A listener that registers before the first marker: the initialisation reads the app
tag and nobody tells it. -/
theorem initialisation_leaves_listener_stale :
    ∃ final : ListenerState,
      listeners.run {} [.register (some 7) .native, .processTask,
        .openTraceMarkerFile true hitraceTagApp true] = some final ∧
        final.queue = [] ∧
        final.callbacks = [(0, ⟨7, .native, some false⟩)] ∧
        hasAppTag (final.tagsProperty ||| final.appTag) = true :=
  ⟨_, rfl, by decide, by decide, by decide⟩

end Hitrace
