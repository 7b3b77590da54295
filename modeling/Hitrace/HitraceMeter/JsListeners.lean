import Mathlib.Data.List.Nodup
import Mathlib.Logic.Function.Basic
import Hitrace.HitraceMeter.TraceListeners

namespace Hitrace

open Library HitraceMeter

/-! The listeners of JavaScript, from `napi_hitrace_meter.cpp`: contexts that the registry
holds as callbacks, and calls of them that wait for the JavaScript thread. -/

/-- `contexts` has the contexts that are not deleted, each with its `traceEnable`, and
`heard` the value a callback was called with last.  `created` numbers the contexts;
`pending` are the calls in the queues of the thread-safe functions.  `invalid` counts the
uses of a deleted context. -/
structure JsListeners where
  registry : ListenerState := {}
  contexts : Nat → Option Bool := fun _ => none
  created : Nat := 0
  pending : List Nat := []
  heard : Nat → Option Bool := fun _ => none
  invalid : Nat := 0

namespace JsListeners

/-- `meter` is a step of the listeners that this file has no part in. -/
inductive Label
  | registerTraceListener
  | unregisterTraceListener (index : Int)
  | meter (label : ListenerLabel)
  | processTask
  | threadSafeCall (place : Nat)

def jsExcuteCallBack (state : JsListeners) (context : Nat) (enable : Bool) : JsListeners :=
  if (state.contexts context).isSome then
    { state with
      contexts := Function.update state.contexts context (some enable)
      pending := state.pending ++ [context] }
  else { state with invalid := state.invalid + 1 }

def jsDeleteCallback (state : JsListeners) (context : Nat) : JsListeners :=
  if (state.contexts context).isSome then
    { state with contexts := Function.update state.contexts context none }
  else { state with invalid := state.invalid + 1 }

/-- `SetCallbacksNapi` comes before the registration, and a context that no index is free
for is deleted at once. -/
def jsRegisterTraceListener (state : JsListeners) : JsListeners :=
  let context := state.created
  let made :=
    { state with
      contexts := Function.update state.contexts context (some false)
      created := state.created + 1 }
  let (registerRet, registry) :=
    ListenerState.register { state.registry with executeCallbackNapi := true } (some context)
      .napi
  if registerRet < 0 then { made with registry }.jsDeleteCallback context
  else { made with registry }

/-- The context of the callback at an index, if JavaScript has put it there. -/
def contextAt (registry : ListenerState) (index : Int) : Option Nat :=
  (registry.callbacks.find? fun entry => entry.1 = index && entry.2.type = .napi).map
    fun entry => entry.2.callback

/-- `Unregister`, from JavaScript or from native code. -/
def unregisterTraceListener (state : JsListeners) (index : Int) : JsListeners :=
  let next := { state with registry := (state.registry.unregister index).2 }
  match contextAt state.registry index with
  | some context =>
      if state.registry.executeCallbackNapi then next.jsDeleteCallback context else next
  | none => next

/-- The callbacks of JavaScript that a task calls. -/
def called (registry : ListenerState) (task : ListenerTask) : List (Nat × Bool) :=
  registry.callbacks.filterMap fun entry =>
    if entry.2.type = .napi ∧ registry.executeCallbackNapi = true then
      (task.value entry.1).map fun enable => (entry.2.callback, enable)
    else none

def processTask (state : JsListeners) : Option JsListeners :=
  match state.registry.queue with
  | [] => none
  | task :: queue =>
      let next :=
        { state with registry := ListenerState.execute { state.registry with queue } task }
      some ((called state.registry task).foldl
        (fun state call => state.jsExcuteCallBack call.1 call.2) next)

/-- `JsThreadSafeCall`.  Each thread-safe function has its own queue, and the calls in it
are all the same. -/
def jsThreadSafeCall (state : JsListeners) (place : Nat) : Option JsListeners :=
  match state.pending[place]? with
  | none => none
  | some context =>
      let next := { state with pending := state.pending.eraseIdx place }
      match state.contexts context with
      | none => some { next with invalid := state.invalid + 1 }
      | some enable =>
          some { next with heard := Function.update state.heard context (some enable) }

/-- What other code of the process does. -/
def outside : ListenerLabel → Bool
  | .register _ .napi => false
  | .unregister _ => false
  | .setCallbacksNapi _ => false
  | .processTask => false
  | _ => true

def step (state : JsListeners) : Label → Option JsListeners
  | .registerTraceListener => some state.jsRegisterTraceListener
  | .unregisterTraceListener index => some (state.unregisterTraceListener index)
  | .meter label =>
      if outside label then
        (listenerStep state.registry label).map fun registry => { state with registry }
      else none
  | .processTask => state.processTask
  | .threadSafeCall place => state.jsThreadSafeCall place

end JsListeners

def jsListeners : Library.Machine JsListeners JsListeners.Label where
  init := fun state => state = {}
  step := JsListeners.step

namespace JsListeners

variable {state next : JsListeners} {label : Label} {registry : ListenerState}

/-! The invariant. -/

/-- An entry of the registry that JavaScript has made. -/
def OfJs (entry : Int × Listener) : Prop :=
  entry.2.type = .napi

instance (entry : Int × Listener) : Decidable (OfJs entry) :=
  inferInstanceAs (Decidable (_ = _))

structure Sound (state : JsListeners) : Prop where
  registry : state.registry.Registry
  live : ∀ context, (state.contexts context).isSome = true ↔
    ∃ entry ∈ state.registry.callbacks, OfJs entry ∧ entry.2.callback = context
  distinct : ∀ first ∈ state.registry.callbacks, ∀ second ∈ state.registry.callbacks,
    OfJs first → OfJs second → first.2.callback = second.2.callback → first.1 = second.1
  created : ∀ context, state.created ≤ context → state.contexts context = none ∧
    context ∉ state.pending ∧ state.heard context = none
  installed : ∀ entry ∈ state.registry.callbacks, OfJs entry →
    state.registry.executeCallbackNapi = true
  silent : ∀ entry ∈ state.registry.callbacks, OfJs entry → entry.2.received = none →
    entry.2.callback ∉ state.pending ∧ state.heard entry.2.callback = none
  current : ∀ entry ∈ state.registry.callbacks, OfJs entry →
    ∀ value, entry.2.received = some value →
      state.contexts entry.2.callback = some value ∧
        (entry.2.callback ∈ state.pending ∨ state.heard entry.2.callback = some value)

theorem Sound.isSome (hsound : Sound state) {entry : Int × Listener}
    (hmem : entry ∈ state.registry.callbacks) (hjs : OfJs entry) :
    (state.contexts entry.2.callback).isSome = true :=
  (hsound.live _).mpr ⟨entry, hmem, hjs, rfl⟩

theorem sound_start : Sound {} where
  registry := ListenerState.registry_start
  live := fun _ => ⟨nofun, fun ⟨_, hmem, _⟩ => nomatch hmem⟩
  distinct := nofun
  created := fun _ _ => ⟨rfl, List.not_mem_nil, rfl⟩
  installed := nofun
  silent := nofun
  current := nofun

/-- Steps that keep the callbacks keep the invariant. -/
theorem Sound.congr (hsound : Sound state) (hregistry : registry.Registry)
    (hcallbacks : registry.callbacks = state.registry.callbacks)
    (hinstalled : registry.executeCallbackNapi = state.registry.executeCallbackNapi ∨
      registry.executeCallbackNapi = true) :
    Sound { state with registry } where
  registry := hregistry
  live := by
    dsimp only
    rw [hcallbacks]
    exact hsound.live
  distinct := by
    dsimp only
    rw [hcallbacks]
    exact hsound.distinct
  created := hsound.created
  installed := by
    dsimp only
    rw [hcallbacks]
    intro entry hmem hjs
    rcases hinstalled with hsame | htrue
    · exact hsame.trans (hsound.installed entry hmem hjs)
    · exact htrue
  silent := by
    dsimp only
    rw [hcallbacks]
    exact hsound.silent
  current := by
    dsimp only
    rw [hcallbacks]
    exact hsound.current

/-- An entry of native code or of ArkTS is of no concern here. -/
theorem Sound.cons (hsound : Sound state) (hregistry : registry.Registry)
    {entry : Int × Listener} (hcallbacks : registry.callbacks = entry :: state.registry.callbacks)
    (hother : ¬ OfJs entry)
    (hinstalled : registry.executeCallbackNapi = state.registry.executeCallbackNapi) :
    Sound { state with registry } := by
  have hmem : ∀ other ∈ registry.callbacks, OfJs other →
      other ∈ state.registry.callbacks := by
    intro other hin hjs
    rw [hcallbacks] at hin
    rcases List.mem_cons.mp hin with rfl | hold
    · exact absurd hjs hother
    · exact hold
  refine ⟨hregistry, fun context => ?_, ?_, hsound.created, ?_, ?_, ?_⟩
  · dsimp only
    rw [hsound.live context]
    constructor
    · rintro ⟨other, hold, hjs, hsame⟩
      exact ⟨other, hcallbacks ▸ List.mem_cons_of_mem _ hold, hjs, hsame⟩
    · rintro ⟨other, hin, hjs, hsame⟩
      exact ⟨other, hmem other hin hjs, hjs, hsame⟩
  · intro first hfirst second hsecond hjs hother
    exact hsound.distinct first (hmem first hfirst hjs) second (hmem second hsecond hother)
      hjs hother
  · intro other hin hjs
    exact hinstalled.trans (hsound.installed other (hmem other hin hjs) hjs)
  · intro other hin hjs
    exact hsound.silent other (hmem other hin hjs) hjs
  · intro other hin hjs
    exact hsound.current other (hmem other hin hjs) hjs

/-! Other code of the process. -/

theorem handleAppTagChange_executeCallbackNapi (oldTags newTags : UInt64) :
    (registry.handleAppTagChange oldTags newTags).executeCallbackNapi =
      registry.executeCallbackNapi := by
  rw [ListenerState.handleAppTagChange]
  split <;> rfl

theorem startCaptureAppTrace_callbacks (args : AppTrace.StartArgs) (header : Bool) :
    (registry.startCaptureAppTrace args header).callbacks = registry.callbacks ∧
      (registry.startCaptureAppTrace args header).executeCallbackNapi =
        registry.executeCallbackNapi := by
  unfold ListenerState.startCaptureAppTrace
  split
  · exact ⟨rfl, rfl⟩
  split
  · exact ⟨rfl, rfl⟩
  dsimp only
  split
  · exact ⟨rfl, rfl⟩
  split
  · exact ⟨ListenerState.handleAppTagChange_callbacks _ _,
      handleAppTagChange_executeCallbackNapi _ _⟩
  · exact ⟨rfl, rfl⟩

theorem stopCaptureAppTrace_callbacks (written : Bool) :
    (registry.stopCaptureAppTrace written).callbacks = registry.callbacks ∧
      (registry.stopCaptureAppTrace written).executeCallbackNapi =
        registry.executeCallbackNapi := by
  unfold ListenerState.stopCaptureAppTrace
  split
  · exact ⟨rfl, rfl⟩
  split
  · exact ⟨rfl, rfl⟩
  · exact ⟨ListenerState.handleAppTagChange_callbacks _ _,
      handleAppTagChange_executeCallbackNapi _ _⟩

theorem updateSysParamTags_callbacks (made : Bool) (seen : Option UInt64) :
    (registry.updateSysParamTags made seen).callbacks = registry.callbacks ∧
      (registry.updateSysParamTags made seen).executeCallbackNapi =
        registry.executeCallbackNapi := by
  unfold ListenerState.updateSysParamTags
  split
  · exact ⟨rfl, rfl⟩
  split
  · exact ⟨rfl, rfl⟩
  dsimp only
  split
  · exact ⟨ListenerState.handleAppTagChange_callbacks _ _,
      handleAppTagChange_executeCallbackNapi _ _⟩
  · exact ⟨rfl, rfl⟩

theorem openTraceMarkerFile_callbacks (opened : Bool) (tags : UInt64) (made : Bool) :
    (registry.openTraceMarkerFile opened tags made).callbacks = registry.callbacks ∧
      (registry.openTraceMarkerFile opened tags made).executeCallbackNapi =
        registry.executeCallbackNapi := by
  unfold ListenerState.openTraceMarkerFile
  split
  · exact ⟨rfl, rfl⟩
  split <;> exact ⟨rfl, rfl⟩

theorem Sound.register (hsound : Sound state) (callback : Option Nat)
    {type : HiTraceCallbackType} (hother : type ≠ .napi) :
    Sound { state with registry := (state.registry.register callback type).2 } := by
  have hregistry := hsound.registry.register callback type
  cases callback with
  | none => exact hsound.congr hregistry rfl (.inl rfl)
  | some callback =>
      cases hfree : state.registry.freeIndex with
      | none =>
          simp only [ListenerState.register, hfree] at hregistry ⊢
          exact hsound
      | some index =>
          simp only [ListenerState.register, hfree] at hregistry ⊢
          exact hsound.cons hregistry rfl hother rfl

theorem Sound.meter (hsound : Sound state) {label : ListenerLabel}
    (houtside : outside label = true) (hstep : listenerStep state.registry label =
      some registry) : Sound { state with registry } := by
  have hregistry := hsound.registry.step hstep
  cases label with
  | register callback type =>
      cases hstep
      exact hsound.register callback fun hnapi => nomatch hnapi ▸ houtside
  | unregister index => cases houtside
  | setCallbacksNapi executeCallbackNapi => cases houtside
  | setCallbacksAni executeCallbackAni =>
      cases hstep
      exact hsound.congr hregistry rfl (.inl rfl)
  | updateSysParamTags made seen =>
      cases hstep
      have hkept := @updateSysParamTags_callbacks state.registry made seen
      exact hsound.congr hregistry hkept.1 (.inl hkept.2)
  | openTraceMarkerFile opened tags made =>
      cases hstep
      have hkept := @openTraceMarkerFile_callbacks state.registry opened tags made
      exact hsound.congr hregistry hkept.1 (.inl hkept.2)
  | startCaptureAppTrace args header =>
      cases hstep
      have hkept := @startCaptureAppTrace_callbacks state.registry args header
      exact hsound.congr hregistry hkept.1 (.inl hkept.2)
  | stopCaptureAppTrace written =>
      cases hstep
      have hkept := @stopCaptureAppTrace_callbacks state.registry written
      exact hsound.congr hregistry hkept.1 (.inl hkept.2)
  | processTask => cases houtside

/-! Registration. -/

theorem jsRegisterTraceListener_cases (hsound : Sound state) :
    (state.jsRegisterTraceListener =
        { state with
          registry := { state.registry with executeCallbackNapi := true }
          created := state.created + 1 }) ∨
      ∃ index registry, registry.Registry ∧
        index ∉ state.registry.callbacks.map Prod.fst ∧
        registry.callbacks =
          (index, { callback := state.created, type := .napi }) :: state.registry.callbacks ∧
        registry.executeCallbackNapi = true ∧
        state.jsRegisterTraceListener =
          { state with
            registry
            contexts := Function.update state.contexts state.created (some false)
            created := state.created + 1 } := by
  have hinstalled : ListenerState.Registry
      { state.registry with executeCallbackNapi := true } :=
    hsound.registry.congr rfl rfl hsound.registry.idle
  have hregistry := hinstalled.register (some state.created) .napi
  rw [jsRegisterTraceListener]
  cases hfree : ListenerState.freeIndex
      { state.registry with executeCallbackNapi := true } with
  | none =>
      refine .inl ?_
      have hnone := (hsound.created state.created (Nat.le_refl _)).1
      simp only [ListenerState.register, hfree, reachMaxCallbacks]
      rw [if_pos (by decide), jsDeleteCallback]
      simp [Function.update_eq_self_iff, hnone]
  | some index =>
      obtain ⟨hrange, hunused⟩ := ListenerState.freeIndex_spec hfree
      simp only [ListenerState.register, hfree] at hregistry ⊢
      rw [if_neg (by omega)]
      exact .inr ⟨index, _, hregistry, hunused, rfl, rfl, rfl⟩

theorem Sound.jsRegisterTraceListener (hsound : Sound state) :
    Sound state.jsRegisterTraceListener := by
  have hnew := hsound.created state.created (Nat.le_refl _)
  rcases jsRegisterTraceListener_cases hsound with heq |
    ⟨index, registry, hregistry, hunused, hcallbacks, hinstalled, heq⟩
  · rw [heq]
    have hregistry : ListenerState.Registry
        { state.registry with executeCallbackNapi := true } :=
      hsound.registry.congr rfl rfl hsound.registry.idle
    exact { hsound.congr hregistry rfl (.inr rfl) with
      created := fun context hbeyond => hsound.created context (Nat.le_of_succ_le hbeyond) }
  · rw [heq]
    have hfresh : ∀ entry ∈ state.registry.callbacks, OfJs entry →
        entry.2.callback ≠ state.created := by
      intro entry hmem hjs hsame
      have hlive := hsound.isSome hmem hjs
      rw [hsame, hnew.1] at hlive
      cases hlive
    refine ⟨hregistry, fun context => ?_, ?_, fun context hbeyond => ?_, fun _ _ _ => hinstalled,
      ?_, ?_⟩
    · dsimp only
      rw [hcallbacks, List.exists_mem_cons_iff]
      by_cases hcontext : context = state.created
      · rw [hcontext, Function.update_self]
        exact iff_of_true rfl (.inl ⟨rfl, rfl⟩)
      · rw [Function.update_of_ne hcontext, hsound.live context]
        refine ⟨.inr, fun hentry => hentry.resolve_left ?_⟩
        rintro ⟨_, hsame⟩
        exact hcontext hsame.symm
    · dsimp only
      rw [hcallbacks]
      intro first hfirst second hsecond hjs hother hsame
      rcases List.mem_cons.mp hfirst with rfl | hfirst
      · rcases List.mem_cons.mp hsecond with rfl | hsecond
        · rfl
        · exact absurd hsame.symm (hfresh second hsecond hother)
      · rcases List.mem_cons.mp hsecond with rfl | hsecond
        · exact absurd hsame (hfresh first hfirst hjs)
        · exact hsound.distinct first hfirst second hsecond hjs hother hsame
    · dsimp only at hbeyond ⊢
      rw [Function.update_of_ne (by omega)]
      exact hsound.created context (by omega)
    · dsimp only
      rw [hcallbacks, List.forall_mem_cons]
      exact ⟨fun _ _ => hnew.2, hsound.silent⟩
    · dsimp only
      rw [hcallbacks, List.forall_mem_cons]
      refine ⟨fun _ _ hreceived => (nomatch hreceived), fun entry hmem hjs value hreceived => ?_⟩
      rw [Function.update_of_ne (hfresh entry hmem hjs)]
      exact hsound.current entry hmem hjs value hreceived

/-! Unregistration. -/

theorem unregister_callbacks (hregistry : registry.Registry) (index : Int) :
    (registry.unregister index).2.callbacks =
        registry.callbacks.filter (fun entry => entry.1 ≠ index) ∧
      (registry.unregister index).2.executeCallbackNapi = registry.executeCallbackNapi := by
  rw [ListenerState.unregister]
  split
  · next hrange =>
      refine ⟨(List.filter_eq_self.mpr fun entry hmem => decide_eq_true ?_).symm, rfl⟩
      rintro rfl
      have hentry := hregistry.range entry hmem
      omega
  split
  · next hunused =>
      refine ⟨(List.filter_eq_self.mpr fun entry hmem => decide_eq_true ?_).symm, rfl⟩
      rintro rfl
      simp only [ListenerState.registered, Bool.not_eq_true', List.any_eq_false,
        decide_eq_true_eq] at hunused
      exact hunused entry hmem rfl
  · exact ⟨rfl, rfl⟩

theorem contextAt_some {index : Int} {context : Nat}
    (hcontext : contextAt registry index = some context) :
    ∃ entry ∈ registry.callbacks, entry.1 = index ∧ OfJs entry ∧
      entry.2.callback = context := by
  obtain ⟨entry, hfind, hcallback⟩ := Option.map_eq_some_iff.mp hcontext
  have hentry := List.find?_some hfind
  rw [Bool.and_eq_true, decide_eq_true_eq, decide_eq_true_eq] at hentry
  exact ⟨entry, List.mem_of_find?_eq_some hfind, hentry.1, hentry.2, hcallback⟩

theorem contextAt_none {index : Int} (hcontext : contextAt registry index = none)
    {entry : Int × Listener} (hmem : entry ∈ registry.callbacks) (hjs : OfJs entry) :
    entry.1 ≠ index := by
  intro hindex
  have hfind := List.find?_eq_none.mp (Option.map_eq_none_iff.mp hcontext) entry hmem
  exact hfind (by rw [hindex, hjs]; simp)

/-- What an unregistration does: nothing to the contexts, or the context of the entry is
deleted. -/
theorem unregisterTraceListener_cases (hsound : Sound state) (index : Int) :
    ((∀ entry ∈ state.registry.callbacks, OfJs entry → entry.1 ≠ index) ∧
        state.unregisterTraceListener index =
          { state with registry := (state.registry.unregister index).2 }) ∨
      ∃ entry ∈ state.registry.callbacks, OfJs entry ∧ entry.1 = index ∧
        state.unregisterTraceListener index =
          { state with
            registry := (state.registry.unregister index).2
            contexts := Function.update state.contexts entry.2.callback none } := by
  rw [unregisterTraceListener]
  cases hcontext : contextAt state.registry index with
  | none => exact .inl ⟨fun entry hmem hjs => contextAt_none hcontext hmem hjs, rfl⟩
  | some context =>
      obtain ⟨entry, hmem, hindex, hjs, rfl⟩ := contextAt_some hcontext
      refine .inr ⟨entry, hmem, hjs, hindex, ?_⟩
      dsimp only
      rw [if_pos (hsound.installed entry hmem hjs), jsDeleteCallback,
        if_pos (hsound.isSome hmem hjs)]

theorem Sound.unregisterTraceListener (hsound : Sound state) (index : Int) :
    Sound (state.unregisterTraceListener index) := by
  have hregistry := hsound.registry.unregister index
  obtain ⟨hcallbacks, hinstalled⟩ := unregister_callbacks hsound.registry index
  have hmem : ∀ entry, entry ∈ (state.registry.unregister index).2.callbacks ↔
      entry ∈ state.registry.callbacks ∧ entry.1 ≠ index := by
    intro entry
    rw [hcallbacks, List.mem_filter, decide_eq_true_eq]
  rcases unregisterTraceListener_cases hsound index with ⟨hnone, heq⟩ |
    ⟨gone, hgone, hjs, hindex, heq⟩
  · rw [heq]
    refine ⟨hregistry, fun context => ?_, ?_, hsound.created, ?_, ?_, ?_⟩
    · dsimp only
      rw [hsound.live context]
      constructor
      · rintro ⟨entry, hold, hjs, hsame⟩
        exact ⟨entry, (hmem entry).mpr ⟨hold, hnone entry hold hjs⟩, hjs, hsame⟩
      · rintro ⟨entry, hin, hjs, hsame⟩
        exact ⟨entry, ((hmem entry).mp hin).1, hjs, hsame⟩
    · intro first hfirst second hsecond
      exact hsound.distinct first ((hmem first).mp hfirst).1 second ((hmem second).mp hsecond).1
    · intro entry hin hjs
      exact hinstalled.trans (hsound.installed entry ((hmem entry).mp hin).1 hjs)
    · exact fun entry hin => hsound.silent entry ((hmem entry).mp hin).1
    · exact fun entry hin => hsound.current entry ((hmem entry).mp hin).1
  · rw [heq]
    have hother : ∀ entry ∈ (state.registry.unregister index).2.callbacks, OfJs entry →
        entry.2.callback ≠ gone.2.callback := by
      intro entry hin hentry hsame
      obtain ⟨hold, hne⟩ := (hmem entry).mp hin
      exact hne ((hsound.distinct entry hold gone hgone hentry hjs hsame).trans hindex)
    refine ⟨hregistry, fun context => ?_, ?_, fun context hbeyond => ?_, ?_, ?_, ?_⟩
    · dsimp only
      constructor
      · intro hlive
        have hcontext : context ≠ gone.2.callback := by
          rintro rfl
          rw [Function.update_self] at hlive
          cases hlive
        rw [Function.update_of_ne hcontext, hsound.live context] at hlive
        obtain ⟨entry, hold, hentry, hsame⟩ := hlive
        refine ⟨entry, (hmem entry).mpr ⟨hold, fun hsameIndex => hcontext ?_⟩, hentry, hsame⟩
        have hentryGone := List.inj_on_of_nodup_map hsound.registry.distinct hold hgone
          (hsameIndex.trans hindex.symm)
        rw [← hsame, hentryGone]
      · rintro ⟨entry, hin, hentry, rfl⟩
        rw [Function.update_of_ne (hother entry hin hentry)]
        exact hsound.isSome ((hmem entry).mp hin).1 hentry
    · intro first hfirst second hsecond
      exact hsound.distinct first ((hmem first).mp hfirst).1 second ((hmem second).mp hsecond).1
    · dsimp only at hbeyond ⊢
      obtain ⟨hnone, hrest⟩ := hsound.created context hbeyond
      refine ⟨?_, hrest⟩
      rw [Function.update_apply, hnone, ite_self]
    · intro entry hin hentry
      exact hinstalled.trans (hsound.installed entry ((hmem entry).mp hin).1 hentry)
    · exact fun entry hin => hsound.silent entry ((hmem entry).mp hin).1
    · intro entry hin hentry value hreceived
      dsimp only
      rw [Function.update_of_ne (hother entry hin hentry)]
      exact hsound.current entry ((hmem entry).mp hin).1 hentry value hreceived

/-! The calls that a task makes. -/

/-- What the calls of a task leave behind, each of them with a context that is there. -/
structure Called (calls : List (Nat × Bool)) (state after : JsListeners) : Prop where
  registry : after.registry = state.registry
  created : after.created = state.created
  heard : after.heard = state.heard
  invalid : after.invalid = state.invalid
  pending : after.pending = state.pending ++ calls.map Prod.fst
  told : ∀ call ∈ calls, after.contexts call.1 = some call.2
  kept : ∀ context, context ∉ calls.map Prod.fst →
    after.contexts context = state.contexts context

theorem called_of_calls {calls : List (Nat × Bool)}
    (hlive : ∀ call ∈ calls, (state.contexts call.1).isSome = true)
    (hsame : ∀ first ∈ calls, ∀ second ∈ calls, first.1 = second.1 → first.2 = second.2) :
    Called calls state
      (calls.foldl (fun state call => state.jsExcuteCallBack call.1 call.2) state) := by
  induction calls generalizing state with
  | nil =>
      exact ⟨rfl, rfl, rfl, rfl, (List.append_nil _).symm, nofun, fun _ _ => rfl⟩
  | cons call rest ih =>
      rw [List.forall_mem_cons] at hlive
      rw [List.foldl_cons, jsExcuteCallBack, if_pos hlive.1]
      have hrest := @ih { state with
        contexts := Function.update state.contexts call.1 (some call.2)
        pending := state.pending ++ [call.1] } ?_ ?_
      · refine ⟨hrest.registry, hrest.created, hrest.heard, hrest.invalid, ?_, ?_, ?_⟩
        · rw [hrest.pending, List.map_cons, List.append_assoc]
          rfl
        · rw [List.forall_mem_cons]
          refine ⟨?_, hrest.told⟩
          by_cases hagain : call.1 ∈ rest.map Prod.fst
          · obtain ⟨other, hother, hcontext⟩ := List.mem_map.mp hagain
            have htold := hrest.told other hother
            rw [hcontext,
              hsame other (List.mem_cons_of_mem _ hother) call List.mem_cons_self hcontext] at htold
            exact htold
          · rw [hrest.kept _ hagain]
            exact Function.update_self ..
        · intro context hcontext
          rw [List.map_cons, List.mem_cons, not_or] at hcontext
          rw [hrest.kept context hcontext.2]
          exact Function.update_of_ne hcontext.1 ..
      · intro other hother
        dsimp only
        rw [Function.update_apply]
        split
        · rfl
        · exact hlive.2 other hother
      · intro first hfirst second hsecond
        exact hsame first (List.mem_cons_of_mem _ hfirst) second
          (List.mem_cons_of_mem _ hsecond)

theorem mem_called (hsound : Sound state) {task : ListenerTask} {call : Nat × Bool} :
    call ∈ called state.registry task ↔
      ∃ entry ∈ state.registry.callbacks, OfJs entry ∧ entry.2.callback = call.1 ∧
        task.value entry.1 = some call.2 := by
  rw [called, List.mem_filterMap]
  refine exists_congr fun entry => and_congr_right fun hmem => ?_
  constructor
  · intro hcall
    obtain ⟨⟨hjs, _⟩, hmade⟩ := Option.ite_none_right_eq_some.mp hcall
    obtain ⟨enable, hvalue, rfl⟩ := Option.map_eq_some_iff.mp hmade
    exact ⟨hjs, rfl, hvalue⟩
  · rintro ⟨hjs, hcallback, hvalue⟩
    rw [if_pos ⟨hjs, hsound.installed entry hmem hjs⟩, hvalue, hcallback]
    rfl

theorem called_same (hsound : Sound state) {task : ListenerTask} :
    ∀ first ∈ called state.registry task, ∀ second ∈ called state.registry task,
      first.1 = second.1 → first.2 = second.2 := by
  intro first hfirst second hsecond hcontext
  obtain ⟨entry, hmem, hjs, hcallback, hvalue⟩ := (mem_called hsound).mp hfirst
  obtain ⟨other, hother, hotherJs, hotherCallback, hotherValue⟩ := (mem_called hsound).mp hsecond
  have hindex := hsound.distinct entry hmem other hother hjs hotherJs
    (hcallback.trans (hcontext.trans hotherCallback.symm))
  rw [hindex, hotherValue] at hvalue
  exact (Option.some.inj hvalue).symm

theorem live_of_called (hsound : Sound state) {task : ListenerTask} (context : Nat)
    (hcontext : context ∈ (called state.registry task).map Prod.fst) :
    (state.contexts context).isSome = true := by
  obtain ⟨call, hcall, rfl⟩ := List.mem_map.mp hcontext
  obtain ⟨entry, hmem, hjs, hcallback, _⟩ := (mem_called hsound).mp hcall
  exact hcallback ▸ hsound.isSome hmem hjs

theorem Called.isSome {calls : List (Nat × Bool)} (hcalled : Called calls state next)
    (hlive : ∀ context ∈ calls.map Prod.fst, (state.contexts context).isSome = true)
    (context : Nat) : (next.contexts context).isSome = (state.contexts context).isSome := by
  by_cases hcontext : context ∈ calls.map Prod.fst
  · rw [hlive context hcontext]
    obtain ⟨call, hcall, rfl⟩ := List.mem_map.mp hcontext
    rw [hcalled.told call hcall]
    rfl
  · rw [hcalled.kept context hcontext]

/-- A task of the registry uses the contexts of entries only. -/
theorem processTask_called (hsound : Sound state) (hstep : state.processTask = some next) :
    ∃ task queue, state.registry.queue = task :: queue ∧
      Called (called state.registry task)
        { state with registry := ListenerState.execute { state.registry with queue } task }
        next := by
  rw [processTask] at hstep
  split at hstep
  · cases hstep
  · next task queue hqueue =>
      cases hstep
      refine ⟨task, queue, hqueue, called_of_calls ?_ (called_same hsound)⟩
      exact fun call hcall => live_of_called hsound call.1 (List.mem_map_of_mem hcall)

theorem mem_execute {task : ListenerTask} {queue : List ListenerTask}
    {entry : Int × Listener} (hentry : entry ∈
      (ListenerState.execute { registry with queue } task).callbacks) :
    ∃ origin ∈ registry.callbacks, entry.1 = origin.1 ∧
      entry.2.callback = origin.2.callback ∧ entry.2.type = origin.2.type ∧
      (registry.executes origin.2.type = true →
        entry.2.received = (task.value origin.1).or origin.2.received) := by
  rw [ListenerState.execute, List.mem_map] at hentry
  obtain ⟨origin, horigin, rfl⟩ := hentry
  refine ⟨origin, horigin, ?_⟩
  by_cases hexecutes : registry.executes origin.2.type = true
  · have hpopped : ListenerState.executes { registry with queue } origin.2.type = true :=
      hexecutes
    rw [if_pos hpopped]
    exact ⟨rfl, rfl, rfl, fun _ => rfl⟩
  · have hpopped : ¬ ListenerState.executes { registry with queue } origin.2.type = true :=
      hexecutes
    rw [if_neg hpopped]
    exact ⟨rfl, rfl, rfl, fun hyes => absurd hyes hexecutes⟩

theorem execute_mem {task : ListenerTask} {queue : List ListenerTask}
    {origin : Int × Listener} (horigin : origin ∈ registry.callbacks) :
    ∃ entry ∈ (ListenerState.execute { registry with queue } task).callbacks,
      entry.2.callback = origin.2.callback ∧ entry.2.type = origin.2.type := by
  refine ⟨_, List.mem_map_of_mem horigin, ?_⟩
  dsimp only
  split <;> exact ⟨rfl, rfl⟩

theorem Sound.processTask (hsound : Sound state) (hstep : state.processTask = some next) :
    Sound next := by
  obtain ⟨task, queue, hqueue, hcalled⟩ := processTask_called hsound hstep
  have huncalled : ∀ origin ∈ state.registry.callbacks, OfJs origin →
      task.value origin.1 = none →
        origin.2.callback ∉ (called state.registry task).map Prod.fst := by
    intro origin horigin hjs hnone hcontext
    obtain ⟨call, hcall, hsame⟩ := List.mem_map.mp hcontext
    obtain ⟨other, hother, hotherJs, hcallback, hvalue⟩ := (mem_called hsound).mp hcall
    rw [hsound.distinct other hother origin horigin hotherJs hjs (hcallback.trans hsame),
      hnone] at hvalue
    cases hvalue
  have horigin : ∀ entry ∈ next.registry.callbacks, OfJs entry →
      ∃ origin ∈ state.registry.callbacks, OfJs origin ∧ entry.1 = origin.1 ∧
        entry.2.callback = origin.2.callback ∧
        entry.2.received = (task.value origin.1).or origin.2.received := by
    intro entry hentry hjs
    rw [hcalled.registry] at hentry
    obtain ⟨origin, hmem, hindex, hcallback, htype, hreceived⟩ := mem_execute hentry
    have horiginJs : OfJs origin := htype.symm.trans hjs
    refine ⟨origin, hmem, horiginJs, hindex, hcallback, hreceived ?_⟩
    rw [show origin.2.type = .napi from horiginJs]
    exact hsound.installed origin hmem horiginJs
  refine ⟨?_, fun context => ?_, ?_, fun context hbeyond => ?_, ?_, ?_, ?_⟩
  · have hpopped : ListenerState.Registry { state.registry with queue } :=
      hsound.registry.congr rfl rfl hsound.registry.idle
    rw [hcalled.registry]
    exact hpopped.execute task
  · rw [hcalled.isSome (live_of_called hsound) context, hsound.live context]
    constructor
    · rintro ⟨origin, hmem, hjs, rfl⟩
      obtain ⟨entry, hentry, hcallback, htype⟩ := @execute_mem _ task queue _ hmem
      refine ⟨entry, ?_, htype.trans hjs, hcallback⟩
      rw [hcalled.registry]
      exact hentry
    · rintro ⟨entry, hentry, hjs, rfl⟩
      obtain ⟨origin, hmem, horiginJs, _, hcallback, _⟩ := horigin entry hentry hjs
      exact ⟨origin, hmem, horiginJs, hcallback.symm⟩
  · intro first hfirst second hsecond hjs hotherJs hsame
    obtain ⟨one, hone, honeJs, honeIndex, honeCallback, _⟩ := horigin first hfirst hjs
    obtain ⟨two, htwo, htwoJs, htwoIndex, htwoCallback, _⟩ := horigin second hsecond hotherJs
    rw [honeIndex, htwoIndex]
    exact hsound.distinct one hone two htwo honeJs htwoJs
      (honeCallback.symm.trans (hsame.trans htwoCallback))
  · rw [hcalled.created] at hbeyond
    obtain ⟨hnone, hpending, hheard⟩ := hsound.created context hbeyond
    have hcontext : context ∉ (called state.registry task).map Prod.fst := by
      intro hcontext
      have hlive := live_of_called hsound context hcontext
      rw [hnone] at hlive
      cases hlive
    rw [hcalled.kept context hcontext, hcalled.heard, hcalled.pending, List.mem_append, not_or]
    exact ⟨hnone, ⟨hpending, hcontext⟩, hheard⟩
  · intro entry hentry hjs
    obtain ⟨origin, hmem, horiginJs, _⟩ := horigin entry hentry hjs
    rw [hcalled.registry]
    exact hsound.installed origin hmem horiginJs
  · intro entry hentry hjs hnone
    obtain ⟨origin, hmem, horiginJs, hindex, hcallback, hreceived⟩ := horigin entry hentry hjs
    rw [hnone] at hreceived
    obtain ⟨hvalue, hbefore⟩ := Option.or_eq_none_iff.mp hreceived.symm
    obtain ⟨hpending, hheard⟩ := hsound.silent origin hmem horiginJs hbefore
    rw [hcallback, hcalled.heard, hcalled.pending, List.mem_append, not_or]
    exact ⟨⟨hpending, huncalled origin hmem horiginJs hvalue⟩, hheard⟩
  · intro entry hentry hjs value hsomeValue
    obtain ⟨origin, hmem, horiginJs, hindex, hcallback, hreceived⟩ := horigin entry hentry hjs
    rw [hsomeValue] at hreceived
    rw [hcallback, hcalled.heard, hcalled.pending, List.mem_append]
    cases hvalue : task.value origin.1 with
    | none =>
        rw [hvalue, Option.none_or] at hreceived
        obtain ⟨hcontext, hlast⟩ :=
          hsound.current origin hmem horiginJs value hreceived.symm
        rw [hcalled.kept _ (huncalled origin hmem horiginJs hvalue)]
        exact ⟨hcontext, hlast.imp_left .inl⟩
    | some enable =>
        rw [hvalue, Option.some_or] at hreceived
        cases hreceived
        have hcall : (origin.2.callback, value) ∈ called state.registry task :=
          (mem_called hsound).mpr ⟨origin, hmem, horiginJs, rfl, hvalue⟩
        exact ⟨hcalled.told _ hcall, .inl (.inr (List.mem_map_of_mem hcall))⟩

/-! The JavaScript thread. -/

theorem jsThreadSafeCall_cases {place : Nat} (hstep : state.jsThreadSafeCall place = some next) :
    ∃ context, state.pending[place]? = some context ∧
      (state.contexts context = none ∧
          next = { state with
            pending := state.pending.eraseIdx place, invalid := state.invalid + 1 } ∨
        ∃ enable, state.contexts context = some enable ∧
          next = { state with
            pending := state.pending.eraseIdx place
            heard := Function.update state.heard context (some enable) }) := by
  rw [jsThreadSafeCall] at hstep
  split at hstep
  · cases hstep
  · next context hplace =>
      refine ⟨context, hplace, ?_⟩
      dsimp only at hstep
      split at hstep
      · next hnone => exact .inl ⟨hnone, (Option.some.inj hstep).symm⟩
      · next enable hsome => exact .inr ⟨enable, hsome, (Option.some.inj hstep).symm⟩

theorem mem_eraseIdx_of_ne {pending : List Nat} {place context other : Nat}
    (hplace : pending[place]? = some context) (hmem : other ∈ pending)
    (hother : other ≠ context) : other ∈ pending.eraseIdx place := by
  obtain ⟨position, hposition⟩ := List.mem_iff_getElem?.mp hmem
  refine List.mem_eraseIdx_iff_getElem?.mpr ⟨position, ?_, hposition⟩
  rintro rfl
  exact hother (Option.some.inj (hposition.symm.trans hplace))

theorem Sound.jsThreadSafeCall (hsound : Sound state) {place : Nat}
    (hstep : state.jsThreadSafeCall place = some next) : Sound next := by
  obtain ⟨context, hplace, hcases⟩ := jsThreadSafeCall_cases hstep
  have hpending : context ∈ state.pending := List.mem_of_getElem? hplace
  rcases hcases with ⟨hnone, rfl⟩ | ⟨enable, hsome, rfl⟩
  · refine ⟨hsound.registry, hsound.live, hsound.distinct, ?_, hsound.installed, ?_, ?_⟩
    · intro other hbeyond
      obtain ⟨hcontext, hold, hheard⟩ := hsound.created other hbeyond
      exact ⟨hcontext, fun hin => hold (List.eraseIdx_subset hin), hheard⟩
    · intro entry hmem hjs hreceived
      obtain ⟨hold, hheard⟩ := hsound.silent entry hmem hjs hreceived
      exact ⟨fun hin => hold (List.eraseIdx_subset hin), hheard⟩
    · intro entry hmem hjs value hreceived
      obtain ⟨hcontext, hlast⟩ := hsound.current entry hmem hjs value hreceived
      refine ⟨hcontext, hlast.imp_left fun hin => mem_eraseIdx_of_ne hplace hin ?_⟩
      rintro rfl
      rw [hnone] at hcontext
      cases hcontext
  · refine ⟨hsound.registry, hsound.live, hsound.distinct, ?_, hsound.installed, ?_, ?_⟩
    · intro other hbeyond
      obtain ⟨hcontext, hold, hheard⟩ := hsound.created other hbeyond
      have hother : other ≠ context := fun hsame => hold (hsame.symm ▸ hpending)
      refine ⟨hcontext, fun hin => hold (List.eraseIdx_subset hin), ?_⟩
      dsimp only
      rw [Function.update_of_ne hother]
      exact hheard
    · intro entry hmem hjs hreceived
      obtain ⟨hold, hheard⟩ := hsound.silent entry hmem hjs hreceived
      have hother : entry.2.callback ≠ context := fun hsame => hold (hsame.symm ▸ hpending)
      refine ⟨fun hin => hold (List.eraseIdx_subset hin), ?_⟩
      dsimp only
      rw [Function.update_of_ne hother]
      exact hheard
    · intro entry hmem hjs value hreceived
      obtain ⟨hcontext, hlast⟩ := hsound.current entry hmem hjs value hreceived
      refine ⟨hcontext, ?_⟩
      dsimp only
      by_cases hsame : entry.2.callback = context
      · rw [hsame, Function.update_self]
        rw [hsame, hsome] at hcontext
        exact .inr hcontext
      · rw [Function.update_of_ne hsame]
        exact hlast.imp_left fun hin => mem_eraseIdx_of_ne hplace hin hsame

theorem Sound.step (hsound : Sound state) (hstep : jsListeners.step state label = some next) :
    Sound next := by
  cases label with
  | registerTraceListener =>
      cases hstep
      exact hsound.jsRegisterTraceListener
  | unregisterTraceListener index =>
      cases hstep
      exact hsound.unregisterTraceListener index
  | meter label =>
      obtain ⟨houtside, hmeter⟩ := Option.ite_none_right_eq_some.mp hstep
      obtain ⟨registry, hregistry, rfl⟩ := Option.map_eq_some_iff.mp hmeter
      exact hsound.meter houtside hregistry
  | processTask => exact hsound.processTask hstep
  | threadSafeCall place => exact hsound.jsThreadSafeCall hstep

theorem sound_of_run {final : JsListeners} {labels : List Label}
    (hrun : jsListeners.run {} labels = some final) : Sound final := by
  refine jsListeners.invariant_of_step (motive := Sound) ?_ ?_ ⟨labels, _, rfl, hrun⟩
  · rintro start rfl
    exact sound_start
  · intro state label next hsound hstep
    exact hsound.step hstep

/-- The contexts that are not deleted are those of the registered callbacks, each at one
index, and a function of JavaScript that has no call left has seen the last value of its
callback. -/
theorem js_listeners_follow_registry (labels : List Label) (final : JsListeners)
    (hrun : jsListeners.run {} labels = some final) :
    (∀ context, (final.contexts context).isSome = true ↔
        ∃ entry ∈ final.registry.callbacks, entry.2.type = .napi ∧
          entry.2.callback = context) ∧
      (∀ first ∈ final.registry.callbacks, ∀ second ∈ final.registry.callbacks,
        first.2.type = .napi → second.2.type = .napi →
          first.2.callback = second.2.callback → first = second) ∧
      ∀ entry ∈ final.registry.callbacks, entry.2.type = .napi →
        entry.2.callback ∉ final.pending →
          final.heard entry.2.callback = entry.2.received := by
  have hsound := sound_of_run hrun
  refine ⟨hsound.live, ?_, ?_⟩
  · intro first hfirst second hsecond hjs hother hsame
    exact List.inj_on_of_nodup_map hsound.registry.distinct hfirst hsecond
      (hsound.distinct first hfirst second hsecond hjs hother hsame)
  · intro entry hmem hjs hidle
    cases hreceived : entry.2.received with
    | none => exact (hsound.silent entry hmem hjs hreceived).2
    | some value =>
        obtain ⟨_, hlast⟩ := hsound.current entry hmem hjs value hreceived
        exact hlast.resolve_left hidle

/-- Two functions register, the first leaves before it is called. -/
def handoverRun : List Label :=
  [.registerTraceListener, .registerTraceListener, .processTask, .processTask,
    .threadSafeCall 0, .unregisterTraceListener 0, .registerTraceListener, .processTask,
    .threadSafeCall 0]

theorem js_listeners_follow_registry_handover :
    ∃ final, jsListeners.run {} handoverRun = some final ∧
      final.registry.callbacks.map Prod.fst = [0, 1] ∧
      ∀ entry ∈ final.registry.callbacks, entry.2.type = .napi →
        entry.2.callback ∉ final.pending →
          final.heard entry.2.callback = entry.2.received :=
  ⟨_, rfl, by decide, (js_listeners_follow_registry handoverRun _ rfl).2.2⟩

/-! Uses of a deleted context. -/

/-- Every call that waits has its context. -/
def PendingLive (state : JsListeners) : Prop :=
  ∀ context ∈ state.pending, (state.contexts context).isSome = true

/-- A callback of JavaScript is unregistered with no call of it waiting. -/
def Allowed (state : JsListeners) : Label → Prop
  | .unregisterTraceListener index =>
      ∀ entry ∈ state.registry.callbacks, OfJs entry → entry.1 = index →
        entry.2.callback ∉ state.pending
  | _ => True

instance : Decidable (Allowed state label) :=
  match label with
  | .registerTraceListener => .isTrue trivial
  | .unregisterTraceListener _ => List.decidableBAll _ _
  | .meter _ => .isTrue trivial
  | .processTask => .isTrue trivial
  | .threadSafeCall _ => .isTrue trivial

theorem pendingLive_step (hsound : Sound state) (hlive : PendingLive state)
    (hstep : jsListeners.step state label = some next) :
    PendingLive next ↔ Allowed state label := by
  cases label with
  | registerTraceListener =>
      cases hstep
      refine iff_of_true ?_ trivial
      rcases jsRegisterTraceListener_cases hsound with heq | ⟨_, _, _, _, _, _, heq⟩
      · rw [heq]
        exact hlive
      · rw [heq]
        intro context hcontext
        dsimp only
        rw [Function.update_apply]
        split
        · rfl
        · exact hlive context hcontext
  | unregisterTraceListener index =>
      cases hstep
      rcases unregisterTraceListener_cases hsound index with ⟨hnone, heq⟩ |
        ⟨gone, hgone, hjs, hindex, heq⟩
      · rw [heq]
        exact iff_of_true hlive fun entry hmem hjs hsame => absurd hsame (hnone entry hmem hjs)
      · rw [heq]
        constructor
        · intro hafter entry hmem _ hsame hpending
          have hentry := List.inj_on_of_nodup_map hsound.registry.distinct hmem hgone
            (hsame.trans hindex.symm)
          have hcontext := hafter entry.2.callback hpending
          dsimp only at hcontext
          rw [hentry, Function.update_self] at hcontext
          cases hcontext
        · intro hidle context hcontext
          have hother : context ≠ gone.2.callback := by
            rintro rfl
            exact hidle gone hgone hjs hindex hcontext
          dsimp only
          rw [Function.update_of_ne hother]
          exact hlive context hcontext
  | meter label =>
      obtain ⟨_, hmeter⟩ := Option.ite_none_right_eq_some.mp hstep
      obtain ⟨registry, _, rfl⟩ := Option.map_eq_some_iff.mp hmeter
      exact iff_of_true hlive trivial
  | processTask =>
      obtain ⟨task, queue, _, hcalled⟩ := processTask_called hsound hstep
      refine iff_of_true ?_ trivial
      intro context hcontext
      rw [hcalled.pending, List.mem_append] at hcontext
      rw [hcalled.isSome (live_of_called hsound) context]
      exact hcontext.elim (hlive context) (live_of_called hsound context)
  | threadSafeCall place =>
      refine iff_of_true ?_ trivial
      obtain ⟨_, _, ⟨_, rfl⟩ | ⟨_, _, rfl⟩⟩ := jsThreadSafeCall_cases hstep
      · exact fun context hcontext => hlive context (List.eraseIdx_subset hcontext)
      · exact fun context hcontext => hlive context (List.eraseIdx_subset hcontext)

/-- Only the calls that wait use a context that is deleted. -/
theorem invalid_step (hsound : Sound state) (hlive : PendingLive state)
    (hstep : jsListeners.step state label = some next) : next.invalid = state.invalid := by
  cases label with
  | registerTraceListener =>
      cases hstep
      rcases jsRegisterTraceListener_cases hsound with heq | ⟨_, _, _, _, _, _, heq⟩
      · rw [heq]
      · rw [heq]
  | unregisterTraceListener index =>
      cases hstep
      rcases unregisterTraceListener_cases hsound index with ⟨_, heq⟩ | ⟨_, _, _, _, heq⟩
      · rw [heq]
      · rw [heq]
  | meter label =>
      obtain ⟨_, hmeter⟩ := Option.ite_none_right_eq_some.mp hstep
      obtain ⟨registry, _, rfl⟩ := Option.map_eq_some_iff.mp hmeter
      rfl
  | processTask =>
      obtain ⟨task, queue, _, hcalled⟩ := processTask_called hsound hstep
      exact hcalled.invalid
  | threadSafeCall place =>
      obtain ⟨context, hplace, ⟨hnone, _⟩ | ⟨_, _, rfl⟩⟩ := jsThreadSafeCall_cases hstep
      · have hsome := hlive context (List.mem_of_getElem? hplace)
        rw [hnone] at hsome
        cases hsome
      · rfl

/-- A call that waits for a deleted context can be taken next. -/
theorem deleted_of_not_pendingLive (hstate : ¬ PendingLive state) :
    ∃ place next, jsListeners.step state (.threadSafeCall place) = some next ∧
      next.invalid = state.invalid + 1 := by
  simp only [PendingLive, not_forall, Option.not_isSome_iff_eq_none] at hstate
  obtain ⟨context, hpending, hnone⟩ := hstate
  obtain ⟨place, hplace⟩ := List.mem_iff_getElem?.mp hpending
  refine ⟨place, { state with
    pending := state.pending.eraseIdx place, invalid := state.invalid + 1 }, ?_, rfl⟩
  show state.jsThreadSafeCall place = _
  simp only [jsThreadSafeCall, hplace, hnone]

theorem pendingLive_along {labels : List Label} {final : JsListeners}
    (hrun : jsListeners.run {} labels = some final) :
    jsListeners.Along (fun _ => PendingLive) {} labels ↔
      jsListeners.Obeys Allowed {} labels := by
  refine @Library.Machine.along_iff_obeys _ _ jsListeners _ (fun _ => Sound) _ _
    sound_start nofun ?_ ?_ _ _ hrun
  · intro _ state label next _ hsound hstep
    exact hsound.step hstep
  · intro _ state label next _ hsound hlive hstep
    exact pendingLive_step hsound hlive hstep

/-- No deleted context is used, nor ever could be, in exactly the runs that unregister a
callback of JavaScript only when no call of it waits. -/
theorem js_listeners_use_deleted (labels : List Label) (final : JsListeners)
    (hrun : jsListeners.run {} labels = some final) :
    (jsListeners.Obeys Allowed {} labels → final.invalid = 0) ∧
      (¬ jsListeners.Obeys Allowed {} labels ↔
        ∃ before after state place next, labels = before ++ after ∧
          jsListeners.run {} before = some state ∧
          jsListeners.step state (.threadSafeCall place) = some next ∧
          next.invalid = state.invalid + 1) := by
  refine ⟨fun hobeys => ?_, ?_⟩
  · refine (jsListeners.invariant_of_obeys
      (motive := fun state => Sound state ∧ PendingLive state ∧ state.invalid = 0)
      ?_ ⟨sound_start, nofun, rfl⟩ hobeys hrun).2.2
    rintro state label next ⟨hsound, hlive, hvalid⟩ hallowed hstep
    exact ⟨hsound.step hstep, (pendingLive_step hsound hlive hstep).mpr hallowed,
      (invalid_step hsound hlive hstep).trans hvalid⟩
  · rw [← pendingLive_along hrun]
    constructor
    · intro hdead
      simp only [Library.Machine.Along, not_forall] at hdead
      obtain ⟨before, after, state, hsplit, hbefore, hstate⟩ := hdead
      obtain ⟨place, next, hstep, hused⟩ := deleted_of_not_pendingLive hstate
      exact ⟨before, after, state, place, next, hsplit, hbefore, hstep, hused⟩
    · rintro ⟨before, after, state, place, next, hsplit, hbefore, hstep, hused⟩ halong
      have hsame := invalid_step (sound_of_run hbefore)
        (halong before after state hsplit hbefore) hstep
      omega

/-- The listener is unregistered while the call of its registration waits. -/
def hastyRun : List Label :=
  [.registerTraceListener, .processTask, .unregisterTraceListener 0, .threadSafeCall 0]

theorem js_listeners_use_deleted_handover :
    (∃ final, jsListeners.run {} handoverRun = some final ∧
      jsListeners.Obeys Allowed {} handoverRun ∧ final.invalid = 0) ∧
    ∃ final, jsListeners.run {} hastyRun = some final ∧ final.invalid = 1 ∧
      ¬ jsListeners.Obeys Allowed {} hastyRun := by
  refine ⟨⟨_, rfl, by decide, (js_listeners_use_deleted handoverRun _ rfl).1 (by decide)⟩,
    _, rfl, rfl, (js_listeners_use_deleted hastyRun _ rfl).2.mpr ?_⟩
  exact ⟨[.registerTraceListener, .processTask, .unregisterTraceListener 0],
    [.threadSafeCall 0], _, 0, _, rfl, rfl, rfl, rfl⟩

end JsListeners

end Hitrace
