import Hitrace.HitraceMeter.TraceListeners
import Mathlib.Logic.Function.Basic

namespace Hitrace

open Library

namespace HitraceMeter

/-! `UpdateSysParamTags` of `hitrace_meter.cpp` on many threads at once, one atomic step
at a time. -/

namespace TagUpdate

/-- Where a thread stands in `UpdateSysParamTags`.  `number` counts the changes that
were reported. -/
inductive Phase
  | idle
  | consumed (number : Nat) (targetTags : UInt64)
  | loaded (number : Nat) (targetTags currentTags : UInt64)
deriving Repr, DecidableEq

def Phase.number : Phase → Option Nat
  | .idle => none
  | .consumed number _ => some number
  | .loaded number _ _ => some number

/-- `changed` says that the last change of the parameter is not reported yet. -/
structure State where
  parameter : UInt64
  tagsProperty : UInt64
  changed : Bool := false
  reported : Nat := 0
  phases : Nat → Phase := fun _ => .idle

inductive Label
  | setParameter (tags : UInt64)
  | cachedParameterGetChanged (thread : Nat)
  | load (thread : Nat)
  | compareExchange (thread : Nat)
deriving Repr, DecidableEq

def targetTags (tags : UInt64) : UInt64 :=
  (tags ||| hitraceTagAlways) &&& hitraceTagValidMask

namespace State

def move (state : State) (thread : Nat) (phase : Phase) : State :=
  { state with phases := Function.update state.phases thread phase }

def act (state : State) : Label → Option State
  | .setParameter tags => some { state with parameter := tags, changed := true }
  | .cachedParameterGetChanged thread =>
      match state.phases thread with
      | .idle =>
          if state.changed then
            some (move { state with changed := false, reported := state.reported + 1 } thread
              (.consumed (state.reported + 1) (targetTags state.parameter)))
          else some state
      | _ => none
  | .load thread =>
      match state.phases thread with
      | .consumed number targetTags =>
          if state.tagsProperty ≠ targetTags then
            some (state.move thread (.loaded number targetTags state.tagsProperty))
          else some (state.move thread .idle)
      | _ => none
  | .compareExchange thread =>
      match state.phases thread with
      | .loaded _ targetTags currentTags =>
          if state.tagsProperty = currentTags then
            some (move { state with tagsProperty := targetTags } thread .idle)
          else some (state.move thread .idle)
      | _ => none

end State

def machine : Machine State Label where
  init := fun state => state.changed = false ∧ state.reported = 0 ∧
    ∀ thread, state.phases thread = .idle
  step := State.act

def lastWritten : List Label → Option UInt64
  | [] => none
  | .setParameter tags :: rest => (lastWritten rest).or (some tags)
  | _ :: rest => lastWritten rest

/-- A thread that holds an older value does not get it into `g_tagsProperty` once the
thread with the last reported value has loaded it. -/
def Allowed (state : State) : Label → Prop
  | .compareExchange thread =>
      ∀ number targetTags, state.phases thread = .loaded number targetTags state.tagsProperty →
        number = state.reported ∨
          ∃ other newest, state.phases other = .consumed state.reported newest
  | _ => True

/-- The value of the last reported change is still to be installed, or it is installed. -/
structure Kept (state : State) (newest : UInt64) : Prop where
  bounded : ∀ thread number, (state.phases thread).number = some number →
    0 < number ∧ number ≤ state.reported
  unique : ∀ thread other, (state.phases thread).number = some state.reported →
    (state.phases other).number = some state.reported → thread = other
  consumed : ∀ thread targetTags,
    state.phases thread = .consumed state.reported targetTags → targetTags = newest
  loaded : ∀ thread targetTags currentTags,
    state.phases thread = .loaded state.reported targetTags currentTags →
      targetTags = newest ∧ currentTags = state.tagsProperty
  installed : (∃ thread, (state.phases thread).number = some state.reported) ∨
    state.reported = 0 ∨ state.tagsProperty = newest
  current : state.changed = false → state.reported = 0 ∨ newest = targetTags state.parameter

variable {state : State} {newest : UInt64}

/-- A thread goes on with its change, or is done with it. -/
theorem Kept.move (hkept : Kept state newest) (thread : Nat) (phase : Phase)
    (tags : UInt64)
    (hnumber : phase.number = none ∨ phase.number = (state.phases thread).number)
    (hconsumed : ∀ targetTags, phase = .consumed state.reported targetTags →
      targetTags = newest)
    (hloaded : ∀ targetTags currentTags,
      phase = .loaded state.reported targetTags currentTags →
        targetTags = newest ∧ currentTags = tags)
    (htags : tags = state.tagsProperty ∨ ∀ other, other ≠ thread →
      ∀ targetTags currentTags,
        state.phases other ≠ .loaded state.reported targetTags currentTags)
    (hinstalled : (∃ other, other ≠ thread ∧
        (state.phases other).number = some state.reported) ∨
      phase.number = some state.reported ∨ state.reported = 0 ∨ tags = newest) :
    Kept (State.move { state with tagsProperty := tags } thread phase) newest := by
  have hself : Function.update state.phases thread phase thread = phase :=
    Function.update_self thread phase state.phases
  have hother : ∀ other, other ≠ thread →
      Function.update state.phases thread phase other = state.phases other :=
    fun other hne => Function.update_of_ne hne phase state.phases
  have hpast : ∀ other number,
      (Function.update state.phases thread phase other).number = some number →
        (state.phases other).number = some number := by
    intro other number hnext
    by_cases hsame : other = thread
    · rw [hsame, hself] at hnext
      rcases hnumber with hnone | heq
      · rw [hnone] at hnext
        cases hnext
      · rw [hsame, ← heq, hnext]
    · rw [hother other hsame] at hnext
      exact hnext
  refine ⟨?_, ?_, ?_, ?_, ?_, hkept.current⟩
  · intro other number hnext
    exact hkept.bounded other number (hpast other number hnext)
  · intro first second hfirst hsecond
    exact hkept.unique first second (hpast first _ hfirst) (hpast second _ hsecond)
  · intro other targetTags hnext
    by_cases hsame : other = thread
    · rw [hsame] at hnext
      exact hconsumed targetTags (hself.symm.trans hnext)
    · exact hkept.consumed other targetTags ((hother other hsame).symm.trans hnext)
  · intro other targetTags currentTags hnext
    by_cases hsame : other = thread
    · rw [hsame] at hnext
      exact hloaded targetTags currentTags (hself.symm.trans hnext)
    · have hold := (hother other hsame).symm.trans hnext
      rcases htags with heq | hnone
      · rw [heq]
        exact hkept.loaded other targetTags currentTags hold
      · exact absurd hold (hnone other hsame targetTags currentTags)
  · rcases hinstalled with ⟨other, hne, hholds⟩ | hholds | hdone
    · exact Or.inl ⟨other, (congrArg Phase.number (hother other hne)).trans hholds⟩
    · exact Or.inl ⟨thread, (congrArg Phase.number hself).trans hholds⟩
    · exact Or.inr hdone

theorem Kept.idle (hkept : Kept state newest) (thread : Nat) (tags : UInt64)
    (htags : tags = state.tagsProperty ∨ ∀ other, other ≠ thread →
      ∀ targetTags currentTags,
        state.phases other ≠ .loaded state.reported targetTags currentTags)
    (hinstalled : (∃ other, other ≠ thread ∧
        (state.phases other).number = some state.reported) ∨
      state.reported = 0 ∨ tags = newest) :
    Kept (State.move { state with tagsProperty := tags } thread .idle) newest := by
  refine hkept.move thread .idle tags (Or.inl rfl) ?_ ?_ htags
    (hinstalled.imp_right Or.inr)
  · intro _ hsame
    cases hsame
  · intro _ _ hsame
    cases hsame

theorem Kept.holder (hkept : Kept state newest) (thread : Nat) :
    (∃ other, other ≠ thread ∧ (state.phases other).number = some state.reported) ∨
      (state.phases thread).number = some state.reported ∨ state.reported = 0 ∨
      state.tagsProperty = newest := by
  rcases hkept.installed with ⟨other, hholds⟩ | hdone
  · by_cases hsame : other = thread
    · rw [hsame] at hholds
      exact Or.inr (Or.inl hholds)
    · exact Or.inl ⟨other, hsame, hholds⟩
  · exact Or.inr (Or.inr hdone)

theorem Kept.getChanged (hkept : Kept state newest) (thread : Nat) :
    Kept (State.move { state with changed := false, reported := state.reported + 1 } thread
      (.consumed (state.reported + 1) (targetTags state.parameter)))
      (targetTags state.parameter) := by
  let phase := Phase.consumed (state.reported + 1) (targetTags state.parameter)
  have hself : Function.update state.phases thread phase thread = phase :=
    Function.update_self thread phase state.phases
  have hother : ∀ other, other ≠ thread →
      Function.update state.phases thread phase other = state.phases other :=
    fun other hne => Function.update_of_ne hne phase state.phases
  have hholder : ∀ other,
      (Function.update state.phases thread phase other).number = some (state.reported + 1) →
        other = thread := by
    intro other hnext
    by_contra hne
    rw [hother other hne] at hnext
    have hbound := (hkept.bounded other _ hnext).2
    omega
  refine ⟨?_, ?_, ?_, ?_, ?_, fun _ => Or.inr rfl⟩
  · intro other number hnext
    by_cases hsame : other = thread
    · have hnumber := (congrArg Phase.number hself).symm.trans (hsame ▸ hnext)
      cases hnumber
      exact ⟨Nat.succ_pos _, Nat.le_refl _⟩
    · have hbound := hkept.bounded other number
        ((congrArg Phase.number (hother other hsame)).symm.trans hnext)
      exact ⟨hbound.1, Nat.le_succ_of_le hbound.2⟩
  · intro first second hfirst hsecond
    rw [hholder first hfirst, hholder second hsecond]
  · intro other tags hnext
    have hsame := hholder other (congrArg Phase.number hnext)
    rw [hsame] at hnext
    have hequal : phase = .consumed (state.reported + 1) tags := hself.symm.trans hnext
    exact (Phase.consumed.inj hequal).2.symm
  · intro other tags currentTags hnext
    have hsame := hholder other (congrArg Phase.number hnext)
    rw [hsame] at hnext
    have hequal : phase = .loaded (state.reported + 1) tags currentTags :=
      hself.symm.trans hnext
    exact Phase.noConfusion hequal
  · exact Or.inl ⟨thread, congrArg Phase.number hself⟩

theorem Kept.load (hkept : Kept state newest) {thread number : Nat} {tags : UInt64}
    (hphase : state.phases thread = .consumed number tags) :
    Kept (state.move thread (.loaded number tags state.tagsProperty)) newest ∧
      (state.tagsProperty = tags → Kept (state.move thread .idle) newest) := by
  have hholder := hkept.holder thread
  rw [hphase, Phase.number, Option.some_inj] at hholder
  have htarget : number = state.reported → tags = newest := by
    intro hsame
    exact hkept.consumed thread tags (hsame ▸ hphase)
  constructor
  · refine hkept.move thread _ state.tagsProperty (Or.inr ?_) ?_ ?_ (Or.inl rfl) ?_
    · rw [hphase]
      rfl
    · intro _ hsame
      cases hsame
    · intro _ _ hsame
      cases hsame
      exact ⟨htarget rfl, rfl⟩
    · rw [Phase.number, Option.some_inj]
      exact hholder
  · intro hequal
    apply hkept.idle thread state.tagsProperty (Or.inl rfl)
    rcases hholder with hother | hlast | hdone
    · exact Or.inl hother
    · exact Or.inr (Or.inr (hequal.trans (htarget hlast)))
    · exact Or.inr hdone

/-- A `compare_exchange` that fails drops an older value. -/
theorem Kept.failed (hkept : Kept state newest) {thread number : Nat}
    {tags currentTags : UInt64} (hphase : state.phases thread = .loaded number tags currentTags)
    (hfailed : state.tagsProperty ≠ currentTags) : Kept (state.move thread .idle) newest := by
  have hholder := hkept.holder thread
  rw [hphase, Phase.number, Option.some_inj] at hholder
  apply hkept.idle thread state.tagsProperty (Or.inl rfl)
  rcases hholder with hother | hlast | hdone
  · exact Or.inl hother
  · rw [hlast] at hphase
    exact absurd (hkept.loaded thread tags currentTags hphase).2.symm hfailed
  · exact Or.inr hdone

theorem Kept.exchanged (hkept : Kept state newest) {thread number : Nat} {tags : UInt64}
    (hphase : state.phases thread = .loaded number tags state.tagsProperty)
    (hallowed : number = state.reported ∨
      ∃ other newest, state.phases other = .consumed state.reported newest) :
    Kept (State.move { state with tagsProperty := tags } thread .idle) newest := by
  rcases hallowed with hlast | ⟨other, target, hother⟩
  · rw [hlast] at hphase
    refine hkept.idle thread tags (Or.inr ?_)
      (Or.inr (Or.inr (hkept.loaded thread tags _ hphase).1))
    intro other hne targetTags currentTags hloaded
    exact hne (hkept.unique other thread (congrArg Phase.number hloaded)
      (congrArg Phase.number hphase))
  · have hne : other ≠ thread := by
      intro hsame
      rw [hsame, hphase] at hother
      cases hother
    refine hkept.idle thread tags (Or.inr ?_)
      (Or.inl ⟨other, hne, congrArg Phase.number hother⟩)
    intro third _ targetTags currentTags hloaded
    have hsame := hkept.unique third other (congrArg Phase.number hloaded)
      (congrArg Phase.number hother)
    rw [hsame, hother] at hloaded
    cases hloaded

theorem kept_step (hkept : Kept state newest) {label : Label} {next : State}
    (hallowed : Allowed state label) (hstep : state.act label = some next) :
    ∃ newest, Kept next newest := by
  cases label with
  | setParameter tags =>
      cases hstep
      refine ⟨newest, hkept.bounded, hkept.unique, hkept.consumed, hkept.loaded,
        hkept.installed, ?_⟩
      intro hchanged
      cases hchanged
  | cachedParameterGetChanged thread =>
      rw [State.act] at hstep
      split at hstep
      · split at hstep
        · cases hstep
          exact ⟨_, hkept.getChanged thread⟩
        · cases hstep
          exact ⟨newest, hkept⟩
      · cases hstep
  | load thread =>
      rw [State.act] at hstep
      split at hstep
      · next number tags hphase =>
          split at hstep
          · cases hstep
            exact ⟨newest, (hkept.load hphase).1⟩
          · next hequal =>
              cases hstep
              exact ⟨newest, (hkept.load hphase).2 (not_not.mp hequal)⟩
      · cases hstep
  | compareExchange thread =>
      rw [State.act] at hstep
      split at hstep
      · next number tags currentTags hphase =>
          split at hstep
          · next hequal =>
              cases hstep
              rw [← hequal] at hphase
              exact ⟨newest, hkept.exchanged hphase (hallowed number tags hphase)⟩
          · next hfailed =>
              cases hstep
              exact ⟨newest, hkept.failed hphase hfailed⟩
      · cases hstep

theorem kept_start {start : State} (hstart : machine.init start) :
    Kept start start.tagsProperty where
  bounded := by
    intro thread number hnumber
    rw [hstart.2.2 thread] at hnumber
    cases hnumber
  unique := by
    intro thread other hthread
    rw [hstart.2.2 thread] at hthread
    cases hthread
  consumed := by
    intro thread tags hphase
    rw [hstart.2.2 thread] at hphase
    cases hphase
  loaded := by
    intro thread tags currentTags hphase
    rw [hstart.2.2 thread] at hphase
    cases hphase
  installed := Or.inr (Or.inr rfl)
  current := fun _ => Or.inl hstart.2.1

theorem kept_of_run {start final : State} {labels : List Label}
    (hstart : machine.init start) (hobeys : machine.Obeys Allowed start labels)
    (hrun : machine.run start labels = some final) : ∃ newest, Kept final newest := by
  refine machine.invariant_of_obeys (motive := fun state => ∃ newest, Kept state newest)
    ?_ ⟨_, kept_start hstart⟩ hobeys hrun
  rintro state label next ⟨newest, hkept⟩ hallowed hstep
  exact kept_step hkept hallowed hstep

/-! The parameter holds the last value written, and a value that is written gets
reported. -/

theorem lastWritten_concat (labels : List Label) (label : Label) :
    lastWritten (labels ++ [label]) = (lastWritten [label]).or (lastWritten labels) := by
  induction labels with
  | nil => rw [List.nil_append, lastWritten.eq_1, Option.or_none]
  | cons first rest ih =>
      cases first with
      | setParameter tags =>
          rw [List.cons_append, lastWritten, lastWritten, ih, Option.or_assoc]
      | _ => exact ih

/-- The last value written is in the parameter, and it is reported or will be. -/
def Written (state : State) (last : Option UInt64) : Prop :=
  ∀ tags, last = some tags →
    state.parameter = tags ∧ (state.changed = true ∨ 0 < state.reported)

theorem written_step {last : Option UInt64} (hwritten : Written state last) {label : Label}
    {next : State} (hstep : state.act label = some next) :
    Written next ((lastWritten [label]).or last) := by
  cases label with
  | setParameter tags =>
      cases hstep
      intro _ hlast
      cases hlast
      exact ⟨rfl, Or.inl rfl⟩
  | cachedParameterGetChanged thread =>
      rw [State.act] at hstep
      split at hstep
      · split at hstep
        · cases hstep
          intro tags hlast
          exact ⟨(hwritten tags hlast).1, Or.inr (Nat.succ_pos _)⟩
        · cases hstep
          exact hwritten
      · cases hstep
  | load thread =>
      rw [State.act] at hstep
      split at hstep
      · split at hstep <;> cases hstep <;> exact hwritten
      · cases hstep
  | compareExchange thread =>
      rw [State.act] at hstep
      split at hstep
      · split at hstep <;> cases hstep <;> exact hwritten
      · cases hstep

theorem written_of_run {start final : State} {labels : List Label}
    (hrun : machine.run start labels = some final) : Written final (lastWritten labels) := by
  refine machine.run_induction
    (motive := fun labels state => Written state (lastWritten labels)) ?_ ?_ hrun
  · intro tags hlast
    cases hlast
  · intro labels state label next _ hwritten hstep
    rw [lastWritten_concat]
    exact written_step hwritten hstep

end TagUpdate

end HitraceMeter

open HitraceMeter TagUpdate in
/-- In a run in which no older value gets past the thread that has loaded the tags for
the last reported one, the last value written is installed at the end. -/
theorem tag_update_kept (start final : State) (labels : List Label) (last : UInt64)
    (hstart : machine.init start) (hobeys : machine.Obeys Allowed start labels)
    (hrun : machine.run start labels = some final)
    (hlast : lastWritten labels = some last) (hreported : final.changed = false)
    (hreturned : ∀ thread, final.phases thread = .idle) :
    final.tagsProperty = (last ||| hitraceTagAlways) &&& hitraceTagValidMask := by
  obtain ⟨newest, hkept⟩ := kept_of_run hstart hobeys hrun
  obtain ⟨hparameter, hseen⟩ := written_of_run hrun last hlast
  have hsome : 0 < final.reported := by
    rcases hseen with hchanged | hsome
    · rw [hreported] at hchanged
      cases hchanged
    · exact hsome
  have hinstalled : final.tagsProperty = newest := by
    rcases hkept.installed with ⟨thread, hholds⟩ | hnone | hinstalled
    · rw [hreturned thread] at hholds
      cases hholds
    · omega
    · exact hinstalled
  have hnewest : newest = targetTags final.parameter :=
    (hkept.current hreported).resolve_left (by omega)
  rw [hinstalled, hnewest, hparameter]
  rfl

namespace HitraceMeter.TagUpdate

def sampleStart : State where
  parameter := 0
  tagsProperty := 1

/-- Three changes.  Two threads hold an older value when the third thread reads the last
one: one gets its value in before the third thread loads, the other one fails. -/
def threeUpdates : List Label :=
  [.setParameter 6, .cachedParameterGetChanged 0, .load 0, .setParameter 8,
    .cachedParameterGetChanged 1, .load 1, .setParameter 10, .cachedParameterGetChanged 2,
    .compareExchange 0, .compareExchange 1, .load 2, .compareExchange 2]

/-- Two changes, whose values two threads hold at the same time. -/
def twoUpdates : List Label :=
  [.setParameter 6, .cachedParameterGetChanged 0, .setParameter 8,
    .cachedParameterGetChanged 1, .load 0, .load 1, .compareExchange 0,
    .compareExchange 1]

end HitraceMeter.TagUpdate

open HitraceMeter TagUpdate in
theorem tag_update_kept_three_threads :
    ∃ final, machine.run sampleStart threeUpdates = some final ∧
      final.tagsProperty = (10 ||| hitraceTagAlways) &&& hitraceTagValidMask := by
  have hobeys : machine.Obeys Allowed sampleStart threeUpdates := by
    refine ⟨trivial, trivial, trivial, trivial, trivial, trivial, trivial, trivial,
      ?_, ?_, trivial, ?_, trivial⟩
    · -- thread 2 has read the last value and has not loaded the tags
      intro _ _ _
      exact Or.inr ⟨2, _, rfl⟩
    · intro number tags hphase
      exact absurd (Phase.loaded.inj hphase).2.2 (by decide)
    · intro number tags hphase
      exact Or.inl (Phase.loaded.inj hphase).1.symm
  refine ⟨_, rfl, tag_update_kept sampleStart _ threeUpdates 10 ⟨rfl, rfl, fun _ => rfl⟩
    hobeys rfl rfl rfl ?_⟩
  intro thread
  match thread with
  | 0 => rfl
  | 1 => rfl
  | 2 => rfl
  | _ + 3 => rfl

open HitraceMeter TagUpdate in
/-- The second `compare_exchange` fails and drops the newer value. -/
theorem newer_value_dropped :
    ∃ final, machine.init sampleStart ∧ machine.run sampleStart twoUpdates = some final ∧
      lastWritten twoUpdates = some 8 ∧ final.changed = false ∧
      (∀ thread, final.phases thread = .idle) ∧
      final.tagsProperty ≠ (8 ||| hitraceTagAlways) &&& hitraceTagValidMask := by
  refine ⟨_, ⟨rfl, rfl, fun _ => rfl⟩, rfl, rfl, rfl, ?_, by decide⟩
  intro thread
  match thread with
  | 0 => rfl
  | 1 => rfl
  | _ + 2 => rfl

end Hitrace
