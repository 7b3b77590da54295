import Hitrace.Library.Transition

namespace Hitrace

/-! The atomic word `state_` of `trace_dump_state.cpp`. -/

inductive DumpState
  | idle
  | running
  | interrupt
  | stopping
  deriving DecidableEq, Repr

namespace TraceDumpState

def compareExchange (expected desired state : DumpState) : Bool × DumpState :=
  if state = expected then (true, desired) else (false, state)

def startLoopDump (state : DumpState) : Bool × DumpState :=
  compareExchange .idle .running state

def isLoopDumpRunning (state : DumpState) : Bool :=
  state = .running ∨ state = .interrupt

def interruptCache (state : DumpState) : Bool × DumpState :=
  compareExchange .running .interrupt state

def continueCache (state : DumpState) : Bool × DumpState :=
  compareExchange .interrupt .running state

inductive EndLoopDump
  | entered
  | loaded (before : DumpState)
  | waiting
  | returned
  deriving DecidableEq, Repr

def EndLoopDump.load (state : DumpState) : EndLoopDump :=
  if state = .idle then .returned else .loaded state

/-- The wait ends once the word is idle or the five seconds have passed. -/
def EndLoopDump.wait (timeout : Bool) (state : DumpState) : EndLoopDump :=
  if state = .idle ∨ timeout then .returned else .waiting

inductive EndLoopDumpSelf
  | entered
  | loaded (before : DumpState)
  | returned
  deriving DecidableEq, Repr

theorem startLoopDump_iff (state : DumpState) :
    (startLoopDump state).1 = true ↔ state = .idle := by
  cases state <;> decide

/-! One `EndLoopDump` racing with one `EndLoopDumpSelf`. -/

structure StopRace where
  state : DumpState
  stopper : EndLoopDump
  loop : EndLoopDumpSelf
  deriving DecidableEq, Repr

inductive StopRace.Label
  | endLoopDumpLoad
  | endLoopDumpStore
  | endLoopDumpWait (timeout : Bool)
  | endLoopDumpSelfLoad
  | endLoopDumpSelfStore
  deriving DecidableEq, Repr

def StopRace.step (race : StopRace) : Label → Option StopRace
  | .endLoopDumpLoad =>
      match race.stopper with
      | .entered => some { race with stopper := .load race.state }
      | _ => none
  | .endLoopDumpStore =>
      match race.stopper with
      | .loaded _ => some { race with state := .stopping, stopper := .waiting }
      | _ => none
  | .endLoopDumpWait timeout =>
      match race.stopper with
      | .waiting => some { race with stopper := .wait timeout race.state }
      | _ => none
  | .endLoopDumpSelfLoad =>
      match race.loop with
      | .entered => some { race with loop := .loaded race.state }
      | _ => none
  | .endLoopDumpSelfStore =>
      match race.loop with
      | .loaded _ => some { race with state := .idle, loop := .returned }
      | _ => none

def stopRace : Library.Machine StopRace StopRace.Label where
  init race :=
    (race.state = .running ∨ race.state = .interrupt) ∧
      race.stopper = .entered ∧ race.loop = .entered
  step := StopRace.step

/-- The loop thread does not store IDLE between the load of `state_` and the
store of STOPPING in `EndLoopDump`. -/
def SelfEndOutsideWindow (race : StopRace) : StopRace.Label → Prop
  | .endLoopDumpSelfStore => ∀ before, race.stopper ≠ .loaded before
  | _ => True

def StopRace.Tracked (race : StopRace) : Prop :=
  match race.stopper with
  | .entered => race.state = .idle ↔ race.loop = .returned
  | .loaded _ => race.loop ≠ .returned
  | .waiting => race.state = .idle ↔ race.loop = .returned
  | .returned => race.loop = .returned → race.state = .idle

/-- The states of runs in which IDLE was stored inside the window. -/
def StopRace.Overwritten (race : StopRace) : Prop :=
  race.loop = .returned ∧
    match race.stopper with
    | .entered => False
    | .loaded _ => True
    | .waiting => race.state = .stopping
    | .returned => race.state = .stopping

theorem StopRace.tracked_step {race next : StopRace} {label : Label}
    (htracked : race.Tracked) (hallowed : SelfEndOutsideWindow race label)
    (hstep : race.step label = some next) : next.Tracked := by
  obtain ⟨state, stopper, loop⟩ := race
  cases label with
  | endLoopDumpLoad =>
      cases stopper <;> simp only [step, reduceCtorEq] at hstep
      cases hstep
      by_cases hidle : state = .idle <;>
        simp_all [Tracked, EndLoopDump.load]
  | endLoopDumpStore =>
      cases stopper <;> simp only [step, reduceCtorEq] at hstep
      cases hstep
      simpa [Tracked] using htracked
  | endLoopDumpWait timeout =>
      cases stopper <;> simp only [step, reduceCtorEq] at hstep
      cases hstep
      by_cases hend : state = .idle ∨ timeout <;>
        simp_all [Tracked, EndLoopDump.wait]
  | endLoopDumpSelfLoad =>
      cases loop <;> simp only [step, reduceCtorEq] at hstep
      cases hstep
      cases stopper <;> simp_all [Tracked]
  | endLoopDumpSelfStore =>
      cases loop <;> simp only [step, reduceCtorEq] at hstep
      cases hstep
      cases stopper <;> simp_all [Tracked, SelfEndOutsideWindow]

theorem StopRace.overwritten_enter {race next : StopRace} {label : Label}
    (hwindow : ¬ SelfEndOutsideWindow race label)
    (hstep : race.step label = some next) : next.Overwritten := by
  obtain ⟨state, stopper, loop⟩ := race
  cases label <;> simp only [SelfEndOutsideWindow, not_true_eq_false] at hwindow
  cases loop <;> simp only [step, reduceCtorEq] at hstep
  cases hstep
  cases stopper <;> simp_all [Overwritten]

theorem StopRace.overwritten_step {race next : StopRace} {label : Label}
    (hover : race.Overwritten) (hstep : race.step label = some next) :
    next.Overwritten := by
  obtain ⟨state, stopper, loop⟩ := race
  obtain ⟨hloop, hstate⟩ := hover
  cases hloop
  cases label <;> cases stopper <;>
    simp only [step, reduceCtorEq] at hstep hstate <;> cases hstep
  · exact ⟨rfl, rfl⟩
  · subst hstate
    refine ⟨rfl, ?_⟩
    rename_i timeout
    cases timeout <;> rfl

theorem stopRace_overwritten_of_not_obeys {start final : StopRace}
    {labels : List StopRace.Label}
    (hrun : stopRace.run start labels = some final)
    (hnot : ¬ stopRace.Obeys SelfEndOutsideWindow start labels) :
    final.Overwritten := by
  refine stopRace.run_induction
    (motive := fun labels state =>
      ¬ stopRace.Obeys SelfEndOutsideWindow start labels → state.Overwritten)
    (fun hnil => absurd trivial hnil) ?_ hrun hnot
  intro labels race label next hprefix ih hstep hnot
  by_cases hobeys : stopRace.Obeys SelfEndOutsideWindow start labels
  · refine StopRace.overwritten_enter (fun hallowed => hnot ?_) hstep
    exact (stopRace.obeys_concat label hprefix).mpr ⟨hobeys, hallowed⟩
  · exact StopRace.overwritten_step (ih hobeys) hstep

/-- Once both threads have returned, the word is idle, and the next
`StartLoopDump` succeeds, exactly in the interleavings that keep the store of
IDLE out of the window. -/
theorem stop_converges_iff {start final : StopRace}
    {labels : List StopRace.Label} (hinit : stopRace.init start)
    (hrun : stopRace.run start labels = some final)
    (hstopper : final.stopper = .returned) (hloop : final.loop = .returned) :
    (final.state = .idle ∧ (startLoopDump final.state).1 = true) ↔
      stopRace.Obeys SelfEndOutsideWindow start labels := by
  rw [startLoopDump_iff, and_self]
  constructor
  · intro hidle
    by_contra hnot
    have hover := stopRace_overwritten_of_not_obeys hrun hnot
    simp [StopRace.Overwritten, hstopper, hidle] at hover
  · intro hobeys
    have hstart : start.Tracked := by
      obtain ⟨hstate, hentered, hself⟩ := hinit
      rcases hstate with hstate | hstate <;>
        simp [StopRace.Tracked, hstate, hentered, hself]
    have htracked := stopRace.invariant_of_obeys
      (motive := StopRace.Tracked)
      (fun _ _ _ => StopRace.tracked_step) hstart hobeys hrun
    simp only [StopRace.Tracked, hstopper] at htracked
    exact htracked hloop

theorem stop_converges_iff_wait :
    ∃ start final labels,
      stopRace.init start ∧ stopRace.run start labels = some final ∧
        final.stopper = .returned ∧ final.loop = .returned ∧
        final.state = .idle ∧ (startLoopDump final.state).1 = true := by
  have hrun : stopRace.run ⟨.running, .entered, .entered⟩
      [.endLoopDumpLoad, .endLoopDumpStore, .endLoopDumpSelfLoad, .endLoopDumpSelfStore,
        .endLoopDumpWait false] = some ⟨.idle, .returned, .returned⟩ := rfl
  refine ⟨_, _, _, ⟨.inl rfl, rfl, rfl⟩, hrun, rfl, rfl,
    (stop_converges_iff ⟨.inl rfl, rfl, rfl⟩ hrun rfl rfl).mpr ?_⟩
  exact ⟨trivial, trivial, trivial, nofun, trivial, trivial⟩

/-- IDLE stored inside the window is overwritten, and no thread is left to
store it again. -/
theorem stop_race_ends_stopping :
    ¬ ∀ (start final : StopRace) (labels : List StopRace.Label),
      stopRace.init start → stopRace.run start labels = some final →
      final.stopper = .returned → final.loop = .returned →
      final.state = .idle ∧ (startLoopDump final.state).1 = true := by
  intro hclaim
  have hidle := hclaim ⟨.running, .entered, .entered⟩
    ⟨.stopping, .returned, .returned⟩
    [.endLoopDumpLoad, .endLoopDumpSelfLoad, .endLoopDumpSelfStore,
      .endLoopDumpStore, .endLoopDumpWait true]
    ⟨.inl rfl, rfl, rfl⟩ rfl rfl rfl
  exact absurd hidle.1 (by decide)

end TraceDumpState

end Hitrace
