import Hitrace.TracedumpExecutor.DumpStrategy

namespace Hitrace

/-! `ITraceDumpStrategy::Execute`, the loop around the core of a strategy, which puts a
new file in the place of one that has been removed. -/

def maxNewTraceFileLimit : Nat := 5

/-- The file a factory has open.  `generation` counts the files `UpdateTraceFile` has
put in the place of the first. -/
structure TraceSource where
  traceFilePath : List Char
  generation : Nat := 0
deriving Repr, DecidableEq

/-- What one call of `IsGenerateNewFile` meets: the result of `access`, the name it makes
up, and whether that file can be opened. -/
structure FileTest where
  found : Bool
  newFileName : List Char := []
  opens : Bool := true
deriving Repr, DecidableEq

/-- What one turn meets: the core with the `ret` it leaves, and the tests on its failure
and behind the turn. -/
structure StrategyRound where
  core : Bool
  ret : TraceDumpRet := {}
  onFailure : FileTest
  atEnd : FileTest
deriving Repr, DecidableEq

inductive FileEvent
  | wrote (source : TraceSource)
  | switched (source : TraceSource)
deriving Repr, DecidableEq

structure StrategyState where
  source : TraceSource
  newFileCount : Nat := 1
  ret : TraceDumpRet := {}
deriving Repr, DecidableEq

def needCheckFileExist : TraceDumpType → Bool
  | .traceRecording => true
  | .traceCache => true
  | _ => false

def TraceSource.updateTraceFile (test : FileTest) (source : TraceSource) :
    TraceSource × List FileEvent :=
  if test.opens then
    let next := ⟨test.newFileName, source.generation + 1⟩
    (next, [.switched next])
  else (source, [])

/-- A file that cannot be opened is counted as well. -/
def isGenerateNewFile (test : FileTest) (state : StrategyState) :
    Bool × StrategyState × List FileEvent :=
  if test.found then (false, state, [])
  else if state.newFileCount > maxNewTraceFileLimit then (false, state, [])
  else
    let (source, events) := state.source.updateTraceFile test
    (true, { state with newFileCount := state.newFileCount + 1, source }, events)

section Strategy

variable (traceType : TraceDumpType)

def handleCoreFailure (test : FileTest) (state : StrategyState) :
    Bool × StrategyState × List FileEvent :=
  if needCheckFileExist traceType then isGenerateNewFile test state
  else (false, state, [])

def shouldContinueWithNewFile (test : FileTest) (state : StrategyState) :
    Bool × StrategyState × List FileEvent :=
  if needCheckFileExist traceType then isGenerateNewFile test state
  else (false, state, [])

/-- The contents are made of the file the factory has open, so they are written to it
whatever becomes of the core. -/
def processTraceDumpIteration (round : StrategyRound) (state : StrategyState) :
    Bool × StrategyState × List FileEvent :=
  let state := { state with ret := round.ret }
  if round.core then (true, state, [.wrote state.source])
  else
    let (again, next, events) := handleCoreFailure traceType round.onFailure state
    (again, next, .wrote state.source :: events)

/-- One turn with the test of the loop. -/
def executeTurn (round : StrategyRound) (state : StrategyState) :
    Bool × StrategyState × List FileEvent :=
  match processTraceDumpIteration traceType round state with
  | (false, next, events) => (false, next, events)
  | (true, next, events) =>
      let (again, next, others) := shouldContinueWithNewFile traceType round.atEnd next
      (again, next, events ++ others)

def executeLoop (rounds : Nat → StrategyRound) : Nat → Nat → StrategyState →
    Option (StrategyState × List FileEvent)
  | 0, _, _ => none
  | turns + 1, index, state =>
      match executeTurn traceType (rounds index) state with
      | (false, next, events) => some (next, events)
      | (true, next, events) =>
          (executeLoop rounds turns (index + 1) next).map fun (final, others) =>
            (final, events ++ others)

/-- `Execute` with room for so many turns: the state it leaves and what happened to the
files. -/
def execute (rounds : Nat → StrategyRound) (turns : Nat) (source : TraceSource) :
    Option (StrategyState × List FileEvent) :=
  executeLoop traceType rounds turns 0 { source }

end Strategy

/-! What is asked of a run. -/

def FileEvent.isSwitch : FileEvent → Bool
  | .wrote _ => false
  | .switched _ => true

def FileEvent.written? : FileEvent → Option TraceSource
  | .wrote source => some source
  | .switched _ => none

/-- Every new file is written by a later turn. -/
def SwitchesWritten : List FileEvent → Prop
  | [] => True
  | .wrote _ :: rest => SwitchesWritten rest
  | .switched source :: rest => .wrote source ∈ rest ∧ SwitchesWritten rest

def lastWritten (events : List FileEvent) : Option TraceSource :=
  (events.filterMap FileEvent.written?).getLast?

/-! Which turns a run comes to, by what the tests find. -/

namespace StrategyRound

/-- How many tests a turn makes when it is not the last one. -/
def tests (round : StrategyRound) : Nat :=
  if round.core then 1 else 2

/-- All tests of the turn find the file gone. -/
def Continues (round : StrategyRound) : Prop :=
  (round.core = false → round.onFailure.found = false) ∧ round.atEnd.found = false

/-- A turn that fails, with `made` tests in front of it, puts a new file in the place of
one that is gone, and the test behind the turn does not find the new one gone without
being able to open another. -/
def Replaces (made : Nat) (round : StrategyRound) : Prop :=
  round.core = false ∧ round.onFailure.found = false ∧ made < maxNewTraceFileLimit ∧
    round.onFailure.opens = true ∧
    ¬ (round.atEnd.found = false ∧ made + 1 < maxNewTraceFileLimit ∧
      round.atEnd.opens = false)

end StrategyRound

theorem lastWritten_append {events others : List FileEvent} {source : TraceSource}
    (hothers : lastWritten others = some source) :
    lastWritten (events ++ others) = some source := by
  rw [lastWritten, List.filterMap_append, List.getLast?_append]
  rw [lastWritten] at hothers
  rw [hothers]
  rfl

section Rounds

variable (rounds : Nat → StrategyRound)

def testsBefore : Nat → Nat
  | 0 => 0
  | index + 1 => testsBefore index + (rounds index).tests

def Reached (index : Nat) : Prop :=
  testsBefore rounds index ≤ maxNewTraceFileLimit ∧
    ∀ earlier < index, (rounds earlier).Continues

variable {rounds}

theorem testsBefore_mono {index later : Nat} (hle : index ≤ later) :
    testsBefore rounds index ≤ testsBefore rounds later := by
  induction hle with
  | refl => exact Nat.le_refl _
  | step _ ih => exact Nat.le_add_right_of_le ih

theorem Reached.succ {index : Nat} (hreached : Reached rounds index)
    (hcontinues : (rounds index).Continues)
    (hmade : testsBefore rounds (index + 1) ≤ maxNewTraceFileLimit) :
    Reached rounds (index + 1) := by
  refine ⟨hmade, ?_⟩
  intro earlier hearlier
  rcases Nat.lt_succ_iff_lt_or_eq.mp hearlier with hlt | rfl
  · exact hreached.2 earlier hlt
  · exact hcontinues

end Rounds

/-! What one test and one turn can do. -/

/-- The factory has gone over to a new file, or has kept its own. -/
structure Updated (opens : Bool) (source next : TraceSource) (events : List FileEvent) :
    Prop where
  opened : opens = true →
    next.generation = source.generation + 1 ∧ events = [.switched next]
  kept : opens = false → next = source ∧ events = []

theorem updateTraceFile_updated (test : FileTest) (source : TraceSource) :
    Updated test.opens source (source.updateTraceFile test).1
      (source.updateTraceFile test).2 := by
  rw [TraceSource.updateTraceFile]
  constructor
  · intro hopens
    rw [if_pos hopens]
    exact ⟨rfl, rfl⟩
  · intro hopens
    rw [hopens]
    exact ⟨rfl, rfl⟩

theorem Updated.switches_le {opens : Bool} {source next : TraceSource}
    {events : List FileEvent} (hupdated : Updated opens source next events) :
    (events.filter FileEvent.isSwitch).length ≤ 1 := by
  cases opens with
  | false =>
      rw [(hupdated.kept rfl).2]
      exact Nat.zero_le 1
  | true =>
      rw [(hupdated.opened rfl).2]
      exact Nat.le_refl 1

/-- The new file of a turn is written next, or there is none. -/
structure PlainTurn (source : TraceSource) (again : Bool) (next : TraceSource)
    (events : List FileEvent) : Prop where
  cases : (next = source ∧ events = [.wrote source]) ∨
    (again = true ∧ next.generation = source.generation + 1 ∧
      events = [.wrote source, .switched next])

theorem Updated.plainTurn {opens : Bool} {source next : TraceSource}
    {events : List FileEvent} (hupdated : Updated opens source next events) :
    PlainTurn source true next (.wrote source :: events) := by
  cases opens with
  | false =>
      obtain ⟨hsource, rfl⟩ := hupdated.kept rfl
      exact ⟨Or.inl ⟨hsource, rfl⟩⟩
  | true =>
      obtain ⟨hgeneration, rfl⟩ := hupdated.opened rfl
      exact ⟨Or.inr ⟨rfl, hgeneration, rfl⟩⟩

theorem isGenerateNewFile_cases (test : FileTest) (state : StrategyState) :
    (isGenerateNewFile test state = (false, state, []) ∧
        ¬ (test.found = false ∧ state.newFileCount ≤ maxNewTraceFileLimit)) ∨
      ∃ next events, isGenerateNewFile test state = (true, next, events) ∧
        test.found = false ∧ state.newFileCount ≤ maxNewTraceFileLimit ∧
        next.newFileCount = state.newFileCount + 1 ∧
        Updated test.opens state.source next.source events := by
  rw [isGenerateNewFile]
  split
  · next hfound => exact Or.inl ⟨rfl, by simp [hfound]⟩
  · next hfound =>
      split
      · next hcount => exact Or.inl ⟨rfl, fun h => absurd h.2 (Nat.not_le_of_lt hcount)⟩
      · next hcount =>
          exact Or.inr ⟨_, _, rfl, by simpa using hfound, Nat.le_of_not_lt hcount, rfl,
            updateTraceFile_updated test state.source⟩

/-- The new file of the failure is the last one, or another takes its place. -/
structure ReplacingTurn (source : TraceSource) (again : Bool) (next : TraceSource)
    (events : List FileEvent) : Prop where
  cases : (again = false ∧ events = [.wrote source, .switched next]) ∨
    ∃ file, file.generation < next.generation ∧
      events = [.wrote source, .switched file, .switched next]
  generation : source.generation < next.generation

/-- What a turn does, with `made` tests in front of it. -/
structure TurnSpec (made : Nat) (round : StrategyRound) (source : TraceSource)
    (again : Bool) (next : StrategyState) (events : List FileEvent) : Prop where
  again_iff : again = true ↔
    round.Continues ∧ made + round.tests ≤ maxNewTraceFileLimit
  count : again = true → next.newFileCount = made + round.tests + 1
  limit : made ≤ maxNewTraceFileLimit → next.newFileCount ≤ maxNewTraceFileLimit + 1
  switches : made + (events.filter FileEvent.isSwitch).length < next.newFileCount
  plain : ¬ round.Replaces made → PlainTurn source again next.source events
  replacing : round.Replaces made → ReplacingTurn source again next.source events

theorem TurnSpec.sources {made : Nat} {round : StrategyRound} {source : TraceSource}
    {again : Bool} {next : StrategyState} {events : List FileEvent}
    (hspec : TurnSpec made round source again next events) :
    source.generation ≤ next.source.generation ∧
      ∃ switches, events = .wrote source :: switches ∧
        ∀ other, FileEvent.wrote other ∉ switches := by
  by_cases hreplaces : round.Replaces made
  · have hturn := hspec.replacing hreplaces
    refine ⟨Nat.le_of_lt hturn.generation, ?_⟩
    rcases hturn.cases with ⟨_, hevents⟩ | ⟨file, _, hevents⟩
    · exact ⟨_, hevents, by simp⟩
    · exact ⟨_, hevents, by simp⟩
  · rcases (hspec.plain hreplaces).cases with ⟨hsource, hevents⟩ | ⟨_, hgeneration, hevents⟩
    · exact ⟨by rw [hsource], _, hevents, by simp⟩
    · exact ⟨by omega, _, hevents, by simp⟩

theorem tests_failed {round : StrategyRound} (hcore : round.core = false) :
    round.tests = 2 := by
  rw [StrategyRound.tests, hcore]
  rfl

theorem continues_failed {round : StrategyRound} (hcore : round.core = false) :
    round.Continues ↔ round.onFailure.found = false ∧ round.atEnd.found = false := by
  simp [StrategyRound.Continues, hcore]

section Turns

variable {traceType : TraceDumpType} (htype : needCheckFileExist traceType = true)
include htype

theorem executeTurn_core {round : StrategyRound} (hcore : round.core = true)
    (state : StrategyState) :
    executeTurn traceType round state =
      ((isGenerateNewFile round.atEnd { state with ret := round.ret }).1,
        (isGenerateNewFile round.atEnd { state with ret := round.ret }).2.1,
        .wrote state.source ::
          (isGenerateNewFile round.atEnd { state with ret := round.ret }).2.2) := by
  rw [executeTurn, processTraceDumpIteration, hcore]
  simp only [if_true, shouldContinueWithNewFile, htype]
  rfl

theorem executeTurn_failed {round : StrategyRound} (hcore : round.core = false)
    {state next : StrategyState} {again : Bool} {events : List FileEvent}
    (htest : isGenerateNewFile round.onFailure { state with ret := round.ret } =
      (again, next, events)) :
    executeTurn traceType round state =
      if again then
        ((isGenerateNewFile round.atEnd next).1, (isGenerateNewFile round.atEnd next).2.1,
          .wrote state.source :: (events ++ (isGenerateNewFile round.atEnd next).2.2))
      else (false, next, .wrote state.source :: events) := by
  rw [executeTurn, processTraceDumpIteration, hcore]
  simp only [Bool.false_eq_true, if_false, handleCoreFailure, htype, if_true, htest]
  cases again with
  | false => rfl
  | true => simp only [shouldContinueWithNewFile, htype, if_true, List.cons_append]

theorem executeTurn_spec_core {made : Nat} {round : StrategyRound}
    (hcore : round.core = true) {state : StrategyState}
    (hcount : state.newFileCount = made + 1) :
    TurnSpec made round state.source (executeTurn traceType round state).1
      (executeTurn traceType round state).2.1 (executeTurn traceType round state).2.2 := by
  have hnot : ¬ round.Replaces made := fun hreplaces => by
    rw [hreplaces.1] at hcore
    cases hcore
  have htests : round.tests = 1 := if_pos hcore
  have hcontinues : round.Continues ↔ round.atEnd.found = false := by
    simp [StrategyRound.Continues, hcore]
  rw [executeTurn_core htype hcore]
  rcases isGenerateNewFile_cases round.atEnd { state with ret := round.ret } with
    ⟨htest, hkept⟩ | ⟨next, events, htest, hgone, hroom, hnext, hupdated⟩
  · rw [htest]
    refine ⟨?_, nofun, ?_, ?_, fun _ => ⟨Or.inl ⟨rfl, rfl⟩⟩, fun h => absurd h hnot⟩
    · rw [hcontinues, htests, ← hcount]
      exact iff_of_false Bool.false_ne_true hkept
    · exact fun hmade => hcount ▸ Nat.succ_le_succ hmade
    · exact hcount ▸ Nat.lt_succ_self made
  · rw [htest]
    have hswitches := hupdated.switches_le
    dsimp only at hroom hnext hupdated ⊢
    refine ⟨?_, fun _ => by omega, fun _ => by omega, ?_, fun _ => hupdated.plainTurn,
      fun h => absurd h hnot⟩
    · rw [hcontinues, htests]
      exact iff_of_true rfl ⟨hgone, by omega⟩
    · rw [List.filter_cons_of_neg Bool.false_ne_true]
      omega

/-- The file is still there, or there is no room for another. -/
theorem executeTurn_spec_kept {made : Nat} {round : StrategyRound}
    (hcore : round.core = false) {state : StrategyState}
    (hcount : state.newFileCount = made + 1)
    (htest : isGenerateNewFile round.onFailure { state with ret := round.ret } =
      (false, { state with ret := round.ret }, []))
    (hkept : ¬ (round.onFailure.found = false ∧ made + 1 ≤ maxNewTraceFileLimit)) :
    TurnSpec made round state.source (executeTurn traceType round state).1
      (executeTurn traceType round state).2.1 (executeTurn traceType round state).2.2 := by
  have hnot : ¬ round.Replaces made := fun hreplaces =>
    hkept ⟨hreplaces.2.1, hreplaces.2.2.1⟩
  rw [executeTurn_failed htype hcore htest]
  refine ⟨?_, nofun, ?_, ?_, fun _ => ⟨Or.inl ⟨rfl, rfl⟩⟩, fun h => absurd h hnot⟩
  · rw [continues_failed hcore, tests_failed hcore]
    refine iff_of_false Bool.false_ne_true ?_
    rintro ⟨⟨hfound, _⟩, hmade⟩
    exact hkept ⟨hfound, Nat.le_of_succ_le hmade⟩
  · exact fun hmade => hcount ▸ Nat.succ_le_succ hmade
  · exact hcount ▸ Nat.lt_succ_self made

section Replaced

variable {made : Nat} {round : StrategyRound} (hcore : round.core = false)
  {state middle : StrategyState} {events : List FileEvent}
  (htest : isGenerateNewFile round.onFailure { state with ret := round.ret } =
    (true, middle, events))
  (hgone : round.onFailure.found = false) (hroom : made + 1 ≤ maxNewTraceFileLimit)
  (hmiddle : middle.newFileCount = made + 2)
  (hupdated : Updated round.onFailure.opens state.source middle.source events)
include hcore htest hgone hroom hmiddle hupdated

/-- The new file is there, so the loop is left. -/
theorem executeTurn_spec_left (hend : isGenerateNewFile round.atEnd middle =
      (false, middle, []))
    (hkept : ¬ (round.atEnd.found = false ∧ middle.newFileCount ≤ maxNewTraceFileLimit)) :
    TurnSpec made round state.source (executeTurn traceType round state).1
      (executeTurn traceType round state).2.1 (executeTurn traceType round state).2.2 := by
  have hswitches := hupdated.switches_le
  rw [executeTurn_failed htype hcore htest, if_pos rfl, hend]
  dsimp only
  refine ⟨?_, nofun, fun _ => by omega, ?_, fun hnot => ⟨Or.inl ?_⟩, fun hreplaces => ?_⟩
  · rw [continues_failed hcore, tests_failed hcore]
    refine iff_of_false Bool.false_ne_true ?_
    rintro ⟨⟨_, hfound⟩, hmade⟩
    exact hkept ⟨hfound, by omega⟩
  · rw [List.append_nil, List.filter_cons_of_neg Bool.false_ne_true]
    omega
  · cases hopens : round.onFailure.opens with
    | false =>
        obtain ⟨hsource, rfl⟩ := hupdated.kept hopens
        exact ⟨hsource, rfl⟩
    | true =>
        refine absurd ⟨hcore, hgone, hroom, hopens, ?_⟩ hnot
        rintro ⟨hfound, hmade, _⟩
        exact hkept ⟨hfound, by omega⟩
  · obtain ⟨hgeneration, rfl⟩ := hupdated.opened hreplaces.2.2.2.1
    exact ⟨Or.inl ⟨rfl, rfl⟩, by omega⟩

/-- The new file is gone as well. -/
theorem executeTurn_spec_again {next : StrategyState} {others : List FileEvent}
    (hend : isGenerateNewFile round.atEnd middle = (true, next, others))
    (hendGone : round.atEnd.found = false)
    (hendRoom : middle.newFileCount ≤ maxNewTraceFileLimit)
    (hnext : next.newFileCount = middle.newFileCount + 1)
    (hendUpdated : Updated round.atEnd.opens middle.source next.source others) :
    TurnSpec made round state.source (executeTurn traceType round state).1
      (executeTurn traceType round state).2.1 (executeTurn traceType round state).2.2 := by
  have hswitches := hupdated.switches_le
  have hendSwitches := hendUpdated.switches_le
  rw [executeTurn_failed htype hcore htest, if_pos rfl, hend]
  dsimp only
  refine ⟨?_, ?_, fun _ => by omega, ?_, fun hnot => ?_, fun hreplaces => ?_⟩
  · rw [continues_failed hcore, tests_failed hcore]
    exact iff_of_true rfl ⟨⟨hgone, hendGone⟩, by omega⟩
  · rw [tests_failed hcore]
    omega
  · rw [List.filter_cons_of_neg Bool.false_ne_true, List.filter_append, List.length_append]
    omega
  · cases hopens : round.onFailure.opens with
    | false =>
        obtain ⟨hsource, rfl⟩ := hupdated.kept hopens
        rw [hsource] at hendUpdated
        exact hendUpdated.plainTurn
    | true =>
        obtain ⟨hgeneration, rfl⟩ := hupdated.opened hopens
        cases hendOpens : round.atEnd.opens with
        | false =>
            obtain ⟨hnextSource, rfl⟩ := hendUpdated.kept hendOpens
            rw [← hnextSource] at hgeneration ⊢
            exact ⟨Or.inr ⟨rfl, hgeneration, rfl⟩⟩
        | true =>
            refine absurd ⟨hcore, hgone, hroom, hopens, ?_⟩ hnot
            rintro ⟨_, _, hclosed⟩
            rw [hendOpens] at hclosed
            cases hclosed
  · obtain ⟨hgeneration, rfl⟩ := hupdated.opened hreplaces.2.2.2.1
    cases hendOpens : round.atEnd.opens with
    | false => exact absurd ⟨hendGone, by omega, hendOpens⟩ hreplaces.2.2.2.2
    | true =>
        obtain ⟨hendGeneration, rfl⟩ := hendUpdated.opened hendOpens
        exact ⟨Or.inr ⟨middle.source, by omega, rfl⟩, by omega⟩

end Replaced

theorem executeTurn_spec {made : Nat} (round : StrategyRound) {state : StrategyState}
    (hcount : state.newFileCount = made + 1) :
    TurnSpec made round state.source (executeTurn traceType round state).1
      (executeTurn traceType round state).2.1 (executeTurn traceType round state).2.2 := by
  cases hcore : round.core with
  | true => exact executeTurn_spec_core htype hcore hcount
  | false =>
      rcases isGenerateNewFile_cases round.onFailure { state with ret := round.ret } with
        ⟨htest, hkept⟩ | ⟨middle, events, htest, hgone, hroom, hmiddle, hupdated⟩
      · dsimp only at hkept
        rw [hcount] at hkept
        exact executeTurn_spec_kept htype hcore hcount htest hkept
      · dsimp only at hroom hmiddle hupdated
        rw [hcount] at hroom hmiddle
        rcases isGenerateNewFile_cases round.atEnd middle with
          ⟨hend, hkept⟩ | ⟨next, others, hend, hendGone, hendRoom, hnext, hendUpdated⟩
        · exact executeTurn_spec_left htype hcore htest hgone hroom hmiddle hupdated hend
            hkept
        · exact executeTurn_spec_again htype hcore htest hgone hroom hmiddle hupdated hend
            hendGone hendRoom hnext hendUpdated

/-! Runs. -/

variable {rounds : Nat → StrategyRound}

theorem executeLoop_succ {turns index : Nat} {state final : StrategyState}
    {log : List FileEvent}
    (hloop : executeLoop traceType rounds (turns + 1) index state = some (final, log))
    (hcount : state.newFileCount = testsBefore rounds index + 1) :
    ∃ again next events,
      TurnSpec (testsBefore rounds index) (rounds index) state.source again next events ∧
      ((again = false ∧ final = next ∧ log = events) ∨
        again = true ∧ next.newFileCount = testsBefore rounds (index + 1) + 1 ∧
          ∃ others, executeLoop traceType rounds turns (index + 1) next =
            some (final, others) ∧ log = events ++ others) := by
  have hspec := executeTurn_spec htype (rounds index) hcount
  rw [executeLoop] at hloop
  cases hturn : executeTurn traceType (rounds index) state with
  | mk again result =>
      obtain ⟨next, events⟩ := result
      rw [hturn] at hloop hspec
      refine ⟨again, next, events, hspec, ?_⟩
      cases again with
      | false =>
          cases hloop
          exact Or.inl ⟨rfl, rfl, rfl⟩
      | true =>
          obtain ⟨⟨_, others⟩, hothers, heq⟩ := Option.map_eq_some_iff.mp hloop
          cases heq
          exact Or.inr ⟨rfl, hspec.count rfl, others, hothers, rfl⟩

theorem executeLoop_ends {turns index : Nat} {state : StrategyState}
    (hcount : state.newFileCount = testsBefore rounds index + 1)
    (hmade : testsBefore rounds index ≤ maxNewTraceFileLimit)
    (hturns : maxNewTraceFileLimit < testsBefore rounds index + turns) :
    ∃ final log, executeLoop traceType rounds turns index state = some (final, log) := by
  induction turns generalizing index state with
  | zero => omega
  | succ turns ih =>
      have hspec := executeTurn_spec htype (rounds index) hcount
      rw [executeLoop]
      cases hturn : executeTurn traceType (rounds index) state with
      | mk again result =>
          obtain ⟨next, events⟩ := result
          rw [hturn] at hspec
          cases again with
          | false => exact ⟨next, events, rfl⟩
          | true =>
              have hagain : testsBefore rounds (index + 1) ≤ maxNewTraceFileLimit :=
                (hspec.again_iff.mp rfl).2
              have hnext : next.newFileCount = testsBefore rounds (index + 1) + 1 :=
                hspec.count rfl
              have hmore : 1 ≤ (rounds index).tests := by
                rw [StrategyRound.tests]
                split <;> omega
              have hleft : maxNewTraceFileLimit <
                  testsBefore rounds (index + 1) + turns := by
                rw [testsBefore]
                omega
              obtain ⟨final, others, hothers⟩ := ih hnext hagain hleft
              exact ⟨final, events ++ others,
                Option.map_eq_some_iff.mpr ⟨(final, others), hothers, rfl⟩⟩

omit htype in
theorem executeLoop_mono {turns more index : Nat} {state : StrategyState}
    {result : StrategyState × List FileEvent}
    (hloop : executeLoop traceType rounds turns index state = some result)
    (hmore : turns ≤ more) :
    executeLoop traceType rounds more index state = some result := by
  induction turns generalizing more index state result with
  | zero => cases hloop
  | succ turns ih =>
      obtain ⟨more, rfl⟩ := Nat.exists_eq_add_of_le' hmore
      rw [executeLoop] at hloop
      rw [← Nat.add_assoc, executeLoop]
      cases hturn : executeTurn traceType (rounds index) state with
      | mk again next =>
          obtain ⟨next, events⟩ := next
          rw [hturn] at hloop
          cases again with
          | false => exact hloop
          | true =>
              obtain ⟨rest, hrest, heq⟩ := Option.map_eq_some_iff.mp hloop
              exact Option.map_eq_some_iff.mpr
                ⟨rest, ih hrest (Nat.le_add_left turns more), heq⟩

theorem executeLoop_switches {turns index : Nat} {state final : StrategyState}
    {log : List FileEvent}
    (hloop : executeLoop traceType rounds turns index state = some (final, log))
    (hcount : state.newFileCount = testsBefore rounds index + 1)
    (hmade : testsBefore rounds index ≤ maxNewTraceFileLimit) :
    testsBefore rounds index + (log.filter FileEvent.isSwitch).length ≤
      maxNewTraceFileLimit := by
  induction turns generalizing index state log with
  | zero => cases hloop
  | succ turns ih =>
      obtain ⟨again, next, events, hspec, ⟨_, rfl, rfl⟩ |
        ⟨hagain, hnext, others, hothers, rfl⟩⟩ := executeLoop_succ htype hloop hcount
      · have hswitches := hspec.switches
        have hlimit := hspec.limit hmade
        omega
      · have hswitches := hspec.switches
        have hrest := ih hothers hnext (hspec.again_iff.mp hagain).2
        rw [List.filter_append, List.length_append]
        omega

theorem executeLoop_generation {turns index : Nat} {state final : StrategyState}
    {log : List FileEvent}
    (hloop : executeLoop traceType rounds turns index state = some (final, log))
    (hcount : state.newFileCount = testsBefore rounds index + 1) {source : TraceSource}
    (hmem : .wrote source ∈ log) : state.source.generation ≤ source.generation := by
  induction turns generalizing index state log with
  | zero => cases hloop
  | succ turns ih =>
      obtain ⟨again, next, events, hspec, hcases⟩ := executeLoop_succ htype hloop hcount
      obtain ⟨hgeneration, switches, hevents, hnone⟩ := hspec.sources
      have hturn : .wrote source ∈ events → state.source.generation ≤ source.generation := by
        intro hwrote
        rw [hevents, List.mem_cons] at hwrote
        rcases hwrote with hsame | hother
        · cases hsame
          exact Nat.le_refl _
        · exact absurd hother (hnone source)
      rcases hcases with ⟨_, _, rfl⟩ | ⟨_, hnext, others, hothers, rfl⟩
      · exact hturn hmem
      · rcases List.mem_append.mp hmem with hfirst | hrest
        · exact hturn hfirst
        · exact hgeneration.trans (ih hothers hnext hrest)

theorem executeLoop_head {turns index : Nat} {state final : StrategyState}
    {log : List FileEvent}
    (hloop : executeLoop traceType rounds turns index state = some (final, log))
    (hcount : state.newFileCount = testsBefore rounds index + 1) :
    .wrote state.source ∈ log := by
  cases turns with
  | zero => cases hloop
  | succ turns =>
      obtain ⟨again, next, events, hspec, hcases⟩ := executeLoop_succ htype hloop hcount
      obtain ⟨_, switches, hevents, _⟩ := hspec.sources
      have hturn : .wrote state.source ∈ events := by
        rw [hevents]
        exact List.mem_cons_self
      rcases hcases with ⟨_, _, rfl⟩ | ⟨_, _, others, _, rfl⟩
      · exact hturn
      · exact List.mem_append_left _ hturn

/-- While no failure replaces the file, every new file is the one the next turn writes. -/
theorem executeLoop_written {turns index : Nat} {state final : StrategyState}
    {log : List FileEvent}
    (hloop : executeLoop traceType rounds turns index state = some (final, log))
    (hcount : state.newFileCount = testsBefore rounds index + 1)
    (hreached : Reached rounds index)
    (hplain : ∀ later, Reached rounds later →
      ¬ (rounds later).Replaces (testsBefore rounds later)) :
    SwitchesWritten log ∧ lastWritten log = some final.source := by
  induction turns generalizing index state log with
  | zero => cases hloop
  | succ turns ih =>
      obtain ⟨again, next, events, hspec, hcases⟩ := executeLoop_succ htype hloop hcount
      have hturn := (hspec.plain (hplain index hreached)).cases
      rcases hcases with ⟨hstop, rfl, rfl⟩ | ⟨hagain, hnext, others, hothers, rfl⟩
      · rcases hturn with ⟨hsource, rfl⟩ | ⟨hagain, _⟩
        · rw [hsource]
          exact ⟨trivial, rfl⟩
        · rw [hstop] at hagain
          cases hagain
      · have hmore := hspec.again_iff.mp hagain
        have hlater := hreached.succ hmore.1 hmore.2
        obtain ⟨hwritten, hlast⟩ := ih hothers hnext hlater
        refine ⟨?_, lastWritten_append hlast⟩
        rcases hturn with ⟨_, rfl⟩ | ⟨_, _, rfl⟩
        · exact hwritten
        · exact ⟨executeLoop_head htype hothers hnext, hwritten⟩

/-- The file of a replacing failure is written by no turn. -/
theorem executeLoop_unwritten {turns index later : Nat} {state final : StrategyState}
    {log : List FileEvent}
    (hloop : executeLoop traceType rounds turns index state = some (final, log))
    (hcount : state.newFileCount = testsBefore rounds index + 1) (hle : index ≤ later)
    (hreached : Reached rounds later)
    (hreplaces : (rounds later).Replaces (testsBefore rounds later)) :
    ¬ SwitchesWritten log := by
  induction turns generalizing index state log with
  | zero => cases hloop
  | succ turns ih =>
      obtain ⟨again, next, events, hspec, hcases⟩ := executeLoop_succ htype hloop hcount
      by_cases hhere : (rounds index).Replaces (testsBefore rounds index)
      · rcases (hspec.replacing hhere).cases with ⟨hstop, rfl⟩ | ⟨file, hlt, rfl⟩
        · rcases hcases with ⟨_, rfl, rfl⟩ | ⟨hagain, _⟩
          · exact fun hwritten => absurd hwritten.1 List.not_mem_nil
          · rw [hstop] at hagain
            cases hagain
        · rcases hcases with ⟨_, rfl, rfl⟩ | ⟨_, hnext, others, hothers, rfl⟩
          · exact fun hwritten => absurd hwritten.1 (by simp)
          · intro hwritten
            have hfile : .wrote file ∈ others := by simpa using hwritten.1
            have hgeneration := executeLoop_generation htype hothers hnext hfile
            omega
      · have hlt : index < later := by
          refine Nat.lt_of_le_of_ne hle ?_
          rintro rfl
          exact hhere hreplaces
        have hmore : again = true :=
          hspec.again_iff.mpr ⟨hreached.2 index hlt,
            (testsBefore_mono (Nat.succ_le_of_lt hlt)).trans hreached.1⟩
        rcases hcases with ⟨hstop, _⟩ | ⟨_, hnext, others, hothers, rfl⟩
        · rw [hmore] at hstop
          cases hstop
        · have hothersUnwritten := ih hothers hnext (Nat.succ_le_of_lt hlt)
          rcases (hspec.plain hhere).cases with ⟨_, rfl⟩ | ⟨_, _, rfl⟩
          · exact hothersUnwritten
          · exact fun hwritten => hothersUnwritten hwritten.2

/-- A new file that is put in place after a failure is taken for the old one by the test
behind the turn: the loop is left before anything is written to it. -/
theorem replaced_file_is_written_iff (rounds : Nat → StrategyRound)
    (source : TraceSource) :
    (∃ final log,
      (∀ turns, maxNewTraceFileLimit < turns →
        execute traceType rounds turns source = some (final, log)) ∧
      (log.filter FileEvent.isSwitch).length ≤ maxNewTraceFileLimit ∧
      SwitchesWritten log ∧ lastWritten log = some final.source) ↔
      ¬ ∃ index, Reached rounds index ∧
        (rounds index).Replaces (testsBefore rounds index) := by
  have hstart : Reached rounds 0 := ⟨Nat.zero_le _, fun _ hlt => absurd hlt (Nat.not_lt_zero _)⟩
  have hcount : ({ source } : StrategyState).newFileCount = testsBefore rounds 0 + 1 := rfl
  constructor
  · rintro ⟨final, log, hrun, _, hwritten, _⟩ ⟨index, hreached, hreplaces⟩
    exact executeLoop_unwritten htype (hrun _ (Nat.lt_succ_self _)) hcount
      (Nat.zero_le index) hreached hreplaces hwritten
  · intro hplain
    obtain ⟨final, log, hlog⟩ := @executeLoop_ends _ htype rounds
      (maxNewTraceFileLimit + 1) 0 { source } hcount (Nat.zero_le _)
      (by rw [testsBefore]; omega)
    obtain ⟨hwritten, hlast⟩ := executeLoop_written htype hlog hcount hstart
      fun later hreached hreplaces => hplain ⟨later, hreached, hreplaces⟩
    have hswitches := executeLoop_switches htype hlog hcount (Nat.zero_le _)
    rw [testsBefore, Nat.zero_add] at hswitches
    exact ⟨final, log, fun turns hturns => executeLoop_mono hlog hturns, hswitches,
      hwritten, hlast⟩

end Turns

def firstRecordFile : TraceSource where
  traceFilePath := "/data/log/hitrace/record_trace_20250101120000@100-5.sys".toList

def replacementName : List Char :=
  "/data/log/hitrace/record_trace_20250101120001@101-7.sys".toList

/-- The file is gone behind the first turn, and the new one stays. -/
def removedBehindTurn : Nat → StrategyRound
  | 0 => { core := true, onFailure := ⟨true, [], true⟩, atEnd := ⟨false, replacementName, true⟩ }
  | _ => { core := true, onFailure := ⟨true, [], true⟩, atEnd := ⟨true, [], true⟩ }

theorem replaced_file_is_written_iff_record :
    ∃ final log,
      (∀ turns, maxNewTraceFileLimit < turns →
        execute .traceRecording removedBehindTurn turns firstRecordFile = some (final, log)) ∧
      (log.filter FileEvent.isSwitch).length ≤ maxNewTraceFileLimit ∧
      SwitchesWritten log ∧ lastWritten log = some final.source := by
  refine (replaced_file_is_written_iff rfl removedBehindTurn firstRecordFile).mpr ?_
  rintro ⟨index, _, hcore, _⟩
  cases index with
  | zero => cases hcore
  | succ index => cases hcore

/-- The file is removed while the core writes, which fails for that; the new file is
there for the test behind the turn. -/
def removedInTurn : Nat → StrategyRound := fun _ =>
  { core := false
    ret := { code := .fileError }
    onFailure := ⟨false, replacementName, true⟩
    atEnd := ⟨true, [], true⟩ }

theorem replacement_is_left_empty :
    ∃ final log,
      (∀ turns, maxNewTraceFileLimit < turns →
        execute .traceRecording removedInTurn turns firstRecordFile = some (final, log)) ∧
      final.source = ⟨replacementName, 1⟩ ∧
      log = [.wrote firstRecordFile, .switched ⟨replacementName, 1⟩] ∧
      ¬ SwitchesWritten log ∧ lastWritten log ≠ some final.source := by
  refine ⟨⟨⟨replacementName, 1⟩, 2, { code := .fileError }⟩,
    [.wrote firstRecordFile, .switched ⟨replacementName, 1⟩], ?_, rfl, rfl, ?_, ?_⟩
  · intro turns hturns
    cases turns with
    | zero => exact absurd hturns (Nat.not_lt_zero _)
    | succ turns => rfl
  · exact fun hwritten => absurd hwritten.1 List.not_mem_nil
  · decide

end Hitrace
