import Hitrace.HitraceDump.OpenTrace
import Hitrace.Library.Transition
import Mathlib.Algebra.Ring.Int.Defs
import Mathlib.Logic.Function.Basic

namespace Hitrace

open Library

/-! `RunBootTraceControl` of `hitrace_cmd.cpp` in many processes at once, one operation on
the parameter or the config file at a time. -/

namespace BootTrace

def bootTraceConfigDir : List Char := "/data/local/tmp/".toList

def bootTraceDefaultPrefix : List Char := "boot_trace".toList

inductive ExitCode
  | ok
  | duplicate
  | configError
deriving Repr, DecidableEq

def ExitCode.value : ExitCode → Int
  | .ok => 0
  | .duplicate => 1
  | .configError => 2

def buildBootTraceOutputPathForPrefix (filePrefix : List Char) (incrementIndex : Int32) :
    List Char :=
  let stem := bootTraceConfigDir ++ filePrefix
  if 0 ≤ incrementIndex then
    stem ++ "_".toList ++ intToString incrementIndex.toInt ++ ".sys".toList
  else stem ++ ".sys".toList

/-- The `newIdx` of `ApplyBootTraceIncrementBump`, if there is one. -/
def nextIndex (valueint : Int32) : Option Int32 :=
  if valueint < 0 then none else some (valueint + 1)

/-- The fields of the config that are read or written here; a field that is missing or
has another type is absent. -/
structure BootTraceConfig where
  durationSec : Option Int
  tags : List (List Char)
  incrementIndex : Option Int32
  filePrefix : Option (List Char) := none
  output : Option (List Char) := none
  result : Option Int := none
deriving Repr, DecidableEq

inductive ConfigFile
  | missing
  | empty
  | broken
  | object (config : BootTraceConfig)
deriving Repr, DecidableEq

namespace BootTraceConfig

variable (config : BootTraceConfig)

def valueint : Option Int :=
  config.incrementIndex.map Int32.toInt

/-- `ApplyBootTraceIncrementBump` on these fields. -/
def incrementBump : BootTraceConfig :=
  match config.incrementIndex.bind nextIndex with
  | none => config
  | some newIdx =>
      let named :=
        match config.filePrefix with
        | none | some [] => bootTraceDefaultPrefix
        | some named => named
      { config with
        incrementIndex := some newIdx
        output := some (buildBootTraceOutputPathForPrefix named newIdx) }

/-- The JSON object that `SaveBootTraceResultToConfig` writes back. -/
def record (code : ExitCode) : BootTraceConfig :=
  let config := { config with result := some code.value }
  if code = .ok then config.incrementBump else config

end BootTraceConfig

namespace ConfigFile

def loadForUpdate (opened : Bool) : ConfigFile → Option BootTraceConfig
  | .object config => if opened then some config else none
  | _ => none

/-- `LoadBootTraceCaptureConfig`; `supported` says whether all tags are known. -/
def loads (supported : Bool) : ConfigFile → Bool
  | .object config =>
      config.durationSec.any (0 < ·) && !config.tags.isEmpty && supported
  | _ => false

def incrementIndex : ConfigFile → Option Int
  | .object config => config.valueint
  | _ => none

end ConfigFile

/-- A call of `SaveBootTraceResultToConfig`.  Only the process that has set the flag
reports a success. -/
structure Save where
  owner : Bool
  code : ExitCode
  owned : code = .ok → owner = true
deriving DecidableEq

/-- Where a process stands in `RunBootTraceControl`. -/
inductive Phase
  | launched
  | unset
  | owner
  | capturing
  | saving (save : Save)
  | updating (save : Save) (config : BootTraceConfig)
  | writing (save : Save) (config : BootTraceConfig)
  | clearing (code : ExitCode)
  | exited (code : ExitCode)
deriving DecidableEq

/-- `holder` is the process that set the flag last, `captured` the number of successful
captures. -/
structure State where
  file : ConfigFile
  active : Bool := false
  phases : Nat → Phase := fun _ => .launched
  holder : Option Nat := none
  captured : Nat := 0

/-- An operation with what the system answers. -/
inductive Action
  | testFlag
  | setFlag (succeeded : Bool)
  | loadConfig (supported : Bool)
  | executeCapture (succeeded : Bool)
  | readConfig (opened : Bool)
  | truncateConfig (opened : Bool)
  | writeConfig (written : Bool) (torn : ConfigFile)
  | clearFlag (succeeded : Bool)
deriving DecidableEq

structure Label where
  process : Nat
  action : Action
deriving DecidableEq

def duplicateSave : Save := ⟨false, .duplicate, fun hok => by cases hok⟩

def refusedSave : Save := ⟨false, .configError, fun hok => by cases hok⟩

def ownerSave (code : ExitCode) : Save := ⟨true, code, fun _ => rfl⟩

/-- The guard of the owner clears the flag behind the save. -/
def Save.after (save : Save) : Phase :=
  if save.owner then .clearing save.code else .exited save.code

namespace State

def move (state : State) (process : Nat) (phase : Phase) : State :=
  { state with phases := Function.update state.phases process phase }

/-- A write that fails, or that meets the bytes of another one, leaves `torn` behind. -/
def act (state : State) (process : Nat) : Action → Phase → Option State
  | .testFlag, .launched =>
      if state.active then some (state.move process (.saving duplicateSave))
      else some (state.move process .unset)
  | .setFlag succeeded, .unset =>
      if succeeded then
        some (move { state with active := true, holder := some process } process .owner)
      else some (state.move process (.saving refusedSave))
  | .loadConfig supported, .owner =>
      if state.file.loads supported then some (state.move process .capturing)
      else some (state.move process (.saving (ownerSave .configError)))
  | .executeCapture succeeded, .capturing =>
      if succeeded then
        some (move { state with captured := state.captured + 1 } process
          (.saving (ownerSave .ok)))
      else some (state.move process (.saving (ownerSave .configError)))
  | .readConfig opened, .saving save =>
      match state.file.loadForUpdate opened with
      | none => some (state.move process save.after)
      | some config => some (state.move process (.updating save (config.record save.code)))
  | .truncateConfig opened, .updating save config =>
      if opened then
        some (move { state with file := .empty } process (.writing save config))
      else some (state.move process save.after)
  | .writeConfig written torn, .writing save config =>
      let file := if written ∧ state.file = .empty then .object config else torn
      some (move { state with file } process save.after)
  | .clearFlag succeeded, .clearing code =>
      some (move { state with active := state.active && !succeeded } process (.exited code))
  | _, _ => none

end State

def machine : Machine State Label where
  init := fun state => state.active = false ∧ state.captured = 0 ∧
    ∀ process, state.phases process = .launched
  step := fun state label => state.act label.process label.action (state.phases label.process)

@[simp] theorem move_phases_self (state : State) (process : Nat) (phase : Phase) :
    (state.move process phase).phases process = phase := by
  simp [State.move]

theorem move_phases_of_ne (state : State) {process other : Nat} (phase : Phase)
    (hne : other ≠ process) :
    (state.move process phase).phases other = state.phases other := by
  simp [State.move, hne]

inductive Transition (state : State) (process : Nat) : Action → State → Prop
  | duplicate (hphase : state.phases process = .launched) (hactive : state.active = true) :
      Transition state process .testFlag (state.move process (.saving duplicateSave))
  | tested (hphase : state.phases process = .launched) (hactive : state.active = false) :
      Transition state process .testFlag (state.move process .unset)
  | set (hphase : state.phases process = .unset) :
      Transition state process (.setFlag true)
        (State.move { state with active := true, holder := some process } process .owner)
  | refused (hphase : state.phases process = .unset) :
      Transition state process (.setFlag false) (state.move process (.saving refusedSave))
  | loaded (supported : Bool) (hphase : state.phases process = .owner) :
      Transition state process (.loadConfig supported) (state.move process .capturing)
  | notLoaded (supported : Bool) (hphase : state.phases process = .owner) :
      Transition state process (.loadConfig supported)
        (state.move process (.saving (ownerSave .configError)))
  | captured (hphase : state.phases process = .capturing) :
      Transition state process (.executeCapture true)
        (State.move { state with captured := state.captured + 1 } process
          (.saving (ownerSave .ok)))
  | notCaptured (hphase : state.phases process = .capturing) :
      Transition state process (.executeCapture false)
        (state.move process (.saving (ownerSave .configError)))
  | unread (opened : Bool) (save : Save) (hphase : state.phases process = .saving save)
      (hfile : state.file.loadForUpdate opened = none) :
      Transition state process (.readConfig opened) (state.move process save.after)
  | read (opened : Bool) (save : Save) (config : BootTraceConfig)
      (hphase : state.phases process = .saving save)
      (hfile : state.file.loadForUpdate opened = some config) :
      Transition state process (.readConfig opened)
        (state.move process (.updating save (config.record save.code)))
  | truncated (save : Save) (config : BootTraceConfig)
      (hphase : state.phases process = .updating save config) :
      Transition state process (.truncateConfig true)
        (State.move { state with file := .empty } process (.writing save config))
  | notTruncated (save : Save) (config : BootTraceConfig)
      (hphase : state.phases process = .updating save config) :
      Transition state process (.truncateConfig false) (state.move process save.after)
  | wrote (written : Bool) (torn : ConfigFile) (save : Save) (config : BootTraceConfig)
      (hphase : state.phases process = .writing save config) :
      Transition state process (.writeConfig written torn)
        (State.move
          { state with
            file := if written ∧ state.file = .empty then .object config else torn }
          process save.after)
  | cleared (succeeded : Bool) (code : ExitCode)
      (hphase : state.phases process = .clearing code) :
      Transition state process (.clearFlag succeeded)
        (State.move { state with active := state.active && !succeeded } process
          (.exited code))

theorem transition_of_step {state next : State} {process : Nat} {action : Action}
    (hstep : machine.step state ⟨process, action⟩ = some next) :
    Transition state process action next := by
  change state.act process action (state.phases process) = some next at hstep
  generalize hphase : state.phases process = phase at hstep
  cases action with
  | testFlag =>
      cases phase with
      | launched =>
          rw [State.act] at hstep
          split at hstep
          · next hactive =>
              cases hstep
              exact .duplicate hphase hactive
          · next hactive =>
              cases hstep
              exact .tested hphase (Bool.not_eq_true _ ▸ hactive)
      | _ => cases hstep
  | setFlag succeeded =>
      cases phase with
      | unset =>
          cases succeeded with
          | true =>
              cases hstep
              exact .set hphase
          | false =>
              cases hstep
              exact .refused hphase
      | _ => cases hstep
  | loadConfig supported =>
      cases phase with
      | owner =>
          rw [State.act] at hstep
          split at hstep
          · cases hstep
            exact .loaded supported hphase
          · cases hstep
            exact .notLoaded supported hphase
      | _ => cases hstep
  | executeCapture succeeded =>
      cases phase with
      | capturing =>
          cases succeeded with
          | true =>
              cases hstep
              exact .captured hphase
          | false =>
              cases hstep
              exact .notCaptured hphase
      | _ => cases hstep
  | readConfig opened =>
      cases phase with
      | saving save =>
          rw [State.act] at hstep
          split at hstep
          · next hfile =>
              cases hstep
              exact .unread opened save hphase hfile
          · next config hfile =>
              cases hstep
              exact .read opened save config hphase hfile
      | _ => cases hstep
  | truncateConfig opened =>
      cases phase with
      | updating save config =>
          cases opened with
          | true =>
              cases hstep
              exact .truncated save config hphase
          | false =>
              cases hstep
              exact .notTruncated save config hphase
      | _ => cases hstep
  | writeConfig written torn =>
      cases phase with
      | writing save config =>
          cases hstep
          exact .wrote written torn save config hphase
      | _ => cases hstep
  | clearFlag succeeded =>
      cases phase with
      | clearing code =>
          cases hstep
          exact .cleared succeeded code hphase
      | _ => cases hstep

/-! The flag. -/

namespace Phase

/-- The process has set the flag and not cleared it yet. -/
def owns : Phase → Bool
  | .owner | .capturing | .clearing _ => true
  | .saving save | .updating save _ | .writing save _ => save.owner
  | .launched | .unset | .exited _ => false

/-- The process is between its read and its write of the config. -/
def updates : Phase → Bool
  | .updating _ _ | .writing _ _ => true
  | _ => false

/-- The process has captured and the config does not say so yet. -/
def gained : Phase → Bool
  | .saving save | .updating save _ | .writing save _ => decide (save.code = .ok)
  | _ => false

end Phase

theorem Save.after_owns (save : Save) : save.after.owns = save.owner := by
  rw [Save.after]
  cases save.owner with
  | true => rfl
  | false => rfl

theorem Save.after_updates (save : Save) : save.after.updates = false := by
  rw [Save.after]
  split <;> rfl

theorem Save.after_gained (save : Save) : save.after.gained = false := by
  rw [Save.after]
  split <;> rfl

theorem Phase.owns_of_gained {phase : Phase} (hgained : phase.gained = true) :
    phase.owns = true := by
  cases phase with
  | saving save => exact save.owned (of_decide_eq_true hgained)
  | updating save config => exact save.owned (of_decide_eq_true hgained)
  | writing save config => exact save.owned (of_decide_eq_true hgained)
  | _ => cases hgained

/-- The flag is set by a process that finds it off, and the updates of the config do not
overlap or fail. -/
def Allowed (state : State) (label : Label) : Prop :=
  match label.action with
  | .setFlag succeeded => succeeded = true → state.active = false
  | .readConfig opened =>
      (∀ other, (state.phases other).updates = false) ∧
        ((state.phases label.process).gained = true → opened = true)
  | .truncateConfig opened => (state.phases label.process).gained = true → opened = true
  | .writeConfig written _ => written = true
  | _ => True

/-- Every owner is the process that set the flag last, and the flag is still on. -/
def Exclusive (state : State) : Prop :=
  ∀ process, (state.phases process).owns = true →
    state.active = true ∧ state.holder = some process

variable {state : State}

theorem Exclusive.move (hexclusive : Exclusive state) (process : Nat) (phase : Phase)
    (howns : phase.owns = true → (state.phases process).owns = true) {file : ConfigFile}
    {captured : Nat} :
    Exclusive (State.move { state with file, captured } process phase) := by
  intro other hother
  by_cases hsame : other = process
  · subst hsame
    rw [move_phases_self] at hother
    exact hexclusive other (howns hother)
  · rw [move_phases_of_ne _ _ hsame] at hother
    exact hexclusive other hother

theorem Exclusive.set (hexclusive : Exclusive state) (hactive : state.active = false)
    (process : Nat) :
    Exclusive (State.move { state with active := true, holder := some process } process
      .owner) := by
  intro other hother
  by_cases hsame : other = process
  · exact ⟨rfl, congrArg some hsame.symm⟩
  · rw [move_phases_of_ne _ _ hsame] at hother
    have hon := (hexclusive other hother).1
    rw [hactive] at hon
    cases hon

theorem Exclusive.clear (hexclusive : Exclusive state) {process : Nat} {code : ExitCode}
    (hphase : state.phases process = .clearing code) (succeeded : Bool) :
    Exclusive (State.move { state with active := state.active && !succeeded } process
      (.exited code)) := by
  intro other hother
  by_cases hsame : other = process
  · rw [hsame, move_phases_self] at hother
    cases hother
  · rw [move_phases_of_ne _ _ hsame] at hother
    have hholder := (hexclusive process (by rw [hphase]; rfl)).2
    rw [(hexclusive other hother).2] at hholder
    exact absurd (Option.some_inj.mp hholder) hsame

theorem exclusive_step (hexclusive : Exclusive state) {process : Nat} {action : Action}
    {next : State} (hallowed : Allowed state ⟨process, action⟩)
    (htransition : Transition state process action next) : Exclusive next := by
  cases htransition with
  | duplicate hphase hactive => exact hexclusive.move process _ (by intro h; cases h)
  | tested hphase hactive => exact hexclusive.move process _ (by intro h; cases h)
  | set hphase => exact hexclusive.set (hallowed rfl) process
  | refused hphase => exact hexclusive.move process _ (by intro h; cases h)
  | loaded supported hphase => exact hexclusive.move process _ (by rw [hphase]; exact id)
  | notLoaded supported hphase => exact hexclusive.move process _ (by rw [hphase]; exact id)
  | captured hphase => exact hexclusive.move process _ (by rw [hphase]; exact id)
  | notCaptured hphase => exact hexclusive.move process _ (by rw [hphase]; exact id)
  | unread opened save hphase hfile =>
      exact hexclusive.move process _ (by rw [hphase, save.after_owns]; exact id)
  | read opened save config hphase hfile =>
      exact hexclusive.move process _ (by rw [hphase]; exact id)
  | truncated save config hphase =>
      exact hexclusive.move process _ (by rw [hphase]; exact id)
  | notTruncated save config hphase =>
      exact hexclusive.move process _ (by rw [hphase, save.after_owns]; exact id)
  | wrote written torn save config hphase =>
      exact hexclusive.move process _ (by rw [hphase, save.after_owns]; exact id)
  | cleared succeeded code hphase => exact hexclusive.clear hphase succeeded

/-! The index. -/

def Save.gain (save : Save) : Nat :=
  if save.code = .ok then 1 else 0

theorem toInt_nextIndex {valueint : Int32} (hpos : 0 ≤ valueint.toInt)
    (hbound : valueint.toInt + 1 < 2 ^ 31) :
    (nextIndex valueint).map Int32.toInt = some (valueint.toInt + 1) := by
  have hnonneg : ¬ valueint < 0 := by
    rw [Int32.lt_iff_toInt_lt]
    exact Int.not_lt.mpr hpos
  rw [nextIndex, if_neg hnonneg, Option.map_some, Int32.toInt_add, Option.some_inj,
    Int32.toInt_one, Int.bmod]
  omega

theorem record_valueint {config : BootTraceConfig} {valueint : Int}
    (hindex : config.valueint = some valueint) (hpos : 0 ≤ valueint) (save : Save)
    (hbound : valueint + save.gain < 2 ^ 31) :
    (config.record save.code).valueint = some (valueint + save.gain) := by
  obtain ⟨number, hnumber, rfl⟩ := Option.map_eq_some_iff.mp hindex
  rw [Save.gain] at hbound ⊢
  rw [BootTraceConfig.record]
  split
  · next hok =>
      rw [if_pos hok] at hbound
      have hnext := toInt_nextIndex hpos hbound
      obtain ⟨newIdx, hnewIdx, htoInt⟩ := Option.map_eq_some_iff.mp hnext
      rw [BootTraceConfig.incrementBump]
      dsimp only
      rw [hnumber, Option.bind_some, hnewIdx]
      exact congrArg some htoInt
  · rw [Nat.cast_zero, Int.add_zero]
    exact hindex

/-- The config has the index of the captures that were saved; a process that updates it
has its next value. -/
structure Recorded (index : Int) (state : State) (saved : Nat) : Prop where
  single : ∀ process other, (state.phases process).updates = true →
    (state.phases other).updates = true → process = other
  file : (∀ process save config, state.phases process ≠ .writing save config) →
    state.file.incrementIndex = some (index + saved)
  updating : ∀ process save config, state.phases process = .updating save config →
    config.valueint = some (index + saved + save.gain)
  writing : ∀ process save config, state.phases process = .writing save config →
    state.file = .empty ∧ config.valueint = some (index + saved + save.gain)

/-- All captures but the one that is being saved are saved. -/
structure Counted (state : State) (saved : Nat) : Prop where
  held : ∀ process, (state.phases process).gained = true → state.captured = saved + 1
  settled : state.captured = saved ∨ ∃ process, (state.phases process).gained = true

variable {index : Int} {saved : Nat} {process : Nat}

/-- A process that is not about to write goes on to a phase without an update. -/
theorem Recorded.leave (hrecorded : Recorded index state saved) (phase : Phase)
    (hwriting : ∀ save config, state.phases process ≠ .writing save config)
    (hupdates : phase.updates = false) {active : Bool} {holder : Option Nat}
    {captured : Nat} :
    Recorded index (State.move { state with active, holder, captured } process phase)
      saved := by
  have hfrom : ∀ other,
      ((State.move { state with active, holder, captured } process phase).phases
        other).updates = true →
        (State.move { state with active, holder, captured } process phase).phases other =
          state.phases other := by
    intro other hother
    by_cases hsame : other = process
    · rw [hsame, move_phases_self, hupdates] at hother
      cases hother
    · rw [move_phases_of_ne _ _ hsame]
  refine ⟨?_, ?_, ?_, ?_⟩
  · intro first second hfirst hsecond
    have hold := hfrom first hfirst
    have hold' := hfrom second hsecond
    rw [hold] at hfirst
    rw [hold'] at hsecond
    exact hrecorded.single first second hfirst hsecond
  · intro hnone
    apply hrecorded.file
    intro other save config hother
    by_cases hsame : other = process
    · rw [hsame] at hother
      exact hwriting save config hother
    · apply hnone other save config
      rw [move_phases_of_ne _ _ hsame]
      exact hother
  · intro other save config hother
    have hold := hfrom other (by rw [hother]; rfl)
    rw [hold] at hother
    exact hrecorded.updating other save config hother
  · intro other save config hother
    have hold := hfrom other (by rw [hother]; rfl)
    rw [hold] at hother
    exact hrecorded.writing other save config hother

theorem Recorded.alone {phase : Phase} {next : State}
    (hphases : next.phases = Function.update state.phases process phase)
    (hothers : ∀ other, other ≠ process → (state.phases other).updates = false)
    (hfile : phase.updates = false → next.file.incrementIndex = some (index + saved))
    (hupdating : ∀ save config, phase = .updating save config →
      next.file.incrementIndex = some (index + saved) ∧
        config.valueint = some (index + saved + save.gain))
    (hwriting : ∀ save config, phase = .writing save config →
      next.file = .empty ∧ config.valueint = some (index + saved + save.gain)) :
    Recorded index next saved := by
  have hself : next.phases process = phase := by
    rw [hphases, Function.update_self]
  have honly : ∀ other, (next.phases other).updates = true → other = process := by
    intro other hother
    by_contra hne
    rw [hphases, Function.update_of_ne hne, hothers other hne] at hother
    cases hother
  refine ⟨?_, ?_, ?_, ?_⟩
  · intro first second hfirst hsecond
    rw [honly first hfirst, honly second hsecond]
  · intro hnone
    cases phase with
    | updating save config => exact (hupdating save config rfl).1
    | writing save config => exact absurd hself (hnone process save config)
    | _ => exact hfile rfl
  · intro other save config hother
    have hsame := honly other (by rw [hother]; rfl)
    rw [hsame, hself] at hother
    exact (hupdating save config hother).2
  · intro other save config hother
    have hsame := honly other (by rw [hother]; rfl)
    rw [hsame, hself] at hother
    exact hwriting save config hother

theorem Recorded.others (hrecorded : Recorded index state saved)
    (hupdates : (state.phases process).updates = true) :
    ∀ other, other ≠ process → (state.phases other).updates = false := by
  intro other hne
  rw [← Bool.not_eq_true]
  intro hother
  exact hne (hrecorded.single other process hother hupdates)

theorem Counted.move (hcounted : Counted state saved) (phase : Phase)
    (hgained : phase.gained = (state.phases process).gained) {file : ConfigFile}
    {active : Bool} {holder : Option Nat} :
    Counted (State.move { state with file, active, holder } process phase) saved := by
  have hsame : ∀ other,
      ((State.move { state with file, active, holder } process phase).phases other).gained =
        (state.phases other).gained := by
    intro other
    by_cases hother : other = process
    · rw [hother, move_phases_self, hgained]
    · rw [move_phases_of_ne _ _ hother]
  constructor
  · intro other hother
    rw [hsame] at hother
    exact hcounted.held other hother
  · rcases hcounted.settled with hsettled | ⟨other, hother⟩
    · exact Or.inl hsettled
    · exact Or.inr ⟨other, by rw [hsame]; exact hother⟩

theorem Counted.saved_le (hcounted : Counted state saved) : saved ≤ state.captured := by
  rcases hcounted.settled with hsettled | ⟨other, hother⟩
  · omega
  · have hheld := hcounted.held other hother
    omega

theorem Exclusive.gained_unique (hexclusive : Exclusive state) {other : Nat}
    (howns : (state.phases process).owns = true)
    (hgained : (state.phases other).gained = true) : other = process := by
  have hother := (hexclusive other (Phase.owns_of_gained hgained)).2
  rw [(hexclusive process howns).2] at hother
  exact (Option.some_inj.mp hother).symm

theorem Counted.capture (hcounted : Counted state saved) (hexclusive : Exclusive state)
    (hphase : state.phases process = .capturing) :
    Counted (State.move { state with captured := state.captured + 1 } process
      (.saving (ownerSave .ok))) saved := by
  have hcaptured : state.captured = saved := by
    rcases hcounted.settled with hsettled | ⟨other, hother⟩
    · exact hsettled
    · have hsame := hexclusive.gained_unique (by rw [hphase]; rfl) hother
      rw [hsame, hphase] at hother
      cases hother
  constructor
  · intro _ _
    exact congrArg (· + 1) hcaptured
  · exact Or.inr ⟨process, by rw [move_phases_self]; rfl⟩

theorem Counted.write (hcounted : Counted state saved) (hexclusive : Exclusive state)
    {save : Save} {config : BootTraceConfig}
    (hphase : state.phases process = .writing save config) {file : ConfigFile} :
    Counted (State.move { state with file } process save.after) (saved + save.gain) := by
  by_cases hok : save.code = .ok
  · have hgain : save.gain = 1 := if_pos hok
    have hgained : (state.phases process).gained = true := by
      rw [hphase]
      exact decide_eq_true hok
    rw [hgain]
    refine ⟨?_, Or.inl (hcounted.held process hgained)⟩
    intro other hother
    by_cases hsame : other = process
    · rw [hsame, move_phases_self, save.after_gained] at hother
      cases hother
    · rw [move_phases_of_ne _ _ hsame] at hother
      exact absurd (hexclusive.gained_unique (Phase.owns_of_gained hgained) hother) hsame
  · have hgain : save.gain = 0 := if_neg hok
    rw [hgain]
    apply hcounted.move
    rw [save.after_gained, hphase]
    exact (decide_eq_false hok).symm

theorem Recorded.read (hrecorded : Recorded index state saved)
    (hcounted : Counted state saved) (hindex : 0 ≤ index)
    (hbound : index + state.captured < 2 ^ 31) {save : Save} {config : BootTraceConfig}
    {opened : Bool} (hphase : state.phases process = .saving save)
    (hfile : state.file.loadForUpdate opened = some config)
    (hnone : ∀ other, (state.phases other).updates = false) :
    Recorded index (state.move process (.updating save (config.record save.code))) saved := by
  have hsaved := hcounted.saved_le
  have hcurrent : state.file.incrementIndex = some (index + saved) := by
    apply hrecorded.file
    intro other otherSave otherConfig hother
    have hupdates := hnone other
    rw [hother] at hupdates
    cases hupdates
  have hconfig : config.valueint = some (index + saved) := by
    rw [← hcurrent]
    cases hobject : state.file with
    | object current =>
        rw [hobject, ConfigFile.loadForUpdate] at hfile
        split at hfile
        · cases hfile
          rfl
        · cases hfile
    | _ =>
        rw [hobject] at hfile
        cases hfile
  have hgain : index + saved + save.gain < 2 ^ 31 := by
    rw [Save.gain]
    split
    · next hok =>
        have hheld := hcounted.held process (by rw [hphase]; exact decide_eq_true hok)
        omega
    · omega
  refine .alone rfl (fun other _ => hnone other) ?_ ?_ ?_
  · intro hupdates
    cases hupdates
  · intro _ _ hsame
    cases hsame
    exact ⟨hcurrent, record_valueint hconfig (by omega) save hgain⟩
  · intro _ _ hsame
    cases hsame

theorem Recorded.truncate (hrecorded : Recorded index state saved) {save : Save}
    {config : BootTraceConfig} (hphase : state.phases process = .updating save config) :
    Recorded index (State.move { state with file := .empty } process (.writing save config))
      saved := by
  refine .alone rfl (hrecorded.others (by rw [hphase]; rfl)) ?_ ?_ ?_
  · intro hupdates
    cases hupdates
  · intro _ _ hsame
    cases hsame
  · intro _ _ hsame
    cases hsame
    exact ⟨rfl, hrecorded.updating process save config hphase⟩

theorem Recorded.write (hrecorded : Recorded index state saved) {save : Save}
    {config : BootTraceConfig} (hphase : state.phases process = .writing save config)
    (torn : ConfigFile) :
    Recorded index
      (State.move
        { state with
          file := if true ∧ state.file = .empty then .object config else torn }
        process save.after) (saved + save.gain) := by
  obtain ⟨hempty, hconfig⟩ := hrecorded.writing process save config hphase
  have hnext : config.valueint = some (index + (saved + save.gain : Nat)) := by
    rw [hconfig, Int.natCast_add, Int.add_assoc]
  have hafter := save.after_updates
  rw [if_pos ⟨rfl, hempty⟩]
  refine .alone rfl (hrecorded.others (by rw [hphase]; rfl)) (fun _ => hnext) ?_ ?_
  · intro _ _ hsame
    rw [hsame] at hafter
    cases hafter
  · intro _ _ hsame
    rw [hsame] at hafter
    cases hafter

/-- The result of a successful capture is read back from a config that is there. -/
theorem Recorded.not_unread (hrecorded : Recorded index state saved) {opened : Bool}
    (hopened : opened = true) (hnone : ∀ other, (state.phases other).updates = false)
    (hfile : state.file.loadForUpdate opened = none) : False := by
  have hcurrent : state.file.incrementIndex = some (index + saved) := by
    apply hrecorded.file
    intro other save config hother
    have hupdates := hnone other
    rw [hother] at hupdates
    cases hupdates
  rw [hopened] at hfile
  cases hobject : state.file with
  | object config =>
      rw [hobject] at hfile
      cases hfile
  | _ =>
      rw [hobject] at hcurrent
      cases hcurrent

/-- The captures up to this state are counted in the config. -/
def Indexed (index : Int) (state : State) : Prop :=
  ∃ saved, Recorded index state saved ∧ Counted state saved

theorem Indexed.leave (hindexed : Indexed index state) {before : Phase}
    (hphase : state.phases process = before)
    (hwriting : ∀ save config, before ≠ .writing save config) (phase : Phase)
    (hupdates : phase.updates = false) (hgained : phase.gained = before.gained)
    {active : Bool} {holder : Option Nat} :
    Indexed index (State.move { state with active, holder } process phase) := by
  obtain ⟨saved, hrecorded, hcounted⟩ := hindexed
  refine ⟨saved, hrecorded.leave phase ?_ hupdates, hcounted.move phase ?_⟩
  · rw [hphase]
    exact hwriting
  · rw [hphase]
    exact hgained

theorem indexed_step (hindex : 0 ≤ index) (hindexed : Indexed index state)
    (hexclusive : Exclusive state) {action : Action} {next : State}
    (hbound : index + state.captured < 2 ^ 31)
    (hallowed : Allowed state ⟨process, action⟩)
    (htransition : Transition state process action next) : Indexed index next := by
  cases htransition with
  | duplicate hphase hactive =>
      exact hindexed.leave hphase (by intro _ _ h; cases h) (.saving duplicateSave) rfl rfl
  | tested hphase hactive =>
      exact hindexed.leave hphase (by intro _ _ h; cases h) .unset rfl rfl
  | set hphase =>
      exact hindexed.leave hphase (by intro _ _ h; cases h) .owner rfl rfl
  | refused hphase =>
      exact hindexed.leave hphase (by intro _ _ h; cases h) (.saving refusedSave) rfl rfl
  | loaded supported hphase =>
      exact hindexed.leave hphase (by intro _ _ h; cases h) .capturing rfl rfl
  | notLoaded supported hphase =>
      exact hindexed.leave hphase (by intro _ _ h; cases h)
        (.saving (ownerSave .configError)) rfl rfl
  | captured hphase =>
      obtain ⟨saved, hrecorded, hcounted⟩ := hindexed
      refine ⟨saved, hrecorded.leave _ ?_ rfl, hcounted.capture hexclusive hphase⟩
      rw [hphase]
      intro _ _ h
      cases h
  | notCaptured hphase =>
      exact hindexed.leave hphase (by intro _ _ h; cases h)
        (.saving (ownerSave .configError)) rfl rfl
  | unread opened save hphase hfile =>
      have hfailed : save.code ≠ .ok := by
        intro hok
        obtain ⟨saved, hrecorded, hcounted⟩ := hindexed
        have hopened := hallowed.2 (by rw [hphase]; exact decide_eq_true hok)
        exact hrecorded.not_unread hopened hallowed.1 hfile
      refine hindexed.leave hphase (by intro _ _ h; cases h) save.after save.after_updates ?_
      rw [save.after_gained]
      exact (decide_eq_false hfailed).symm
  | read opened save config hphase hfile =>
      obtain ⟨saved, hrecorded, hcounted⟩ := hindexed
      refine ⟨saved, hrecorded.read hcounted hindex hbound hphase hfile hallowed.1,
        hcounted.move _ ?_⟩
      rw [hphase]
      rfl
  | truncated save config hphase =>
      obtain ⟨saved, hrecorded, hcounted⟩ := hindexed
      refine ⟨saved, hrecorded.truncate hphase, hcounted.move _ ?_⟩
      rw [hphase]
      rfl
  | notTruncated save config hphase =>
      have hfailed : save.code ≠ .ok := by
        intro hok
        have hopened := hallowed (by rw [hphase]; exact decide_eq_true hok)
        cases hopened
      refine hindexed.leave hphase (by intro _ _ h; cases h) save.after save.after_updates ?_
      rw [save.after_gained]
      exact (decide_eq_false hfailed).symm
  | wrote written torn save config hphase =>
      obtain ⟨saved, hrecorded, hcounted⟩ := hindexed
      cases (hallowed : written = true)
      exact ⟨saved + save.gain, hrecorded.write hphase torn,
        hcounted.write hexclusive hphase⟩
  | cleared succeeded code hphase =>
      exact hindexed.leave hphase (by intro _ _ h; cases h) (.exited code) rfl rfl

theorem captured_mono {action : Action} {next : State}
    (htransition : Transition state process action next) : state.captured ≤ next.captured := by
  cases htransition with
  | captured hphase => exact Nat.le_succ _
  | _ => exact Nat.le_refl _

/-! Whole runs. -/

theorem exclusive_start {start : State} (hstart : machine.init start) : Exclusive start := by
  intro process howns
  rw [hstart.2.2 process] at howns
  cases howns

theorem exclusive_of_run {start final : State} {labels : List Label}
    (hstart : machine.init start) (hobeys : machine.Obeys Allowed start labels)
    (hrun : machine.run start labels = some final) : Exclusive final := by
  refine machine.invariant_of_obeys (motive := Exclusive) ?_ (exclusive_start hstart)
    hobeys hrun
  intro state label next hexclusive hallowed hstep
  exact exclusive_step hexclusive hallowed (transition_of_step hstep)

theorem indexed_start {start : State} (hstart : machine.init start)
    (hfile : start.file.incrementIndex = some index) : Indexed index start := by
  have hnone : ∀ process, (start.phases process).updates = false := by
    intro process
    rw [hstart.2.2 process]
    rfl
  refine ⟨0, ?_, ?_, Or.inl hstart.2.1⟩
  · refine ⟨?_, fun _ => by rw [hfile]; simp, ?_, ?_⟩
    · intro process other hupdates
      rw [hnone process] at hupdates
      cases hupdates
    · intro process save config hphase
      rw [hstart.2.2 process] at hphase
      cases hphase
    · intro process save config hphase
      rw [hstart.2.2 process] at hphase
      cases hphase
  · intro process hgained
    rw [hstart.2.2 process] at hgained
    cases hgained

theorem indexed_of_run {start final : State} {labels : List Label}
    (hstart : machine.init start) (hobeys : machine.Obeys Allowed start labels)
    (hrun : machine.run start labels = some final) (hindex : 0 ≤ index)
    (hfile : start.file.incrementIndex = some index)
    (hbound : index + final.captured < 2 ^ 31) : Indexed index final := by
  have hstate : Exclusive final ∧ (index + final.captured < 2 ^ 31 → Indexed index final) := by
    refine machine.invariant_of_obeys
      (motive := fun state => Exclusive state ∧
        (index + state.captured < 2 ^ 31 → Indexed index state))
      ?_ ⟨exclusive_start hstart, fun _ => indexed_start hstart hfile⟩ hobeys hrun
    rintro state label next ⟨hexclusive, hindexed⟩ hallowed hstep
    have htransition := transition_of_step hstep
    refine ⟨exclusive_step hexclusive hallowed htransition, ?_⟩
    intro hnext
    have hmono := captured_mono htransition
    have hless : index + state.captured < 2 ^ 31 := by omega
    exact indexed_step hindex (hindexed hless) hexclusive hless hallowed htransition
  exact hstate.2 hbound

end BootTrace

open BootTrace in
/-- In a run in which the flag is set only while it is off and the updates of the config
neither overlap nor fail: at most one process captures, the flag is cleared by the process
that set it, and the index counts the successful captures. -/
theorem boot_trace_counted (start final : State) (labels : List Label)
    (hstart : machine.init start) (hobeys : machine.Obeys Allowed start labels)
    (hrun : machine.run start labels = some final) :
    (∀ process other, final.phases process = .capturing →
      final.phases other = .capturing → process = other) ∧
      (∀ process code, final.phases process = .clearing code →
        final.holder = some process) ∧
      (∀ index : Int, start.file.incrementIndex = some index → 0 ≤ index →
        index + final.captured < 2 ^ 31 →
        (∀ process, (final.phases process).gained = false ∧
          (final.phases process).updates = false) →
          final.file.incrementIndex = some (index + final.captured)) := by
  have hexclusive := exclusive_of_run hstart hobeys hrun
  refine ⟨?_, ?_, ?_⟩
  · intro process other hprocess hother
    have hfirst := (hexclusive process (by rw [hprocess]; rfl)).2
    have hsecond := (hexclusive other (by rw [hother]; rfl)).2
    rw [hfirst] at hsecond
    exact Option.some_inj.mp hsecond
  · intro process code hprocess
    exact (hexclusive process (by rw [hprocess]; rfl)).2
  · intro index hfile hindex hbound hsettled
    obtain ⟨saved, hrecorded, hcounted⟩ :=
      indexed_of_run hstart hobeys hrun hindex hfile hbound
    have hsaved : final.captured = saved := by
      rcases hcounted.settled with hsaved | ⟨process, hgained⟩
      · exact hsaved
      · rw [(hsettled process).1] at hgained
        cases hgained
    rw [hsaved]
    apply hrecorded.file
    intro process save config hwriting
    have hupdates := (hsettled process).2
    rw [hwriting] at hupdates
    cases hupdates

namespace BootTrace

def sampleConfig : BootTraceConfig where
  durationSec := some 1
  tags := ["sched".toList]
  incrementIndex := some 0

def sampleStart : State where
  file := .object sampleConfig

/-- A duplicate launch updates the config while the owner captures, and the owner updates
it afterwards. -/
def ownerAndDuplicate : List Label :=
  [⟨0, .testFlag⟩, ⟨0, .setFlag true⟩, ⟨0, .loadConfig true⟩, ⟨1, .testFlag⟩,
    ⟨1, .readConfig true⟩, ⟨0, .executeCapture true⟩, ⟨1, .truncateConfig true⟩,
    ⟨1, .writeConfig true .broken⟩, ⟨0, .readConfig true⟩, ⟨0, .truncateConfig true⟩,
    ⟨0, .writeConfig true .broken⟩, ⟨0, .clearFlag true⟩]

/-- Both processes test the flag before one of them sets it. -/
def twoOwners : List Label :=
  [⟨0, .testFlag⟩, ⟨1, .testFlag⟩, ⟨0, .setFlag true⟩, ⟨1, .setFlag true⟩,
    ⟨0, .loadConfig true⟩, ⟨1, .loadConfig true⟩]

/-- A duplicate launch reads the config before the owner writes it, and writes it back
after. -/
def lateDuplicate : List Label :=
  [⟨0, .testFlag⟩, ⟨0, .setFlag true⟩, ⟨0, .loadConfig true⟩, ⟨1, .testFlag⟩,
    ⟨1, .readConfig true⟩, ⟨0, .executeCapture true⟩, ⟨0, .readConfig true⟩,
    ⟨0, .truncateConfig true⟩, ⟨0, .writeConfig true .broken⟩, ⟨0, .clearFlag true⟩,
    ⟨1, .truncateConfig true⟩, ⟨1, .writeConfig true .broken⟩]

end BootTrace

open BootTrace in
theorem boot_trace_counted_owner_and_duplicate :
    ∃ final, machine.run sampleStart ownerAndDuplicate = some final ∧
      final.phases 0 = .exited .ok ∧ final.phases 1 = .exited .duplicate ∧
      final.captured = 1 ∧ final.file.incrementIndex = some 1 := by
  have hobeys : machine.Obeys Allowed sampleStart ownerAndDuplicate := by
    refine ⟨trivial, fun _ => rfl, trivial, trivial, ⟨?_, fun _ => rfl⟩, trivial,
      fun _ => rfl, rfl, ⟨?_, fun _ => rfl⟩, fun _ => rfl, rfl, trivial, trivial⟩
    · -- the duplicate reads while the owner captures
      intro other
      match other with
      | 0 => rfl
      | 1 => rfl
      | _ + 2 => rfl
    · -- the owner reads when the duplicate has exited
      intro other
      match other with
      | 0 => rfl
      | 1 => rfl
      | _ + 2 => rfl
  refine ⟨_, rfl, rfl, rfl, rfl, ?_⟩
  apply (boot_trace_counted sampleStart _ ownerAndDuplicate ⟨rfl, rfl, fun _ => rfl⟩ hobeys
    rfl).2.2 0 rfl (by decide) (by decide)
  intro process
  match process with
  | 0 => exact ⟨rfl, rfl⟩
  | 1 => exact ⟨rfl, rfl⟩
  | _ + 2 => exact ⟨rfl, rfl⟩

open BootTrace in
/-- Two processes capture at the same time; and an increment is lost to a duplicate
launch. -/
theorem concurrent_launches_interfere :
    (∃ final, machine.run sampleStart twoOwners = some final ∧
      final.phases 0 = .capturing ∧ final.phases 1 = .capturing) ∧
      ∃ final, machine.run sampleStart lateDuplicate = some final ∧
        final.captured = 1 ∧ final.phases 0 = .exited .ok ∧
        final.phases 1 = .exited .duplicate ∧ final.file.incrementIndex = some 0 :=
  ⟨⟨_, rfl, rfl, rfl⟩, ⟨_, rfl, rfl, rfl, rfl, rfl⟩⟩

end Hitrace
