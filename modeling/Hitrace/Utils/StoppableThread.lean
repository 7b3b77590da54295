import Hitrace.Library.Transition

namespace Hitrace

open Library

/-! `StoppableThreadHelper`: callers that start and stop a sub-thread, in any order of the
sections they run under its mutex. -/

namespace StoppableThread

/-- Where a sub-thread stands: in front of a call of its task, in it, in `wait_for` on
`cvTask_`, or behind its loop. -/
inductive SubThread
  | due
  | working
  | asleep (notified : Bool)
  | leaving
deriving Repr, DecidableEq

variable {ι : Type}

/-- The members of the helper, the callers asleep on `cvFinished_`, and those of them that
are awake again without the mutex.  The counters and the calls that have returned true
are there for what is said about runs. -/
structure Helper (ι : Type) where
  shouldSubThreadExit : Bool := false
  isSubThreadRunning : Bool := false
  subThreads : List SubThread := []
  waiting : List ι := []
  woken : List ι := []
  starts : Nat := 0
  turns : Nat := 0
  stopped : List ι := []
deriving Repr, DecidableEq

/-- `beginTask` and `task` are the beginning and the end of a turn, the end with the result
of the task; `leave` tells which of the sleeping callers is notified.  `drowse` is a wake-up
without a cause. -/
inductive Action (ι : Type)
  | startSubThread (hasTask : Bool)
  | beginTask (place : Nat)
  | task (place : Nat) (again : Bool)
  | wake (place : Nat)
  | timeout (place : Nat)
  | leave (place : Nat) (notified : Option ι)
  | stopSubThread (caller : ι)
  | drowse (caller : ι)
  | recheck (caller : ι)
deriving Repr, DecidableEq

namespace Helper

variable [DecidableEq ι] (helper : Helper ι)

def setSubThread (place : Nat) (subThread : SubThread) : Helper ι :=
  { helper with subThreads := helper.subThreads.set place subThread }

/-- What the sub-thread does when it has the mutex and looks at its flag. -/
def checkExit : SubThread :=
  if helper.shouldSubThreadExit then .leaving else .asleep false

/-- `cvTask_.notify_one()`. -/
def notifyTask : List SubThread → List SubThread
  | [] => []
  | .asleep _ :: rest => .asleep true :: rest
  | subThread :: rest => subThread :: notifyTask rest

def startSubThread (hasTask : Bool) : Helper ι :=
  if !hasTask || helper.isSubThreadRunning then helper
  else
    { helper with
      shouldSubThreadExit := false
      isSubThreadRunning := true
      subThreads := helper.subThreads ++ [SubThread.due]
      starts := helper.starts + 1 }

/-- The task is called without the mutex: a call of the helper may come in between. -/
def beginTask (place : Nat) : Option (Helper ι) :=
  match helper.subThreads[place]? with
  | some .due => some { helper.setSubThread place .working with turns := helper.turns + 1 }
  | _ => none

def task (place : Nat) (again : Bool) : Option (Helper ι) :=
  match helper.subThreads[place]? with
  | some .working =>
      some (helper.setSubThread place (if again then helper.checkExit else .leaving))
  | _ => none

/-- A wake-up before the time is over goes back to sleep unless the flag is set. -/
def wake (place : Nat) : Option (Helper ι) :=
  match helper.subThreads[place]? with
  | some (.asleep _) => some (helper.setSubThread place helper.checkExit)
  | _ => none

def timeout (place : Nat) : Option (Helper ι) :=
  match helper.subThreads[place]? with
  | some (.asleep _) =>
      if helper.shouldSubThreadExit then some (helper.setSubThread place .leaving)
      else some (helper.setSubThread place .due)
  | _ => none

/-- `cvFinished_.notify_one()` takes any of the callers that sleep. -/
def notifyFinished : Option ι → Option (Helper ι)
  | none => if helper.waiting = [] then some helper else none
  | some caller =>
      if caller ∈ helper.waiting then
        some { helper with
          waiting := helper.waiting.erase caller, woken := caller :: helper.woken }
      else none

def leave (place : Nat) (notified : Option ι) : Option (Helper ι) :=
  match helper.subThreads[place]? with
  | some .leaving =>
      { helper with
        isSubThreadRunning := false
        subThreads := helper.subThreads.eraseIdx place }.notifyFinished notified
  | _ => none

/-- A caller in the call makes no second one; one that finds no thread has `false` at
once. -/
def stopSubThread (caller : ι) : Option (Helper ι) :=
  if caller ∈ helper.waiting ∨ caller ∈ helper.woken then none
  else if helper.isSubThreadRunning then
    some { helper with
      shouldSubThreadExit := true
      subThreads := notifyTask helper.subThreads
      waiting := caller :: helper.waiting }
  else some helper

def drowse (caller : ι) : Option (Helper ι) :=
  if caller ∈ helper.waiting then
    some { helper with
      waiting := helper.waiting.erase caller, woken := caller :: helper.woken }
  else none

/-- An awake caller has the mutex: it returns when no thread runs, or sleeps again. -/
def recheck (caller : ι) : Option (Helper ι) :=
  if caller ∈ helper.woken then
    if helper.isSubThreadRunning then
      some { helper with
        woken := helper.woken.erase caller, waiting := caller :: helper.waiting }
    else
      some { helper with
        woken := helper.woken.erase caller, stopped := caller :: helper.stopped }
  else none

def step : Action ι → Option (Helper ι)
  | .startSubThread hasTask => some (helper.startSubThread hasTask)
  | .beginTask place => helper.beginTask place
  | .task place again => helper.task place again
  | .wake place => helper.wake place
  | .timeout place => helper.timeout place
  | .leave place notified => helper.leave place notified
  | .stopSubThread caller => helper.stopSubThread caller
  | .drowse caller => helper.drowse caller
  | .recheck caller => helper.recheck caller

/-- The turns that are due. -/
def due : Nat :=
  helper.subThreads.count .due

end Helper

def machine (ι : Type) [DecidableEq ι] : Machine (Helper ι) (Action ι) where
  init helper := helper = {}
  step helper action := helper.step action

/-! There is one sub-thread while the helper says that one runs, and it does not sleep
over its flag. -/

def Sound (helper : Helper ι) : Prop :=
  match helper.isSubThreadRunning with
  | false => helper.subThreads = []
  | true => ∃ subThread, helper.subThreads = [subThread] ∧
      (helper.shouldSubThreadExit = true → subThread ≠ .asleep false)

theorem Sound.nil {helper : Helper ι} (hsound : Sound helper)
    (hrunning : helper.isSubThreadRunning = false) : helper.subThreads = [] := by
  rw [Sound, hrunning] at hsound
  exact hsound

theorem Sound.alone {helper : Helper ι} (hsound : Sound helper)
    (hrunning : helper.isSubThreadRunning = true) :
    ∃ subThread, helper.subThreads = [subThread] ∧
      (helper.shouldSubThreadExit = true → subThread ≠ .asleep false) := by
  rw [Sound, hrunning] at hsound
  exact hsound

theorem sound_of_alone {helper : Helper ι} {subThread : SubThread}
    (hrunning : helper.isSubThreadRunning = true)
    (hthreads : helper.subThreads = [subThread])
    (hawake : helper.shouldSubThreadExit = true → subThread ≠ .asleep false) :
    Sound helper := by
  rw [Sound, hrunning]
  exact ⟨subThread, hthreads, hawake⟩

/-- A thread that is found is the only one. -/
theorem Sound.found {helper : Helper ι} (hsound : Sound helper) {place : Nat}
    {subThread : SubThread} (hfound : helper.subThreads[place]? = some subThread) :
    helper.isSubThreadRunning = true ∧ place = 0 ∧ helper.subThreads = [subThread] := by
  cases hrunning : helper.isSubThreadRunning with
  | false =>
      rw [hsound.nil hrunning] at hfound
      cases hfound
  | true =>
      obtain ⟨only, hthreads, _⟩ := hsound.alone hrunning
      rw [hthreads] at hfound
      obtain ⟨hplace, honly⟩ := List.getElem?_eq_some_iff.mp hfound
      rw [List.length_singleton, Nat.lt_one_iff] at hplace
      subst hplace
      rw [hthreads, ← honly]
      exact ⟨rfl, rfl, rfl⟩

section Steps

variable {helper next : Helper ι}

/-! What a step can do to a sound helper. -/

theorem checkExit_awake (hexit : helper.shouldSubThreadExit = true) :
    helper.checkExit ≠ .asleep false := by
  rw [Helper.checkExit, if_pos hexit]
  exact nofun

theorem beginTask_cases (hsound : Sound helper) {place : Nat}
    (hstep : helper.beginTask place = some next) :
    helper.isSubThreadRunning = true ∧ helper.subThreads = [.due] ∧
      next = { helper with subThreads := [.working], turns := helper.turns + 1 } := by
  rw [Helper.beginTask] at hstep
  split at hstep
  · next hfound =>
      obtain ⟨hrunning, rfl, hthreads⟩ := hsound.found hfound
      cases hstep
      refine ⟨hrunning, hthreads, ?_⟩
      rw [Helper.setSubThread, hthreads]
      rfl
  · cases hstep

theorem task_cases (hsound : Sound helper) {place : Nat} {again : Bool}
    (hstep : helper.task place again = some next) :
    helper.isSubThreadRunning = true ∧ helper.subThreads = [.working] ∧
      next = { helper with
        subThreads := [if again then helper.checkExit else .leaving] } := by
  rw [Helper.task] at hstep
  split at hstep
  · next hfound =>
      obtain ⟨hrunning, rfl, hthreads⟩ := hsound.found hfound
      cases hstep
      refine ⟨hrunning, hthreads, ?_⟩
      rw [Helper.setSubThread, hthreads]
      rfl
  · cases hstep

theorem wake_cases (hsound : Sound helper) {place : Nat}
    (hstep : helper.wake place = some next) :
    helper.isSubThreadRunning = true ∧
      (∃ notified, helper.subThreads = [.asleep notified]) ∧
      next = { helper with subThreads := [helper.checkExit] } := by
  rw [Helper.wake] at hstep
  split at hstep
  · next hfound =>
      obtain ⟨hrunning, rfl, hthreads⟩ := hsound.found hfound
      cases hstep
      refine ⟨hrunning, ⟨_, hthreads⟩, ?_⟩
      rw [Helper.setSubThread, hthreads]
      rfl
  · cases hstep

theorem timeout_cases (hsound : Sound helper) {place : Nat}
    (hstep : helper.timeout place = some next) :
    helper.isSubThreadRunning = true ∧
      (∃ notified, helper.subThreads = [.asleep notified]) ∧
      next = if helper.shouldSubThreadExit then { helper with subThreads := [.leaving] }
        else { helper with subThreads := [.due] } := by
  rw [Helper.timeout] at hstep
  split at hstep
  · next hfound =>
      obtain ⟨hrunning, rfl, hthreads⟩ := hsound.found hfound
      refine ⟨hrunning, ⟨_, hthreads⟩, ?_⟩
      by_cases hexit : helper.shouldSubThreadExit = true
      · rw [if_pos hexit] at hstep ⊢
        cases hstep
        rw [Helper.setSubThread, hthreads]
        rfl
      · rw [if_neg hexit] at hstep ⊢
        cases hstep
        rw [Helper.setSubThread, hthreads]
        rfl
  · cases hstep

/-- A notification moves one caller at most, and one if there is any. -/
structure Notifies (helper next : Helper ι) : Prop where
  shouldSubThreadExit : next.shouldSubThreadExit = helper.shouldSubThreadExit
  isSubThreadRunning : next.isSubThreadRunning = helper.isSubThreadRunning
  subThreads : next.subThreads = helper.subThreads
  starts : next.starts = helper.starts
  turns : next.turns = helper.turns
  stopped : next.stopped = helper.stopped
  callers : (next.waiting = [] ∧ helper.waiting = [] ∧ next.woken = helper.woken) ∨
    (next.waiting.length + 1 = helper.waiting.length ∧
      next.woken.length = helper.woken.length + 1)

theorem notifyTask_awake (subThread : SubThread) :
    ∃ notified, Helper.notifyTask [subThread] = [notified] ∧ notified ≠ .asleep false ∧
      (notified = .due ↔ subThread = .due) := by
  cases subThread with
  | due => exact ⟨_, rfl, nofun, Iff.rfl⟩
  | working => exact ⟨_, rfl, nofun, Iff.rfl⟩
  | asleep notified => exact ⟨_, rfl, nofun, by decide +revert⟩
  | leaving => exact ⟨_, rfl, nofun, Iff.rfl⟩

variable [DecidableEq ι]

theorem notifyFinished_cases {notified : Option ι}
    (hstep : helper.notifyFinished notified = some next) : Notifies helper next := by
  cases notified with
  | none =>
      rw [Helper.notifyFinished] at hstep
      split at hstep
      · next hnone =>
          cases hstep
          exact ⟨rfl, rfl, rfl, rfl, rfl, rfl, .inl ⟨hnone, hnone, rfl⟩⟩
      · cases hstep
  | some caller =>
      rw [Helper.notifyFinished] at hstep
      split at hstep
      · next hmem =>
          cases hstep
          refine ⟨rfl, rfl, rfl, rfl, rfl, rfl, .inr ⟨?_, rfl⟩⟩
          have hpos := List.length_pos_of_mem hmem
          rw [List.length_erase_of_mem hmem]
          omega
      · cases hstep

theorem leave_cases (hsound : Sound helper) {place : Nat} {notified : Option ι}
    (hstep : helper.leave place notified = some next) :
    helper.isSubThreadRunning = true ∧ helper.subThreads = [.leaving] ∧
      Notifies { helper with isSubThreadRunning := false, subThreads := [] } next := by
  rw [Helper.leave] at hstep
  split at hstep
  · next hfound =>
      obtain ⟨hrunning, rfl, hthreads⟩ := hsound.found hfound
      rw [hthreads] at hstep
      exact ⟨hrunning, hthreads, notifyFinished_cases hstep⟩
  · cases hstep

theorem sound_step (hsound : Sound helper) {action : Action ι}
    (hstep : helper.step action = some next) : Sound next := by
  cases action with
  | startSubThread hasTask =>
      cases hstep
      rw [Helper.startSubThread]
      split
      · exact hsound
      · next hidle =>
          rw [Bool.or_eq_true, not_or, Bool.not_eq_true, Bool.not_eq_true] at hidle
          have hthreads : helper.subThreads ++ [SubThread.due] = [SubThread.due] := by
            rw [hsound.nil hidle.2]
            rfl
          exact sound_of_alone rfl hthreads nofun
  | beginTask place =>
      obtain ⟨hrunning, _, rfl⟩ := beginTask_cases hsound hstep
      exact sound_of_alone hrunning rfl nofun
  | task place again =>
      obtain ⟨hrunning, _, rfl⟩ := task_cases hsound hstep
      refine sound_of_alone hrunning rfl ?_
      intro hexit
      cases again with
      | true => exact checkExit_awake hexit
      | false => exact nofun
  | wake place =>
      obtain ⟨hrunning, _, rfl⟩ := wake_cases hsound hstep
      exact sound_of_alone hrunning rfl checkExit_awake
  | timeout place =>
      obtain ⟨hrunning, _, rfl⟩ := timeout_cases hsound hstep
      split
      · exact sound_of_alone hrunning rfl nofun
      · exact sound_of_alone hrunning rfl nofun
  | leave place notified =>
      obtain ⟨_, _, hnotifies⟩ := leave_cases hsound hstep
      rw [Sound, hnotifies.isSubThreadRunning]
      exact hnotifies.subThreads
  | stopSubThread caller =>
      rw [Helper.step, Helper.stopSubThread] at hstep
      split at hstep
      · cases hstep
      · split at hstep
        · next hrunning =>
            cases hstep
            obtain ⟨subThread, hthreads, _⟩ := hsound.alone hrunning
            obtain ⟨notified, hnotified, hawake, _⟩ := notifyTask_awake subThread
            refine sound_of_alone hrunning ?_ fun _ => hawake
            rw [hthreads]
            exact hnotified
        · cases hstep
          exact hsound
  | drowse caller =>
      rw [Helper.step, Helper.drowse] at hstep
      split at hstep
      · cases hstep
        exact hsound
      · cases hstep
  | recheck caller =>
      rw [Helper.step, Helper.recheck] at hstep
      split at hstep
      · split at hstep
        · cases hstep
          exact hsound
        · cases hstep
          exact hsound
      · cases hstep

theorem sound_of_reachable (hreach : (machine ι).Reachable helper) : Sound helper :=
  (machine ι).invariant_of_step (motive := Sound)
    (fun state hinit => by
      have hempty : state = {} := hinit
      rw [hempty]
      rfl)
    (fun _ _ _ hsound hstep => sound_step hsound hstep) hreach

/-! Behind a stop no turn begins but the one that was due. -/

omit [DecidableEq ι] in
theorem checkExit_ne_due : helper.checkExit ≠ .due := by
  rw [Helper.checkExit]
  split
  · exact nofun
  · exact nofun

omit [DecidableEq ι] in
theorem due_alone {subThread : SubThread} (hthreads : helper.subThreads = [subThread]) :
    helper.due = if subThread = .due then 1 else 0 := by
  rw [Helper.due, hthreads, List.count_singleton]
  cases subThread with
  | due => rfl
  | working => rfl
  | asleep notified => rfl
  | leaving => rfl

omit [DecidableEq ι] in
theorem due_notifyTask {caller : ι} (hsound : Sound helper)
    (hrunning : helper.isSubThreadRunning = true) :
    ({ helper with
      shouldSubThreadExit := true
      subThreads := Helper.notifyTask helper.subThreads
      waiting := caller :: helper.waiting } : Helper ι).due = helper.due := by
  obtain ⟨subThread, hthreads, _⟩ := hsound.alone hrunning
  obtain ⟨notified, hnotified, _, hdue⟩ := notifyTask_awake subThread
  rw [due_alone hthreads, due_alone (hthreads ▸ hnotified)]
  simp only [hdue]

/-- Unless a thread has been started since, the turns that have begun were due, and a
thread that still runs has its flag set. -/
structure Stopping (start helper : Helper ι) : Prop where
  sound : Sound helper
  starts : start.starts ≤ helper.starts
  quiet : helper.starts = start.starts →
    helper.turns + helper.due = start.turns + start.due ∧
      (helper.isSubThreadRunning = true → helper.shouldSubThreadExit = true)

omit [DecidableEq ι] in
theorem Stopping.of_eq {start : Helper ι} (hstopping : Stopping start helper)
    (hsound : Sound next) (hstarts : next.starts = helper.starts)
    (hturns : next.turns + next.due = helper.turns + helper.due)
    (hexit : next.isSubThreadRunning = true → helper.isSubThreadRunning = true ∧
      (helper.shouldSubThreadExit = true → next.shouldSubThreadExit = true)) :
    Stopping start next := by
  refine ⟨hsound, hstarts ▸ hstopping.starts, ?_⟩
  intro hsame
  obtain ⟨hquiet, hflag⟩ := hstopping.quiet (hstarts ▸ hsame)
  refine ⟨hturns.trans hquiet, ?_⟩
  intro hrunning
  obtain ⟨hran, hkept⟩ := hexit hrunning
  exact hkept (hflag hran)

omit [DecidableEq ι] in
/-- A step of the thread that neither makes a turn due nor begins one. -/
theorem Stopping.of_thread {start : Helper ι} (hstopping : Stopping start helper)
    {before after : SubThread} (hthreads : helper.subThreads = [before])
    (hbefore : before ≠ .due) (hafter : after ≠ .due)
    (hsound : Sound { helper with subThreads := [after] }) :
    Stopping start { helper with subThreads := [after] } := by
  refine hstopping.of_eq hsound rfl ?_ fun hrunning => ⟨hrunning, id⟩
  rw [due_alone hthreads, due_alone rfl, if_neg hbefore, if_neg hafter]

theorem stopping_step {start : Helper ι} (hstopping : Stopping start helper)
    {action : Action ι} (hstep : helper.step action = some next) : Stopping start next := by
  have hsound := hstopping.sound
  have hnext := sound_step hsound hstep
  cases action with
  | startSubThread hasTask =>
      cases hstep
      rw [Helper.startSubThread] at hnext ⊢
      split
      · exact hstopping
      · next hidle =>
          rw [if_neg hidle] at hnext
          have hstarts := hstopping.starts
          refine ⟨hnext, Nat.le_succ_of_le hstarts, ?_⟩
          intro hsame
          have hsame : helper.starts + 1 = start.starts := hsame
          omega
  | beginTask place =>
      obtain ⟨_, hthreads, rfl⟩ := beginTask_cases hsound hstep
      refine hstopping.of_eq hnext rfl ?_ fun hrunning => ⟨hrunning, id⟩
      rw [due_alone hthreads, due_alone rfl]
      rfl
  | task place again =>
      obtain ⟨_, hthreads, rfl⟩ := task_cases hsound hstep
      refine hstopping.of_thread hthreads nofun ?_ hnext
      cases again with
      | true => exact checkExit_ne_due
      | false => exact nofun
  | wake place =>
      obtain ⟨_, ⟨notified, hthreads⟩, rfl⟩ := wake_cases hsound hstep
      exact hstopping.of_thread hthreads nofun checkExit_ne_due hnext
  | timeout place =>
      obtain ⟨hrunning, ⟨notified, hthreads⟩, rfl⟩ := timeout_cases hsound hstep
      by_cases hexit : helper.shouldSubThreadExit = true
      · rw [if_pos hexit] at hnext ⊢
        exact hstopping.of_thread hthreads nofun nofun hnext
      · rw [if_neg hexit] at hnext ⊢
        refine ⟨hnext, hstopping.starts, ?_⟩
        intro hsame
        exact absurd ((hstopping.quiet hsame).2 hrunning) hexit
  | leave place notified =>
      obtain ⟨_, hthreads, hnotifies⟩ := leave_cases hsound hstep
      refine hstopping.of_eq hnext hnotifies.starts ?_ ?_
      · rw [hnotifies.turns, due_alone hthreads, Helper.due, hnotifies.subThreads]
        rfl
      · intro hrunning
        rw [hnotifies.isSubThreadRunning] at hrunning
        cases hrunning
  | stopSubThread caller =>
      rw [Helper.step, Helper.stopSubThread] at hstep
      split at hstep
      · cases hstep
      · split at hstep
        · next hrunning =>
            cases hstep
            exact hstopping.of_eq hnext rfl
              (congrArg (helper.turns + ·) (due_notifyTask hsound hrunning))
              fun _ => ⟨hrunning, fun _ => rfl⟩
        · cases hstep
          exact hstopping
  | drowse caller =>
      rw [Helper.step, Helper.drowse] at hstep
      split at hstep
      · cases hstep
        exact hstopping.of_eq hnext rfl rfl fun hrunning => ⟨hrunning, id⟩
      · cases hstep
  | recheck caller =>
      rw [Helper.step, Helper.recheck] at hstep
      split at hstep
      · split at hstep
        · cases hstep
          exact hstopping.of_eq hnext rfl rfl fun hrunning => ⟨hrunning, id⟩
        · cases hstep
          exact hstopping.of_eq hnext rfl rfl fun hrunning => ⟨hrunning, id⟩
      · cases hstep

theorem stopping_run {start : Helper ι} (hstopping : Stopping start helper)
    {actions : List (Action ι)} {final : Helper ι}
    (hrun : (machine ι).run helper actions = some final) : Stopping start final :=
  (machine ι).run_induction (motive := fun _ state => Stopping start state) hstopping
    (fun _ _ _ _ _ hstate hstep => stopping_step hstate hstep) hrun

/-- A stop that finds a thread notifies it and makes no turn due. -/
theorem stopSubThread_stopping (hsound : Sound helper)
    (hrunning : helper.isSubThreadRunning = true) {caller : ι}
    (hstop : helper.stopSubThread caller = some next) :
    Stopping next next ∧ next.turns + next.due = helper.turns + helper.due := by
  have hstep : helper.step (.stopSubThread caller) = some next := hstop
  have hnext : Sound next := sound_step hsound hstep
  rw [Helper.stopSubThread, if_pos hrunning] at hstop
  split at hstop
  · cases hstop
  · cases hstop
    exact ⟨⟨hnext, Nat.le_refl _, fun _ => ⟨rfl, fun _ => rfl⟩⟩,
      congrArg (helper.turns + ·) (due_notifyTask hsound hrunning)⟩

/-- In every reachable state there is one sub-thread at most and none when the helper says
so, a stop returns only when there is none, and behind it no turn begins until a thread is
started again, except the one that may have been due. -/
theorem sub_thread_is_alone (hreach : (machine ι).Reachable helper) :
    helper.subThreads.length = (if helper.isSubThreadRunning then 1 else 0) ∧
      (∀ caller returned, helper.recheck caller = some returned →
        returned.stopped ≠ helper.stopped → helper.subThreads = []) ∧
      ∀ caller stopped actions final, helper.isSubThreadRunning = true →
        helper.stopSubThread caller = some stopped →
        (machine ι).run stopped actions = some final → final.starts = stopped.starts →
          final.turns + final.due = helper.turns + helper.due := by
  have hsound := sound_of_reachable hreach
  refine ⟨?_, ?_, ?_⟩
  · cases hrunning : helper.isSubThreadRunning with
    | false => rw [hsound.nil hrunning]; rfl
    | true =>
        obtain ⟨subThread, hthreads, _⟩ := hsound.alone hrunning
        rw [hthreads]
        rfl
  · intro caller returned hstep hreturns
    rw [Helper.recheck] at hstep
    split at hstep
    · split at hstep
      · cases hstep
        exact absurd rfl hreturns
      · next hidle => exact hsound.nil (Bool.eq_false_iff.mpr hidle)
    · cases hstep
  · intro caller stopped actions final hrunning hstop hrun hstarts
    obtain ⟨hstopping, hturns⟩ := stopSubThread_stopping hsound hrunning hstop
    rw [((stopping_run hstopping hrun).quiet hstarts).1, hturns]

/-! What the callers of a stop can expect. -/

/-- The steps that the helper and the callers in it take by themselves. -/
def Own (helper : Helper ι) : Action ι → Prop
  | .beginTask _ => True
  | .task _ _ => True
  | .wake place => helper.subThreads[place]? = some (.asleep true)
  | .timeout _ => True
  | .leave _ _ => True
  | .recheck _ => True
  | .startSubThread _ => False
  | .stopSubThread _ => False
  | .drowse _ => False

/-- A thread that leaves wakes a caller, who has a step to take then. -/
def rank : SubThread → Nat
  | .due => 4
  | .working => 3
  | .asleep _ => 3
  | .leaving => 2

theorem rank_le (subThread : SubThread) : rank subThread ≤ 4 := by
  cases subThread with
  | due => exact Nat.le_refl 4
  | working => exact Nat.le_succ 3
  | asleep notified => exact Nat.le_succ 3
  | leaving => exact Nat.le_add_right 2 2

theorem rank_leaving_lt {subThread : SubThread} (hstays : subThread ≠ .leaving) :
    rank .leaving < rank subThread := by
  cases subThread with
  | due => exact Nat.lt_add_of_pos_right Nat.zero_lt_two
  | working => exact Nat.lt_succ_self 2
  | asleep notified => exact Nat.lt_succ_self 2
  | leaving => exact absurd rfl hstays

/-- How many steps are left at most when the flag is set. -/
def stepsLeft (helper : Helper ι) : Nat :=
  (helper.subThreads.map rank).sum + helper.woken.length

/-- While the thread runs, nobody has returned; when it has gone, one caller more than
those that were awake has returned or can at most, and one at least. -/
structure Settling (start helper : Helper ι) : Prop where
  sound : Sound helper
  exit : helper.isSubThreadRunning = true → helper.shouldSubThreadExit = true
  callers : helper.stopped.length + helper.waiting.length + helper.woken.length =
    start.stopped.length + start.waiting.length + start.woken.length
  running : helper.isSubThreadRunning = true →
    helper.stopped.length = start.stopped.length ∧
      helper.woken.length ≤ start.woken.length
  left : helper.isSubThreadRunning = false →
    start.stopped.length < helper.stopped.length + helper.woken.length ∧
      helper.stopped.length + helper.woken.length ≤
        start.stopped.length + start.woken.length + 1

omit [DecidableEq ι] in
theorem stepsLeft_alone {subThread : SubThread} (hthreads : helper.subThreads = [subThread]) :
    stepsLeft helper = rank subThread + helper.woken.length := by
  rw [stepsLeft, hthreads, List.map_singleton, List.sum_singleton]

omit [DecidableEq ι] in
/-- A step of the thread that keeps it running. -/
theorem Settling.of_thread {start : Helper ι} (hsettling : Settling start helper)
    (hrunning : helper.isSubThreadRunning = true) {before after : SubThread}
    (hthreads : helper.subThreads = [before]) (hrank : rank after < rank before) (turns : Nat)
    (hsound : Sound { helper with subThreads := [after], turns }) :
    Settling start { helper with subThreads := [after], turns } ∧
      stepsLeft { helper with subThreads := [after], turns } < stepsLeft helper := by
  refine ⟨⟨hsound, hsettling.exit, hsettling.callers, hsettling.running, ?_⟩, ?_⟩
  · intro hgone
    exact absurd (hrunning.symm.trans hgone) nofun
  · rw [stepsLeft_alone rfl, stepsLeft_alone hthreads]
    exact Nat.add_lt_add_right hrank _

omit [DecidableEq ι] in
/-- The end of the thread wakes a caller. -/
theorem Settling.of_leave {start : Helper ι} (hsettling : Settling start helper)
    (hcallers : 0 < start.waiting.length + start.woken.length)
    (hrunning : helper.isSubThreadRunning = true) (hthreads : helper.subThreads = [.leaving])
    (hnotifies : Notifies { helper with isSubThreadRunning := false, subThreads := [] } next)
    (hsound : Sound next) :
    Settling start next ∧ stepsLeft next < stepsLeft helper := by
  obtain ⟨hstopped, hwoken⟩ := hsettling.running hrunning
  have htotal := hsettling.callers
  have hgone := hnotifies.isSubThreadRunning
  have hsame : next.stopped.length = helper.stopped.length :=
    congrArg List.length hnotifies.stopped
  have hleft : stepsLeft next = next.woken.length := by
    rw [stepsLeft, hnotifies.subThreads, List.map_nil, List.sum_nil, Nat.zero_add]
  have hbefore := stepsLeft_alone hthreads
  rw [rank] at hbefore
  have hmoved : next.waiting.length + next.woken.length =
      helper.waiting.length + helper.woken.length ∧
        next.woken.length ≤ helper.woken.length + 1 ∧ 0 < next.woken.length := by
    rcases hnotifies.callers with ⟨hnext, hwaiting, hsame⟩ | ⟨hwaiting, hgrown⟩
    · have hnone : helper.waiting = [] := hwaiting
      have hkept : next.woken = helper.woken := hsame
      rw [hnext, hnone, hkept]
      rw [hnone, List.length_nil] at htotal
      rw [List.length_nil]
      omega
    · have hwaiting : next.waiting.length + 1 = helper.waiting.length := hwaiting
      have hgrown : next.woken.length = helper.woken.length + 1 := hgrown
      omega
  refine ⟨⟨hsound, ?_, by omega, ?_, by omega⟩, by omega⟩
  · intro hruns
    exact absurd (hruns.symm.trans hgone) nofun
  · intro hruns
    exact absurd (hruns.symm.trans hgone) nofun

/-- A caller that is awake sleeps again while the thread runs, and returns otherwise. -/
theorem Settling.of_recheck {start : Helper ι} (hsettling : Settling start helper)
    {caller : ι} (hrecheck : helper.recheck caller = some next) (hsound : Sound next) :
    Settling start next ∧ stepsLeft next < stepsLeft helper := by
  have htotal := hsettling.callers
  rw [Helper.recheck] at hrecheck
  split at hrecheck
  · next hmem =>
      have hpos := List.length_pos_of_mem hmem
      have hlength := List.length_erase_of_mem hmem
      split at hrecheck
      · next hrunning =>
          obtain ⟨hstopped, hwoken⟩ := hsettling.running hrunning
          cases hrecheck
          refine ⟨⟨hsound, hsettling.exit, ?_, fun _ => ⟨hstopped, ?_⟩, ?_⟩, ?_⟩
          · rw [List.length_cons, hlength]
            dsimp only
            omega
          · rw [hlength]
            omega
          · intro hgone
            exact absurd (hrunning.symm.trans hgone) nofun
          · rw [stepsLeft, stepsLeft, hlength]
            dsimp only
            omega
      · next hidle =>
          have hgone := Bool.eq_false_iff.mpr hidle
          obtain ⟨hlow, hhigh⟩ := hsettling.left hgone
          cases hrecheck
          refine ⟨⟨hsound, hsettling.exit, ?_, ?_, fun _ => ?_⟩, ?_⟩
          · rw [List.length_cons, hlength]
            dsimp only
            omega
          · intro hruns
            exact absurd hruns hidle
          · rw [List.length_cons, hlength]
            omega
          · rw [stepsLeft, stepsLeft, hlength]
            dsimp only
            omega
  · cases hrecheck

theorem settling_step {start : Helper ι}
    (hcallers : 0 < start.waiting.length + start.woken.length)
    (hsettling : Settling start helper) {action : Action ι} (hown : Own helper action)
    (hstep : helper.step action = some next) :
    Settling start next ∧ stepsLeft next < stepsLeft helper := by
  have hsound := hsettling.sound
  have hnext := sound_step hsound hstep
  cases action with
  | startSubThread hasTask => exact hown.elim
  | beginTask place =>
      obtain ⟨hrunning, hthreads, rfl⟩ := beginTask_cases hsound hstep
      have hless : rank .working < rank .due := Nat.lt_succ_self 3
      exact hsettling.of_thread hrunning hthreads hless _ hnext
  | task place again =>
      obtain ⟨hrunning, hthreads, rfl⟩ := task_cases hsound hstep
      have hleaving : (if again then helper.checkExit else .leaving) = .leaving := by
        rw [Helper.checkExit, if_pos (hsettling.exit hrunning), ite_self]
      rw [hleaving] at hnext ⊢
      exact hsettling.of_thread hrunning hthreads (rank_leaving_lt nofun) _ hnext
  | wake place =>
      obtain ⟨hrunning, ⟨notified, hthreads⟩, rfl⟩ := wake_cases hsound hstep
      have hleaving : helper.checkExit = .leaving := by
        rw [Helper.checkExit, if_pos (hsettling.exit hrunning)]
      rw [hleaving] at hnext ⊢
      exact hsettling.of_thread hrunning hthreads (rank_leaving_lt nofun) _ hnext
  | timeout place =>
      obtain ⟨hrunning, ⟨notified, hthreads⟩, rfl⟩ := timeout_cases hsound hstep
      rw [if_pos (hsettling.exit hrunning)] at hnext ⊢
      exact hsettling.of_thread hrunning hthreads (rank_leaving_lt nofun) _ hnext
  | leave place notified =>
      obtain ⟨hrunning, hthreads, hnotifies⟩ := leave_cases hsound hstep
      exact hsettling.of_leave hcallers hrunning hthreads hnotifies hnext
  | stopSubThread caller => exact hown.elim
  | drowse caller => exact hown.elim
  | recheck caller => exact hsettling.of_recheck hstep hnext

/-- Nothing more happens by itself: the thread has gone and no caller is awake. -/
theorem settled_cases (hsound : Sound helper)
    (hsettled : ∀ action, Own helper action → helper.step action = none) :
    helper.isSubThreadRunning = false ∧ helper.woken = [] := by
  constructor
  · by_contra hrunning
    rw [Bool.not_eq_false] at hrunning
    obtain ⟨subThread, hthreads, _⟩ := hsound.alone hrunning
    have hfound : helper.subThreads[0]? = some subThread := by
      rw [hthreads]
      rfl
    cases subThread with
    | due =>
        have hbegin := hsettled (.beginTask 0) trivial
        rw [Helper.step, Helper.beginTask, hfound] at hbegin
        cases hbegin
    | working =>
        have htask := hsettled (.task 0 false) trivial
        rw [Helper.step, Helper.task, hfound] at htask
        cases htask
    | asleep notified =>
        have htimeout := hsettled (.timeout 0) trivial
        rw [Helper.step, Helper.timeout, hfound] at htimeout
        dsimp only at htimeout
        split at htimeout
        · cases htimeout
        · cases htimeout
    | leaving =>
        have hleave := hsettled (.leave 0 helper.waiting.head?) trivial
        rw [Helper.step, Helper.leave, hfound] at hleave
        dsimp only at hleave
        cases hwaiting : helper.waiting with
        | nil =>
            rw [hwaiting] at hleave
            simp [Helper.notifyFinished] at hleave
        | cons caller rest =>
            rw [hwaiting] at hleave
            simp [Helper.notifyFinished] at hleave
  · rw [List.eq_nil_iff_forall_not_mem]
    intro caller hmem
    have hrecheck := hsettled (.recheck caller) trivial
    rw [Helper.step, Helper.recheck, if_pos hmem] at hrecheck
    split at hrecheck
    · cases hrecheck
    · cases hrecheck

/-- Behind a stop, and without a start or another call, the helper comes to rest after a
few steps.  Then the thread has gone; one caller at least has returned, and of those that
slept all the time not more than one, since only one is notified. -/
theorem one_sleeping_caller_returns (hreach : (machine ι).Reachable helper)
    (hrunning : helper.isSubThreadRunning = true)
    (hexit : helper.shouldSubThreadExit = true)
    (hcallers : 0 < helper.waiting.length + helper.woken.length)
    {actions : List (Action ι)} {final : Helper ι}
    (hown : (machine ι).Obeys Own helper actions)
    (hrun : (machine ι).run helper actions = some final) :
    actions.length ≤ 4 + helper.woken.length ∧
      ((∀ action, Own final action → final.step action = none) →
        final.subThreads = [] ∧ final.woken = [] ∧
        final.stopped.length + final.waiting.length =
          helper.stopped.length + helper.waiting.length + helper.woken.length ∧
        helper.stopped.length < final.stopped.length ∧
        final.stopped.length ≤ helper.stopped.length + helper.woken.length + 1) := by
  have hsound := sound_of_reachable hreach
  have hstart : Settling helper helper :=
    ⟨hsound, fun _ => hexit, rfl, fun _ => ⟨rfl, Nat.le_refl _⟩,
      fun hgone => absurd (hrunning.symm.trans hgone) nofun⟩
  constructor
  · obtain ⟨subThread, hthreads, _⟩ := hsound.alone hrunning
    have hlength := (machine ι).length_le_of_decreasing (motive := Settling helper)
      (fun _ _ _ hstate hallowed hstep => settling_step hcallers hstate hallowed hstep)
      hstart hown hrun
    have hleft := stepsLeft_alone hthreads
    have hrank := rank_le subThread
    omega
  · intro hsettled
    have hfinal : Settling helper final := (machine ι).invariant_of_obeys
      (fun _ _ _ hstate hallowed hstep =>
        (settling_step hcallers hstate hallowed hstep).1) hstart hown hrun
    obtain ⟨hgone, hwoken⟩ := settled_cases hfinal.sound hsettled
    have hleft := hfinal.left hgone
    have htotal := hfinal.callers
    rw [hwoken, List.length_nil] at hleft htotal
    exact ⟨hfinal.sound.nil hgone, hwoken, htotal, hleft.1, hleft.2⟩

end Steps

/-- Two callers of a stop while the task works. -/
def twoCallers : Helper Nat where
  shouldSubThreadExit := true
  isSubThreadRunning := true
  subThreads := [.working]
  waiting := [2, 1]
  starts := 1
  turns := 1

theorem twoCallers_reachable : (machine Nat).Reachable twoCallers :=
  ⟨[.startSubThread true, .beginTask 0, .stopSubThread 1, .stopSubThread 2], {}, rfl,
    by decide⟩

/-- A thread whose first turn is due. -/
def justStarted : Helper Nat where
  isSubThreadRunning := true
  subThreads := [.due]
  starts := 1

theorem justStarted_reachable : (machine Nat).Reachable justStarted :=
  ⟨[.startSubThread true], {}, rfl, by decide⟩

/-- The turn that is due at the first stop begins, and none behind the second. -/
theorem sub_thread_is_alone_two_callers :
    let first : Helper Nat := { twoCallers with waiting := [1] }
    let left : Helper Nat :=
      { twoCallers with
        isSubThreadRunning := false, subThreads := [], waiting := [2], woken := [1] }
    (justStarted.subThreads.length = 1 ∧ left.subThreads = []) ∧
      (justStarted.stopSubThread 1).bind ((machine Nat).run · [.beginTask 0]) = some first ∧
      (first.stopSubThread 2).bind
        ((machine Nat).run · [.task 0 true, .leave 0 (some 1)]) = some left ∧
      first.turns + first.due = justStarted.turns + justStarted.due ∧
      left.turns + left.due = first.turns + first.due := by
  intro first left
  obtain ⟨halone, _, hturns⟩ := sub_thread_is_alone justStarted_reachable
  have hfirst : (machine Nat).Reachable first :=
    ⟨[.startSubThread true, .stopSubThread 1, .beginTask 0], {}, rfl, by decide⟩
  have hleft : (machine Nat).Reachable left :=
    ⟨[.startSubThread true, .stopSubThread 1, .beginTask 0, .stopSubThread 2, .task 0 true,
      .leave 0 (some 1)], {}, rfl, by decide⟩
  refine ⟨⟨halone, ?_⟩, by decide, by decide, ?_, ?_⟩
  · exact (sub_thread_is_alone hleft).2.1 1 _ rfl (by decide)
  · exact hturns 1 _ [.beginTask 0] first rfl rfl (by decide) rfl
  · exact (sub_thread_is_alone hfirst).2.2 2 _ [.task 0 true, .leave 0 (some 1)] left rfl rfl
      (by decide) rfl

/-- The first caller returns, the second one is left behind. -/
theorem one_sleeping_caller_returns_two_callers :
    let final : Helper Nat :=
      { twoCallers with
        isSubThreadRunning := false, subThreads := [], waiting := [2], stopped := [1] }
    (machine Nat).run twoCallers [.task 0 true, .leave 0 (some 1), .recheck 1] = some final ∧
      3 ≤ 4 + twoCallers.woken.length ∧
      ((∀ action, Own final action → final.step action = none) →
        final.stopped.length ≤ twoCallers.stopped.length + twoCallers.woken.length + 1) := by
  intro final
  have hrun : (machine Nat).run twoCallers
      [.task 0 true, .leave 0 (some 1), .recheck 1] = some final := by decide
  have hown : (machine Nat).Obeys Own twoCallers
      [.task 0 true, .leave 0 (some 1), .recheck 1] := ⟨trivial, trivial, trivial, trivial⟩
  obtain ⟨hlength, hsettled⟩ := one_sleeping_caller_returns twoCallers_reachable rfl rfl
    (by decide) hown hrun
  exact ⟨hrun, hlength, fun hrest => (hsettled hrest).2.2.2.2⟩

end StoppableThread

end Hitrace
