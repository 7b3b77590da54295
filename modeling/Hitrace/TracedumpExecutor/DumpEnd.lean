import Hitrace.TracedumpExecutor.DumpLoops

namespace Hitrace

open Library TraceDumpExecutor

namespace DumpThreads

variable {isHm : Bool} {process next : DumpThreads} {label : Label}
  {executor : TraceDumpExecutor} {task : TraceDumpTask}

/-! With both loops asleep the monitor answers what is queued and ends the process. -/

/-- No task comes in, both pipes are open, and no thread wakes up for nothing. -/
def Undisturbed : Label → Prop
  | .monitorPass environment => ∀ time, environment.outcome time ≠ .fdInvalid
  | .monitorPoll task => task = none
  | .readDrowse => False
  | .writeDrowse => False
  | _ => True

/-- How many writes to a pipe the task can still take. -/
def patience (task : TraceDumpTask) : Nat :=
  (maxWriteRetry - task.writeRetry) + if task.hasSyncReturn then 0 else 1

def budget : List TraceDumpTask → Nat
  | [] => 0
  | task :: rest => max (patience task + 1) (budget rest)

theorem budget_le {tasks : List TraceDumpTask} {limit : Nat} :
    budget tasks ≤ limit ↔ ∀ task ∈ tasks, patience task + 1 ≤ limit := by
  induction tasks with
  | nil => simp [budget]
  | cons task rest ih =>
      rw [budget, max_le_iff, ih, List.forall_mem_cons]

theorem patience_le (task : TraceDumpTask) : patience task ≤ maxWriteRetry + 1 := by
  rw [patience]
  split <;> omega

theorem patience_failed (hretry : task.writeRetry + 1 < maxWriteRetry)
    (status : TraceDumpStatus) :
    patience { task with status, writeRetry := task.writeRetry + 1 } < patience task := by
  rw [patience, patience]
  dsimp only
  omega

theorem process_open {environment : PassEnvironment} (inner : Processed)
    (hprocess : environment.process task =
      if inner.task.writeRetry ≥ maxWriteRetry then { inner with completed := true } else inner)
    (hopen : (environment.process task).completed = false) :
    environment.process task = inner ∧ inner.task.writeRetry < maxWriteRetry ∧
      inner.completed = false := by
  rw [hprocess] at hopen ⊢
  split at hopen
  · cases hopen
  · next hfew =>
      rw [if_neg hfew]
      exact ⟨rfl, Nat.lt_of_not_le hfew, hopen⟩

theorem processWriteDone_patience {curBootTime : UInt64} {outcome : PipeOutcome}
    (hvalid : outcome ≠ .fdInvalid)
    (hretry : (processWriteDone curBootTime outcome task).task.writeRetry < maxWriteRetry)
    (hopen : (processWriteDone curBootTime outcome task).completed = false) :
    patience (processWriteDone curBootTime outcome task).task < patience task := by
  rw [processWriteDone] at hretry hopen ⊢
  cases hsync : task.hasSyncReturn with
  | true =>
      rw [hsync] at hretry hopen
      cases outcome with
      | fdInvalid => exact absurd rfl hvalid
      | writeFailed => exact patience_failed hretry task.status
      | written => cases hopen
  | false =>
      rw [hsync] at hretry hopen
      cases outcome with
      | fdInvalid => exact absurd rfl hvalid
      | writeFailed => exact patience_failed hretry task.status
      | written => simp [writeReturn, patience, hsync]

theorem processReadFailed_patience {outcome : PipeOutcome} (hvalid : outcome ≠ .fdInvalid)
    (hretry : (processReadFailed outcome task).task.writeRetry < maxWriteRetry)
    (hopen : (processReadFailed outcome task).completed = false) :
    patience (processReadFailed outcome task).task < patience task := by
  cases outcome with
  | fdInvalid => exact absurd rfl hvalid
  | writeFailed => exact patience_failed hretry .writeDone
  | written => cases hopen

/-- A task that stays behind a pass has used up one of its writes. -/
theorem process_patience {environment : PassEnvironment} (hawaits : AwaitsMonitor task)
    (hvalid : environment.outcome task.time ≠ .fdInvalid)
    (hopen : (environment.process task).completed = false) :
    patience (environment.process task).task < patience task := by
  rcases hawaits with hstatus | ⟨hstatus, hcode⟩
  · have hprocess := process_open (processWriteDone (environment.curBootTime task.time)
      (environment.outcome task.time) task)
      (by rw [PassEnvironment.process, doProcessTraceDumpTask, hstatus]) hopen
    rw [hprocess.1]
    exact processWriteDone_patience hvalid hprocess.2.1 hprocess.2.2
  · have hprocess := process_open (processReadFailed (environment.outcome task.time) task)
      (by rw [PassEnvironment.process, doProcessTraceDumpTask, hstatus]
          dsimp only
          rw [processReadDone, if_pos hcode]) hopen
    rw [hprocess.1]
    exact processReadFailed_patience hvalid hprocess.2.1 hprocess.2.2

theorem budget_monitorPass (hprotocol : Protocol executor) {environment : PassEnvironment}
    (hvalid : ∀ time, environment.outcome time ≠ .fdInvalid)
    (hall : ∀ task ∈ executor.traceDumpTaskVec, AwaitsMonitor task) :
    budget (executor.monitorPass environment).traceDumpTaskVec ≤
      budget executor.traceDumpTaskVec - 1 := by
  refine budget_le.mpr fun task hmem => ?_
  obtain ⟨origin, horigin, rfl, hopen⟩ := (mem_monitorPass hprotocol.distinct).mp hmem
  have hless := process_patience (hall origin horigin) (hvalid origin.time) hopen
  have hlimit := budget_le.mp (Nat.le_refl (budget executor.traceDumpTaskVec)) origin horigin
  omega

/-- The rounds the monitor has ahead, when its counter shows `count`. -/
def rounds (process : DumpThreads) (count : Nat) : Nat :=
  budget process.executor.traceDumpTaskVec +
    if process.executor.traceDumpTaskVec = [] then monitorEmptyLoopCount - count
    else monitorEmptyLoopCount

def LoopPoint.ahead : LoopPoint → Nat
  | .check => 1
  | _ => 0

def ahead (process : DumpThreads) : Nat :=
  match process.monitor with
  | .pass => 3 * process.rounds process.loopCnt + 8
  | .test => 3 * process.rounds process.loopCnt + 9
  | .poll => 3 * process.rounds (process.loopCnt + 1) + 10
  | .endRead => 7
  | .endWrite => 6
  | .notifyAll => 5
  | .done => process.readLoop.ahead + process.writeLoop.ahead

theorem rounds_le (process : DumpThreads) (count : Nat) :
    process.rounds count ≤ maxWriteRetry + 2 + monitorEmptyLoopCount := by
  have hbudget : budget process.executor.traceDumpTaskVec ≤ maxWriteRetry + 2 :=
    budget_le.mpr fun task _ => Nat.succ_le_succ (patience_le task)
  rw [rounds]
  split <;> omega

theorem ahead_le (process : DumpThreads) :
    process.ahead ≤ 3 * (maxWriteRetry + 2 + monitorEmptyLoopCount) + 10 := by
  have hrounds := process.rounds_le process.loopCnt
  have hnext := process.rounds_le (process.loopCnt + 1)
  have hpoint : ∀ point : LoopPoint, point.ahead ≤ 1 := by
    intro point
    cases point <;> decide
  have hread := hpoint process.readLoop
  have hwrite := hpoint process.writeLoop
  rw [ahead]
  split <;> omega

/-- Both loops sleep, or the monitor has woken them and they find their flags. -/
structure Draining (process : DumpThreads) : Prop where
  sound : Sound process
  loops : (process.monitor ≠ .done ∧ process.readLoop = .asleep ∧
      process.writeLoop = .asleep) ∨
    (process.monitor = .done ∧
      (process.readLoop = .check ∨ process.readLoop = .done) ∧
      (process.writeLoop = .check ∨ process.writeLoop = .done))

theorem Sound.awaits (hsound : Sound process) (hread : process.readLoop = .asleep)
    (hwrite : process.writeLoop = .asleep) :
    ∀ task ∈ process.executor.traceDumpTaskVec, AwaitsMonitor task := by
  intro task hmem
  have hsettled := (hsound.writeSleeps hwrite).2 (hread ▸ nofun) task hmem
  exact hsettled.resolve_left ((hsound.readSleeps hread).2 task hmem)

theorem Draining.asleep (hdraining : Draining process) {point : MonitorPoint}
    (hpoint : process.monitor = point) (hrunning : point ≠ .done) :
    process.readLoop = .asleep ∧ process.writeLoop = .asleep := by
  rcases hdraining.loops with ⟨_, hasleep⟩ | ⟨hdone, _⟩
  · exact hasleep
  · exact absurd (hpoint.symm.trans hdone) hrunning

/-- No task is left to the writer by the pass. -/
theorem not_waitsForWrite (hall : ∀ task ∈ executor.traceDumpTaskVec, AwaitsMonitor task)
    (environment : PassEnvironment) :
    executor.traceDumpTaskVec.any (waitsForWrite environment) = false := by
  refine List.any_eq_false.mpr fun task hmem hwaits => ?_
  have hstatus := process_awaits environment (hall task hmem)
  exact nomatch hstatus.symm.trans (of_decide_eq_true hwaits).2

theorem Draining.monitorPass (hdraining : Draining process)
    (hpoint : process.monitor = .pass) {environment : PassEnvironment}
    (hvalid : ∀ time, environment.outcome time ≠ .fdInvalid)
    (hstep : ProcessStep isHm process (.monitorPass environment) next)
    (hsound : Sound next) : Draining next ∧ next.ahead < process.ahead := by
  obtain ⟨hread, hwrite⟩ := hdraining.asleep hpoint nofun
  have hall := hdraining.sound.awaits hread hwrite
  have hsilent := not_waitsForWrite hall environment
  have hbudget := budget_monitorPass hdraining.sound.protocol hvalid hall
  have hidle := hdraining.sound.idle hpoint
  cases hstep with
  | monitorPass _ =>
      constructor
      · refine ⟨hsound, .inl ⟨nofun, hread, ?_⟩⟩
        dsimp only
        rw [hsilent]
        exact hwrite
      · simp only [ahead, hpoint, rounds]
        cases hqueue : process.executor.traceDumpTaskVec with
        | nil =>
            have hempty : (process.executor.monitorPass environment).traceDumpTaskVec = [] := by
              simp [TraceDumpExecutor.monitorPass, hqueue]
            have hcount := hidle hqueue
            rw [hempty]
            simp only [if_true, budget]
            omega
        | cons task rest =>
            have hsome : 1 ≤ budget (task :: rest) :=
              le_trans (Nat.succ_le_succ (Nat.zero_le _)) (le_max_left _ _)
            rw [hqueue] at hbudget
            simp only [reduceCtorEq, if_false]
            split <;> omega

/-- A loop that neither sleeps nor has returned has been woken by the end. -/
theorem Draining.readPoint (hdraining : Draining process) {point : LoopPoint}
    (hpoint : process.readLoop = point) (hasleep : point ≠ .asleep) (hdone : point ≠ .done) :
    process.monitor = .done ∧ point = .check := by
  rcases hdraining.loops with ⟨_, hread, _⟩ | ⟨hended, hread, _⟩
  · exact absurd (hpoint.symm.trans hread) hasleep
  · refine ⟨hended, ?_⟩
    rcases hread with hread | hread
    · exact hpoint.symm.trans hread
    · exact absurd (hpoint.symm.trans hread) hdone

theorem Draining.writePoint (hdraining : Draining process) {point : LoopPoint}
    (hpoint : process.writeLoop = point) (hasleep : point ≠ .asleep) (hdone : point ≠ .done) :
    process.monitor = .done ∧ point = .check := by
  rcases hdraining.loops with ⟨_, _, hwrite⟩ | ⟨hended, _, hwrite⟩
  · exact absurd (hpoint.symm.trans hwrite) hasleep
  · refine ⟨hended, ?_⟩
    rcases hwrite with hwrite | hwrite
    · exact hpoint.symm.trans hwrite
    · exact absurd (hpoint.symm.trans hwrite) hdone

/-- A loop that is awake finds its flag down. -/
theorem Draining.readFlag (hdraining : Draining process) (hpoint : process.readLoop = .check) :
    process.asyncReadFlag = false := by
  rw [hdraining.sound.readFlag, (hdraining.readPoint hpoint nofun nofun).1]
  rfl

theorem Draining.writeFlag (hdraining : Draining process)
    (hpoint : process.writeLoop = .check) : process.asyncWriteFlag = false := by
  rw [hdraining.sound.writeFlag, (hdraining.writePoint hpoint nofun nofun).1]
  rfl

theorem Draining.readLeave (hdraining : Draining process) (hpoint : process.readLoop = .check)
    (hsound : Sound { process with readLoop := .done }) :
    Draining { process with readLoop := .done } ∧
      ({ process with readLoop := .done } : DumpThreads).ahead < process.ahead := by
  have hended := (hdraining.readPoint hpoint nofun nofun).1
  refine ⟨⟨hsound, .inr ⟨hended, .inr rfl, ?_⟩⟩, ?_⟩
  · rcases hdraining.loops with ⟨hrunning, _⟩ | ⟨_, _, hwrite⟩
    · exact absurd hended hrunning
    · exact hwrite
  · simp only [ahead, hended, hpoint, LoopPoint.ahead]
    omega

theorem Draining.writeLeave (hdraining : Draining process)
    (hpoint : process.writeLoop = .check) (hsound : Sound { process with writeLoop := .done }) :
    Draining { process with writeLoop := .done } ∧
      ({ process with writeLoop := .done } : DumpThreads).ahead < process.ahead := by
  have hended := (hdraining.writePoint hpoint nofun nofun).1
  refine ⟨⟨hsound, .inr ⟨hended, ?_, .inr rfl⟩⟩, ?_⟩
  · rcases hdraining.loops with ⟨hrunning, _⟩ | ⟨_, hread, _⟩
    · exact absurd hended hrunning
    · exact hread
  · simp only [ahead, hended, hpoint, LoopPoint.ahead]
    omega

theorem Draining.monitorTest (hdraining : Draining process) (hpoint : process.monitor = .test)
    (hstep : ProcessStep isHm process .monitorTest next) (hsound : Sound next) :
    Draining next ∧ next.ahead < process.ahead := by
  have hasleep := hdraining.asleep hpoint nofun
  cases hstep with
  | monitorTest _ =>
      refine ⟨⟨hsound, .inl ⟨?_, hasleep⟩⟩, ?_⟩
      · dsimp only
        split <;> exact nofun
      · by_cases hgoes : process.loopCnt < monitorEmptyLoopCount ∨
            process.executor.traceDumpTaskVec ≠ []
        · simp only [ahead, hpoint, if_pos hgoes, rounds]
          omega
        · simp only [ahead, hpoint, if_neg hgoes]
          omega

theorem Draining.notifyAll (hdraining : Draining process)
    (hpoint : process.monitor = .notifyAll)
    (hstep : ProcessStep isHm process .notifyAll next) (hsound : Sound next) :
    Draining next ∧ next.ahead < process.ahead := by
  obtain ⟨hread, hwrite⟩ := hdraining.asleep hpoint nofun
  cases hstep with
  | notifyAll _ =>
      refine ⟨⟨hsound, .inr ⟨rfl, ?_, ?_⟩⟩, ?_⟩
      · exact .inl (by rw [hread]; rfl)
      · exact .inl (by rw [hwrite]; rfl)
      · simp only [ahead, hpoint, hread, hwrite, LoopPoint.notified, LoopPoint.ahead]
        omega

theorem draining_step (hdraining : Draining process) (hallowed : Undisturbed label)
    (hstep : process.step isHm label = some next) :
    Draining next ∧ next.ahead < process.ahead := by
  have hsound := sound_step hdraining.sound hstep
  have hprocess := processStep_of_step hstep
  cases hprocess with
  | readTop hpoint => exact nomatch (hdraining.readPoint hpoint nofun nofun).2
  | readSleep hpoint hflag _ => exact nomatch (hdraining.readFlag hpoint).symm.trans hflag
  | readTake hpoint hflag _ => exact nomatch (hdraining.readFlag hpoint).symm.trans hflag
  | readLeave hpoint _ => exact hdraining.readLeave hpoint hsound
  | readWork hpoint _ => exact nomatch (hdraining.readPoint hpoint nofun nofun).2
  | readNotify hpoint => exact nomatch (hdraining.readPoint hpoint nofun nofun).2
  | readDrowse _ => exact hallowed.elim
  | writeTop hpoint => exact nomatch (hdraining.writePoint hpoint nofun nofun).2
  | writeSleep hpoint hflag _ => exact nomatch (hdraining.writeFlag hpoint).symm.trans hflag
  | writeTake hpoint hflag _ => exact nomatch (hdraining.writeFlag hpoint).symm.trans hflag
  | writeLeave hpoint _ => exact hdraining.writeLeave hpoint hsound
  | writeWork hpoint _ => exact nomatch (hdraining.writePoint hpoint nofun nofun).2
  | writeDrowse _ => exact hallowed.elim
  | monitorPass hpoint environment =>
      exact hdraining.monitorPass hpoint hallowed (processStep_of_step hstep) hsound
  | pollNone hpoint =>
      refine ⟨⟨hsound, .inl ⟨nofun, hdraining.asleep hpoint nofun⟩⟩, ?_⟩
      simp only [ahead, hpoint, rounds]
      omega
  | pollTask _ _ => exact nomatch hallowed
  | monitorTest hpoint =>
      exact hdraining.monitorTest hpoint (processStep_of_step hstep) hsound
  | endAsyncRead hpoint =>
      refine ⟨⟨hsound, .inl ⟨nofun, hdraining.asleep hpoint nofun⟩⟩, ?_⟩
      simp only [ahead, hpoint]
      omega
  | endAsyncWrite hpoint =>
      refine ⟨⟨hsound, .inl ⟨nofun, hdraining.asleep hpoint nofun⟩⟩, ?_⟩
      simp only [ahead, hpoint]
      omega
  | notifyAll hpoint =>
      exact hdraining.notifyAll hpoint (processStep_of_step hstep) hsound

theorem done_of_rest
    (hrest : ∀ label, Undisturbed label → process.step isHm label = none) :
    process.monitor = .done := by
  cases hpoint : process.monitor with
  | pass =>
      have hstep := hrest (.monitorPass ⟨fun _ => 0, fun _ => .written⟩) fun _ => nofun
      exact nomatch (if_pos hpoint).symm.trans hstep
  | poll => exact nomatch (if_pos hpoint).symm.trans (hrest (.monitorPoll none) rfl)
  | test => exact nomatch (if_pos hpoint).symm.trans (hrest .monitorTest trivial)
  | endRead => exact nomatch (if_pos hpoint).symm.trans (hrest .endAsyncRead trivial)
  | endWrite => exact nomatch (if_pos hpoint).symm.trans (hrest .endAsyncWrite trivial)
  | notifyAll => exact nomatch (if_pos hpoint).symm.trans (hrest .notifyAll trivial)
  | done => rfl

theorem rest_of_done (hmonitor : process.monitor = .done) (hread : process.readLoop = .done)
    (hwrite : process.writeLoop = .done) (label : Label) : process.step isHm label = none := by
  cases label with
  | readTop => simp [step, readTop, hread]
  | readCheck => simp [step, readCheck, hread]
  | readWork rootPathEmpty source traceFile => simp [step, readWork, hread]
  | readNotify => simp [step, readNotify, hread]
  | readDrowse => simp [step, readDrowse, hread]
  | writeTop => simp [step, writeTop, hwrite]
  | writeCheck => simp [step, writeCheck, hwrite]
  | writeWork rootPathEmpty contents environment fileSize => simp [step, writeWork, hwrite]
  | writeDrowse => simp [step, writeDrowse, hwrite]
  | monitorPass environment => simp [step, monitorPass, hmonitor]
  | monitorPoll task =>
      cases task with
      | none => simp [step, monitorPoll, hmonitor]
      | some task => simp [step, monitorPoll, hmonitor]
  | monitorTest => simp [step, monitorTest, hmonitor]
  | endAsyncRead => simp [step, endAsyncRead, hmonitor]
  | endAsyncWrite => simp [step, endAsyncWrite, hmonitor]
  | notifyAll => simp [step, notifyAll, hmonitor]

theorem Draining.loops_of_rest (hdraining : Draining process)
    (hdone : process.monitor = .done)
    (hrest : ∀ label, Undisturbed label → process.step isHm label = none) :
    process.readLoop = .done ∧ process.writeLoop = .done := by
  have hreadFlag : process.asyncReadFlag = false := by
    rw [hdraining.sound.readFlag, hdone]
    rfl
  have hwriteFlag : process.asyncWriteFlag = false := by
    rw [hdraining.sound.writeFlag, hdone]
    rfl
  rcases hdraining.loops with ⟨hrunning, _⟩ | ⟨_, hread, hwrite⟩
  · exact absurd hdone hrunning
  · constructor
    · refine hread.resolve_left fun hcheck => ?_
      have hstep := hrest .readCheck trivial
      simp [step, readCheck, hcheck, hreadFlag] at hstep
    · refine hwrite.resolve_left fun hcheck => ?_
      have hstep := hrest .writeCheck trivial
      simp [step, writeCheck, hcheck, hwriteFlag] at hstep

end DumpThreads

open DumpThreads in
/-- From any state in which both loops sleep, and with nothing new and open pipes, the
process ends after a bounded number of steps.  When no thread can go on, all three have
returned and nothing is queued. -/
theorem dump_process_ends {isHm : Bool} {process final : DumpThreads}
    (hreach : (dumpThreads isHm).Reachable process) (hread : process.readLoop = .asleep)
    (hwrite : process.writeLoop = .asleep) {labels : List DumpThreads.Label}
    (hundisturbed : (dumpThreads isHm).Obeys (fun _ => Undisturbed) process labels)
    (hrun : (dumpThreads isHm).run process labels = some final) :
    labels.length ≤
        3 * (TraceDumpExecutor.maxWriteRetry + 2 + monitorEmptyLoopCount) + 10 ∧
      ((∀ label, Undisturbed label → final.step isHm label = none) →
        final.monitor = .done ∧ final.readLoop = .done ∧ final.writeLoop = .done ∧
          final.executor.traceDumpTaskVec = []) := by
  have hsound := sound_of_reachable hreach
  have hstart : Draining process :=
    ⟨hsound, .inl ⟨(hsound.readSleeps hread).1, hread, hwrite⟩⟩
  constructor
  · have hlength := (dumpThreads isHm).length_le_of_decreasing
      (fun _ _ _ hstate hallowed hstep => draining_step hstate hallowed hstep)
      hstart hundisturbed hrun
    have hlimit := process.ahead_le
    omega
  · intro hrest
    have hdraining : Draining final := (dumpThreads isHm).invariant_of_obeys
      (fun _ _ _ hstate hallowed hstep => (draining_step hstate hallowed hstep).1)
      hstart hundisturbed hrun
    have hdone := done_of_rest hrest
    exact ⟨hdone, (hdraining.loops_of_rest hdone hrest).1,
      (hdraining.loops_of_rest hdone hrest).2, hdraining.sound.ended (by rw [hdone]; rfl)⟩

/-! A read that fails while the writer sleeps: the reader leaves the task to the monitor. -/

def unreadTask : TraceDumpTask := { time := 5, fileSizeLimit := 1 }

def failedRead : List DumpThreads.Label :=
  [.readTop, .readCheck, .writeTop, .writeCheck, .monitorPass ⟨fun _ => 0, fun _ => .written⟩,
    .monitorPoll (some unreadTask), .monitorTest, .readCheck,
    .readWork false (.hm ⟨⟨false, []⟩, []⟩) [], .readTop, .readCheck]

/-- Both threads sleep, and the task waits for its answers. -/
def sleepingProcess : DumpThreads where
  executor :=
    { traceDumpTaskVec :=
        [{ unreadTask with fileSize := asyncDumpFileSizeAddition, status := .readDone }]
      submitted := [5]
      reads := [(5, .unset)] }
  readLoop := .asleep
  writeLoop := .asleep
  loopCnt := 1

theorem sleepingProcess_reachable : (dumpThreads true).Reachable sleepingProcess :=
  ⟨failedRead, { executor := {} },
    ⟨⟨List.nodup_nil, fun _ hmem => (nomatch hmem), rfl⟩, rfl⟩, rfl⟩

def DumpThreads.round (outcome : PipeOutcome) : List DumpThreads.Label :=
  [.monitorPass ⟨fun _ => 0, fun _ => outcome⟩, .monitorPoll none, .monitorTest]

theorem DumpThreads.undisturbed_round {outcome : PipeOutcome} (hvalid : outcome ≠ .fdInvalid) :
    ∀ label ∈ round outcome, Undisturbed label := by
  simp [round, Undisturbed, hvalid]

/-- The first answer is refused once, and both answers are given then. -/
def refusedOnce : List DumpThreads.Label :=
  DumpThreads.round .writeFailed ++ (List.replicate 15 (DumpThreads.round .written)).flatten ++
    [DumpThreads.Label.endAsyncRead, .endAsyncWrite, .notifyAll, .readCheck, .writeCheck]

open DumpThreads in
theorem undisturbed_refusedOnce : ∀ label ∈ refusedOnce, Undisturbed label := by
  refine List.forall_mem_append.mpr ⟨List.forall_mem_append.mpr ⟨?_, ?_⟩, ?_⟩
  · exact undisturbed_round nofun
  · intro label hmem
    obtain ⟨labels, hlabels, hin⟩ := List.mem_flatten.mp hmem
    rw [List.eq_of_mem_replicate hlabels] at hin
    have hvalid : PipeOutcome.written ≠ .fdInvalid := nofun
    exact undisturbed_round hvalid label hin
  · simp [Undisturbed]

open DumpThreads in
theorem dump_process_ends_refused_once :
    ∃ final, (dumpThreads true).run sleepingProcess refusedOnce = some final ∧
      refusedOnce.length ≤ 91 ∧
      (final.monitor = .done ∧ final.readLoop = .done ∧ final.writeLoop = .done ∧
        final.executor.traceDumpTaskVec = []) ∧
      final.executor.replies.map (fun reply => (reply.kind, reply.task.time)) =
        [(.sync, 5), (.async, 5)] := by
  obtain ⟨final, hrun, hmonitor, hread, hwrite, hreplies⟩ : ∃ final,
      (dumpThreads true).run sleepingProcess refusedOnce = some final ∧
        final.monitor = .done ∧ final.readLoop = .done ∧ final.writeLoop = .done ∧
        final.executor.replies.map (fun reply => (reply.kind, reply.task.time)) =
          [(.sync, 5), (.async, 5)] := ⟨_, rfl, rfl, rfl, rfl, rfl⟩
  have hundisturbed : (dumpThreads true).Obeys (fun _ => Undisturbed) sleepingProcess
      refusedOnce := (dumpThreads true).obeys_of_mem undisturbed_refusedOnce _
  obtain ⟨hlength, hends⟩ :=
    dump_process_ends sleepingProcess_reachable rfl rfl hundisturbed hrun
  exact ⟨final, hrun, hlength, hends fun label _ => rest_of_done hmonitor hread hwrite label,
    hreplies⟩

end Hitrace
