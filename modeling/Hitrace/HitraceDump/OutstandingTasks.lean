import Hitrace.HitraceDump.SessionIsolation

namespace Hitrace

open Library

/-! The list of tasks of the parent: an entry is made before its submission, and
taken out by the call or by a `WaitAsyncDumpRetLoop`. -/

/-- The call has not entered its task yet. -/
def CallPc.preparing : CallPc → Bool
  | .openPipe | .submit | .waitSync | .asyncTest | .answer _ => false
  | _ => true

/-- The loop stands at its exit test, and it comes out true. -/
def WaitLoop.GivesUp (dump : DumpSession) (loop : WaitLoop) : Prop :=
  loop.pc = .testing ∧
    (loop.emptyLoopCnt ≥ asyncWaitEmptyLoopCnt ∨
      dump.isProcessExist dump.traceDumpTaskPid = false)

instance (dump : DumpSession) (loop : WaitLoop) : Decidable (loop.GivesUp dump) :=
  inferInstanceAs (Decidable (_ ∧ _))

/-- The call has entered its task and has not come to its answer. -/
def CallPc.holding : CallPc → Bool
  | .openPipe | .submit | .waitSync | .asyncTest => true
  | _ => false

def DumpSession.lists (dump : DumpSession) (time : UInt64) : Prop :=
  ∃ task ∈ dump.traceDumpTaskVec, task.time = time

instance (dump : DumpSession) (time : UInt64) : Decidable (dump.lists time) :=
  inferInstanceAs (Decidable (∃ task ∈ dump.traceDumpTaskVec, task.time = time))

/-- A loop before the end of its waiting reads the fifo of the call. -/
def AsyncCall.Awaited (dump : DumpSession) (call : AsyncCall) : Prop :=
  ∃ loop ∈ dump.loops, loop.leaving = false ∧ some loop.session = call.pipe

instance (dump : DumpSession) (call : AsyncCall) : Decidable (call.Awaited dump) :=
  inferInstanceAs (Decidable (∃ loop ∈ dump.loops, _))

/-! What a step does to the list, with the outcome it depends on. -/

inductive TaskStep (dump : DumpSession) (call : AsyncCall) :
    CallOutcome → DumpSession → AsyncCall → Prop
  | prepare {outcome : CallOutcome} {next : DumpSession} {after : AsyncCall}
      (hfrom : call.pc.preparing = true)
      (hto : after.pc.preparing = true ∨ ∃ code, after.pc = .answer code)
      (htasks : next.traceDumpTaskVec = dump.traceDumpTaskVec)
      (hloops : next.loops = dump.loops)
      (hfifo : (∀ session, dump.fifo = some session → session = dump.session) →
        ∀ session, next.fifo = some session → session = next.session)
      (htaskid : after.taskid = call.taskid) (hpipe : after.pipe = call.pipe) :
      TaskStep dump call outcome next after
  | addTask {outcome : CallOutcome} (hpc : call.pc = .addTask) :
      TaskStep dump call outcome
        { dump with
          traceDumpTaskVec := dump.traceDumpTaskVec ++ [⟨call.taskid, dump.session⟩] }
        { call with pc := .openPipe }
  | openPipe {outcome : CallOutcome} {pipe : Option Nat} (hpc : call.pc = .openPipe)
      (hpipe : pipe = dump.fifo ∨ pipe = none) :
      TaskStep dump call outcome dump { call with pc := .submit, pipe }
  | submitted {pid : Option Nat} (hpc : call.pc = .submit)
      (hpipe : call.pipe.isSome = true) :
      TaskStep dump call .ok dump { call with pc := .waitSync, pid }
  | submitFailed {outcome : CallOutcome} (hpc : call.pc = .submit)
      (hfailed : ¬ (outcome = .ok ∧ call.pipe.isSome = true)) :
      TaskStep dump call outcome dump
        { call with pc := .answer .traceTaskSubmitError }
  | timeout (hpc : call.pc = .waitSync) :
      TaskStep dump call .timeout (dump.clearTraceDumpTask.kill call.pid)
        { call with pc := .answer .traceTaskDumpTimeout }
  | finished {reply : SyncReply} (hpc : call.pc = .waitSync)
      (hpipe : call.pipe.isSome = true) (hdone : reply.status = .writeDone) :
      TaskStep dump call (.reply reply) (dump.removeTraceDumpTask reply.time)
        { call with server := some reply.server, pc := .answer reply.errorCode }
  | givenUp {reply : SyncReply} {code : TraceErrorCode} (hpc : call.pc = .waitSync)
      (hpipe : call.pipe.isSome = true) (hopen : reply.status ≠ .writeDone)
      (hlost : reply.status = .finish ∨ reply.code = .traceTaskDumpTimeout) :
      TaskStep dump call (.reply reply) dump
        { call with server := some reply.server, pc := .answer code }
  | toAsyncTest {reply : SyncReply} (hpc : call.pc = .waitSync)
      (hopen : reply.status ≠ .writeDone ∧ reply.status ≠ .finish ∧
        reply.code ≠ .traceTaskDumpTimeout) :
      TaskStep dump call (.reply reply) dump
        { call with server := some reply.server, pc := .asyncTest }
  | spawn {outcome : CallOutcome} {session : Nat} (hpc : call.pc = .asyncTest)
      (hpipe : call.pipe = some session) (htid : dump.asyncWaitTid = none) :
      TaskStep dump call outcome
        { dump with
          loops := dump.loops ++ [{ tid := dump.spawned, session }]
          spawned := dump.spawned + 1 }
        { call with pc := .answer .asyncDump }
  | found {outcome : CallOutcome} (hpc : call.pc = .asyncTest)
      (hpipe : call.pipe.isSome = true) (htid : dump.asyncWaitTid ≠ none) :
      TaskStep dump call outcome dump { call with pc := .answer .asyncDump }

theorem taskStep_of_reply {dump : DumpSession} {call : AsyncCall} {reply : SyncReply}
    (hpc : call.pc = .waitSync) (hdelivers : dump.delivers call reply = true) :
    TaskStep dump call (.reply reply) (waitSyncDumpRet dump call reply).1
      (waitSyncDumpRet dump call reply).2 := by
  obtain ⟨_, session, hsession, _⟩ := delivers_serves hdelivers
  have hpipe : call.pipe.isSome = true := hsession ▸ rfl
  unfold waitSyncDumpRet
  dsimp only
  split
  · next hdone => exact .finished hpc hpipe hdone
  · next hopen =>
      split
      · next hfinish => exact .givenUp hpc hpipe hopen (.inl hfinish)
      · next hunfinished =>
          split
          · next hcode => exact .toAsyncTest hpc ⟨hopen, hunfinished, hcode⟩
          · next hcode =>
              exact .givenUp hpc hpipe hopen (.inr (Decidable.not_not.mp hcode))

theorem TaskStep.prepared {dump : DumpSession} {call after : AsyncCall}
    {outcome : CallOutcome} (hfrom : call.pc.preparing = true)
    (hto : after.pc.preparing = true ∨ ∃ code, after.pc = .answer code)
    (htaskid : after.taskid = call.taskid) (hpipe : after.pipe = call.pipe) :
    TaskStep dump call outcome dump after :=
  .prepare hfrom hto rfl rfl id htaskid hpipe

section Inversion

variable {dump next : DumpSession} {call after : AsyncCall} {outcome : CallOutcome}

theorem taskStep_of_initPipe (hpc : call.pc = .initPipe)
    (hstep : processDumpAsync dump call outcome = some (next, after)) :
    TaskStep dump call outcome next after := by
  unfold processDumpAsync at hstep
  rw [hpc] at hstep
  cases outcome with
  | ok =>
      dsimp only at hstep
      split at hstep
      · cases hstep
        exact .prepared (hpc ▸ rfl) (.inr ⟨_, rfl⟩) rfl rfl
      · cases hstep
        refine .prepare (hpc ▸ rfl) (.inl rfl) rfl rfl ?_ rfl rfl
        intro _ session hsession
        exact (Option.some.inj hsession).symm
  | failed =>
      cases hstep
      exact .prepared (hpc ▸ rfl) (.inr ⟨_, rfl⟩) rfl rfl
  | timeout => cases hstep
  | reply reply => cases hstep

theorem taskStep_of_submit (hpc : call.pc = .submit)
    (hstep : processDumpAsync dump call outcome = some (next, after)) :
    TaskStep dump call outcome next after := by
  unfold processDumpAsync at hstep
  rw [hpc] at hstep
  cases outcome with
  | ok =>
      dsimp only at hstep
      split at hstep
      · next hpipe =>
          cases hstep
          exact .submitted hpc hpipe
      · next hpipe =>
          cases hstep
          exact .submitFailed hpc fun hok => hpipe hok.2
  | failed =>
      cases hstep
      refine .submitFailed hpc fun hok => ?_
      cases hok.1
  | timeout => cases hstep
  | reply reply => cases hstep

theorem taskStep_of_waitSync (hpc : call.pc = .waitSync)
    (hstep : processDumpAsync dump call outcome = some (next, after)) :
    TaskStep dump call outcome next after := by
  unfold processDumpAsync at hstep
  rw [hpc] at hstep
  cases outcome with
  | ok => cases hstep
  | failed => cases hstep
  | timeout =>
      cases hstep
      exact .timeout hpc
  | reply reply =>
      dsimp only at hstep
      split at hstep
      · next hdelivers =>
          have hreply := taskStep_of_reply hpc hdelivers
          rw [Option.some.inj hstep] at hreply
          exact hreply
      · cases hstep

theorem taskStep_of_asyncTest (hpc : call.pc = .asyncTest)
    (hstep : processDumpAsync dump call outcome = some (next, after)) :
    TaskStep dump call outcome next after := by
  unfold processDumpAsync at hstep
  rw [hpc] at hstep
  cases outcome with
  | ok =>
      dsimp only at hstep
      split at hstep
      · next htid hpipe =>
          cases hstep
          exact .spawn hpc hpipe htid
      · next htid hpipe =>
          cases hstep
          refine .found hpc (hpipe ▸ rfl) ?_
          rw [htid]
          exact Option.some_ne_none _
      · cases hstep
  | failed => cases hstep
  | timeout => cases hstep
  | reply reply => cases hstep

/-- In front of the child: the call goes on or answers, and leaves the list alone. -/
theorem taskStep_of_launching
    (hpc : call.pc = .processTest ∨ call.pc = .clearPipe ∨ call.pc = .fork ∨
      call.pc = .assignPid)
    (hstep : processDumpAsync dump call outcome = some (next, after)) :
    TaskStep dump call outcome next after := by
  unfold processDumpAsync at hstep
  rcases hpc with hpc | hpc | hpc | hpc
  · rw [hpc] at hstep
    cases outcome <;> dsimp only at hstep <;> try cases hstep
    split at hstep <;> cases hstep <;>
      exact .prepared (hpc ▸ rfl) (.inl rfl) rfl rfl
  · rw [hpc] at hstep
    cases outcome <;> cases hstep
    refine .prepare (hpc ▸ rfl) (.inl rfl) rfl rfl ?_ rfl rfl
    intro _ session hsession
    cases hsession
  · rw [hpc] at hstep
    cases outcome <;> cases hstep
    · exact .prepare (hpc ▸ rfl) (.inl rfl) rfl rfl id rfl rfl
    · exact .prepared (hpc ▸ rfl) (.inr ⟨_, rfl⟩) rfl rfl
  · rw [hpc] at hstep
    cases outcome <;> cases hstep
    exact .prepare (hpc ▸ rfl) (.inl rfl) rfl rfl id rfl rfl

/-- The tests behind it. -/
theorem taskStep_of_testing
    (hpc : call.pc = .taskCount ∨ call.pc = .remainingSpace ∨ call.pc = .sigChldHandler)
    (hstep : processDumpAsync dump call outcome = some (next, after)) :
    TaskStep dump call outcome next after := by
  unfold processDumpAsync at hstep
  rcases hpc with hpc | hpc | hpc
  · rw [hpc] at hstep
    cases outcome <;> cases hstep
    exact .prepared (hpc ▸ rfl) (.inl rfl) rfl rfl
  · rw [hpc] at hstep
    cases outcome <;> cases hstep
    · exact .prepared (hpc ▸ rfl) (.inl rfl) rfl rfl
    · exact .prepared (hpc ▸ rfl) (.inr ⟨_, rfl⟩) rfl rfl
  · rw [hpc] at hstep
    cases outcome <;> cases hstep
    · exact .prepared (hpc ▸ rfl) (.inl rfl) rfl rfl
    · exact .prepared (hpc ▸ rfl) (.inr ⟨_, rfl⟩) rfl rfl

theorem taskStep_of_processDumpAsync
    (hstep : processDumpAsync dump call outcome = some (next, after)) :
    TaskStep dump call outcome next after := by
  cases hpc : call.pc with
  | initPipe => exact taskStep_of_initPipe hpc hstep
  | submit => exact taskStep_of_submit hpc hstep
  | waitSync => exact taskStep_of_waitSync hpc hstep
  | asyncTest => exact taskStep_of_asyncTest hpc hstep
  | processTest => exact taskStep_of_launching (.inl hpc) hstep
  | clearPipe => exact taskStep_of_launching (.inr (.inl hpc)) hstep
  | fork => exact taskStep_of_launching (.inr (.inr (.inl hpc))) hstep
  | assignPid => exact taskStep_of_launching (.inr (.inr (.inr hpc))) hstep
  | taskCount => exact taskStep_of_testing (.inl hpc) hstep
  | remainingSpace => exact taskStep_of_testing (.inr (.inl hpc)) hstep
  | sigChldHandler => exact taskStep_of_testing (.inr (.inr hpc)) hstep
  | addTask =>
      unfold processDumpAsync at hstep
      rw [hpc] at hstep
      cases outcome <;> cases hstep
      exact .addTask hpc
  | openPipe =>
      unfold processDumpAsync at hstep
      rw [hpc] at hstep
      cases outcome <;> cases hstep
      · exact .openPipe hpc (.inl rfl)
      · exact .openPipe hpc (.inr rfl)
  | register =>
      unfold processDumpAsync at hstep
      rw [hpc] at hstep
      cases outcome <;> cases hstep
  | answer code =>
      unfold processDumpAsync at hstep
      rw [hpc] at hstep
      cases outcome <;> cases hstep

end Inversion

namespace AsyncSession

/-! The entries that are outstanding. -/

/-- The step is the successful end of a `SubmitTraceDumpTask`. -/
structure Submits (state : AsyncSession) (label : Label) (time : UInt64) : Prop where
  outcome : label = .callStep .ok
  call : ∃ call, state.call = some call ∧ call.pc = .submit ∧
    call.pipe.isSome = true ∧ call.taskid = time

/-- The task has been submitted in the run. -/
def SubmittedIn (labels : List Label) (time : UInt64) : Prop :=
  ∃ before label after state, labels = before ++ label :: after ∧
    asyncSession.run {} before = some state ∧ state.Submits label time

/-- Why a task may be in the list: its submission is under way, or it has been submitted
and the call or a loop waits for the reply. -/
inductive Outstanding (labels : List Label) (state : AsyncSession)
    (task : SessionTask) : Prop
  | submitting {call : AsyncCall} (hcall : state.call = some call)
      (htask : call.taskid = task.time) (hpc : call.pc = .openPipe ∨ call.pc = .submit)
  | called {call : AsyncCall} (hcall : state.call = some call)
      (htask : call.taskid = task.time) (hsubmitted : SubmittedIn labels task.time)
      (hpc : call.pc = .waitSync ∨ call.pc = .asyncTest)
  | looped {loop : WaitLoop} (hloop : loop ∈ state.dump.loops)
      (hawaits : loop.leaving = false) (hsession : loop.session = task.session)
      (hsubmitted : SubmittedIn labels task.time)

def OutstandingOnly (labels : List Label) (state : AsyncSession) : Prop :=
  ∀ task ∈ state.dump.traceDumpTaskVec, Outstanding labels state task

theorem submittedIn_concat {labels : List Label} {label : Label} {state : AsyncSession}
    (hrun : asyncSession.run {} labels = some state) {time : UInt64} :
    SubmittedIn (labels ++ [label]) time ↔
      SubmittedIn labels time ∨ state.Submits label time := by
  constructor
  · rintro ⟨before, other, after, middle, hsplit, hbefore, hsubmits⟩
    rcases List.eq_nil_or_concat after with rfl | ⟨rest, last, rfl⟩
    · obtain ⟨rfl, hlabel⟩ := List.append_inj' hsplit rfl
      cases List.singleton_inj.mp hlabel
      cases hrun.symm.trans hbefore
      exact .inr hsubmits
    · have hconcat : labels ++ [label] = (before ++ other :: rest) ++ [last] := by
        rw [hsplit, List.concat_eq_append, List.append_assoc]
        rfl
      obtain ⟨rfl, _⟩ := List.append_inj' hconcat rfl
      exact .inl ⟨before, other, rest, middle, rfl, hbefore, hsubmits⟩
  · rintro (⟨before, other, after, middle, rfl, hbefore, hsubmits⟩ | hsubmits)
    · exact ⟨before, other, after ++ [label], middle, by simp, hbefore, hsubmits⟩
    · exact ⟨labels, label, [], state, rfl, hrun, hsubmits⟩

/-- What holds of the call in every run. -/
structure CallEntered (labels : List Label) (dump : DumpSession)
    (taskids : List UInt64) (call : AsyncCall) : Prop where
  known : call.taskid ∈ taskids
  unopened : call.pc.beforeSubmit = true → call.pipe = none
  unlisted : call.pc.preparing = true → ¬ dump.lists call.taskid
  unsubmitted : call.pc.beforeSubmit = true ∨ call.pc = .submit →
    ¬ SubmittedIn labels call.taskid
  waiting : call.pc = .waitSync ∨ call.pc = .asyncTest → SubmittedIn labels call.taskid
  pipe : ∀ session, call.pipe = some session → session = dump.session
  session : ∀ task ∈ dump.traceDumpTaskVec, task.time = call.taskid →
    task.session = dump.session

structure Entered (labels : List Label) (state : AsyncSession) : Prop where
  known : ∀ task ∈ state.dump.traceDumpTaskVec, task.time ∈ state.taskids
  submitted : ∀ time, SubmittedIn labels time → time ∈ state.taskids
  fifo : ∀ session, state.dump.fifo = some session → session = state.dump.session
  call : ∀ call, state.call = some call →
    CallEntered labels state.dump state.taskids call

/-- The list and the fifo after a step that enters nothing. -/
structure Shrinks (dump next : DumpSession) : Prop where
  session : next.session = dump.session
  tasks : ∀ task ∈ next.traceDumpTaskVec, task ∈ dump.traceDumpTaskVec
  fifo : ∀ session, next.fifo = some session → dump.fifo = some session

theorem Shrinks.refl (dump : DumpSession) : Shrinks dump dump :=
  ⟨rfl, fun _ htask => htask, fun _ hfifo => hfifo⟩

theorem CallEntered.keep {labels after : List Label} {dump next : DumpSession}
    {taskids : List UInt64} {call : AsyncCall}
    (hcall : CallEntered labels dump taskids call) (hshrinks : Shrinks dump next)
    (hsame : ∀ time, SubmittedIn after time ↔ SubmittedIn labels time) :
    CallEntered after next taskids call := by
  refine ⟨hcall.known, hcall.unopened, ?_, ?_, ?_, ?_, ?_⟩
  · rintro hpc ⟨task, htask, htime⟩
    exact hcall.unlisted hpc ⟨task, hshrinks.tasks task htask, htime⟩
  · intro hpc
    rw [hsame]
    exact hcall.unsubmitted hpc
  · intro hpc
    rw [hsame]
    exact hcall.waiting hpc
  · rw [hshrinks.session]
    exact hcall.pipe
  · intro task htask htime
    rw [hshrinks.session]
    exact hcall.session task (hshrinks.tasks task htask) htime

theorem shrinks_loopStep (dump : DumpSession) (loop : WaitLoop)
    (read : Option (UInt64 × TraceDumpStatus)) :
    Shrinks dump (waitAsyncDumpRetLoop dump loop read) := by
  have hsession := (waitAsyncDumpRetLoop_frame dump loop read).1
  refine ⟨hsession, ?_, ?_⟩
  · intro task htask
    unfold waitAsyncDumpRetLoop at htask
    split at htask
    · exact htask
    · split at htask <;> exact htask
    · split at htask <;> exact htask
    · exact (List.mem_filter.mp htask).1
    · exact htask
    · cases htask
    · exact htask
    · exact htask
  · intro session hfifo
    unfold waitAsyncDumpRetLoop at hfifo
    split at hfifo
    · exact hfifo
    · split at hfifo <;> exact hfifo
    · split at hfifo <;> exact hfifo
    · exact hfifo
    · exact hfifo
    · exact hfifo
    · cases hfifo
    · exact hfifo

theorem not_submits {state : AsyncSession} {label : Label} {time : UInt64}
    (hlabel : label ≠ .callStep .ok) : ¬ state.Submits label time :=
  fun hsubmits => hlabel hsubmits.outcome

/-- The steps of the loops and of the processes. -/
theorem Entered.shrink {labels : List Label} {label : Label}
    {state next : AsyncSession} (hentered : Entered labels state)
    (hshrinks : Shrinks state.dump next.dump)
    (hsame : ∀ time, SubmittedIn (labels ++ [label]) time ↔ SubmittedIn labels time)
    (hcall : ∀ call, next.call = some call → state.call = some call)
    (htaskids : next.taskids = state.taskids) : Entered (labels ++ [label]) next := by
  refine ⟨?_, ?_, ?_, ?_⟩
  · intro task htask
    rw [htaskids]
    exact hentered.known task (hshrinks.tasks task htask)
  · intro time hsubmitted
    rw [htaskids]
    exact hentered.submitted time ((hsame time).mp hsubmitted)
  · intro session hfifo
    rw [hshrinks.session]
    exact hentered.fifo session (hshrinks.fifo session hfifo)
  · intro call hnext
    rw [htaskids]
    exact (hentered.call call (hcall call hnext)).keep hshrinks hsame

theorem callStep_cases {state next : AsyncSession} {outcome : CallOutcome}
    (hstep : state.callStep outcome = some next) :
    ∃ call, state.call = some call ∧
      ((call.pc = .register ∧ next = state.register call) ∨
        (∃ code, call.pc = .answer code ∧ next = state.answer call code) ∨
        ∃ dump after, TaskStep state.dump call outcome dump after ∧
          next = { state with dump, call := some after }) := by
  unfold callStep at hstep
  split at hstep
  · cases hstep
  · next call hcall =>
      refine ⟨call, hcall, ?_⟩
      split at hstep
      · next hpc => exact .inl ⟨hpc, (Option.some.inj hstep).symm⟩
      · next code hpc => exact .inr (.inl ⟨code, hpc, (Option.some.inj hstep).symm⟩)
      · obtain ⟨⟨dump, after⟩, hprocess, rfl⟩ := Option.map_eq_some_iff.mp hstep
        exact .inr (.inr ⟨dump, after, taskStep_of_processDumpAsync hprocess, rfl⟩)

theorem beforeSubmit_of_preparing {pc : CallPc} (hpc : pc.preparing = true) :
    pc.beforeSubmit = true := by
  cases pc <;> first | rfl | cases hpc

theorem submittedIn_callStep {labels : List Label} {state : AsyncSession}
    {call : AsyncCall} {outcome : CallOutcome}
    (hrun : asyncSession.run {} labels = some state) (hcall : state.call = some call)
    (hpc : ¬ (call.pc = .submit ∧ outcome = .ok ∧ call.pipe.isSome = true))
    (time : UInt64) :
    SubmittedIn (labels ++ [Label.callStep outcome]) time ↔ SubmittedIn labels time := by
  rw [submittedIn_concat hrun]
  refine or_iff_left ?_
  rintro ⟨houtcome, other, hother, hsubmit, hpipe, _⟩
  cases hcall.symm.trans hother
  cases houtcome
  exact hpc ⟨hsubmit, rfl, hpipe⟩

theorem CallEntered.move {labels after : List Label} {dump next : DumpSession}
    {taskids : List UInt64} {call moved : AsyncCall}
    (hcall : CallEntered labels dump taskids call) (hshrinks : Shrinks dump next)
    (hsame : ∀ time, SubmittedIn after time ↔ SubmittedIn labels time)
    (htaskid : moved.taskid = call.taskid) (hpipe : moved.pipe = call.pipe)
    (hpc : moved.pc = .asyncTest ∧ call.pc = .waitSync ∨
      ∃ code, moved.pc = .answer code) :
    CallEntered after next taskids moved := by
  obtain ⟨_, _, _, _, _, hkept, hsession⟩ := hcall.keep hshrinks hsame
  refine ⟨htaskid ▸ hcall.known, ?_, ?_, ?_, ?_, ?_, ?_⟩
  · intro hbefore
    rcases hpc with ⟨hmoved, _⟩ | ⟨code, hmoved⟩ <;> rw [hmoved] at hbefore <;>
      cases hbefore
  · intro hbefore
    rcases hpc with ⟨hmoved, _⟩ | ⟨code, hmoved⟩ <;> rw [hmoved] at hbefore <;>
      cases hbefore
  · intro hbefore
    rcases hpc with ⟨hmoved, _⟩ | ⟨code, hmoved⟩ <;> rw [hmoved] at hbefore <;>
      rcases hbefore with hbefore | hbefore <;> cases hbefore
  · intro hwaiting
    rw [htaskid, hsame]
    rcases hpc with ⟨_, hwaits⟩ | ⟨code, hmoved⟩
    · exact hcall.waiting (.inl hwaits)
    · rw [hmoved] at hwaiting
      rcases hwaiting with hwaiting | hwaiting <;> cases hwaiting
  · rw [hpipe]
    exact hkept
  · rw [htaskid]
    exact hsession

theorem shrinks_remove (dump : DumpSession) (time : UInt64) :
    Shrinks dump (dump.removeTraceDumpTask time) :=
  ⟨rfl, fun _ htask => (List.mem_filter.mp htask).1, fun _ hfifo => hfifo⟩

theorem shrinks_clear (dump : DumpSession) (pid : Option Nat) :
    Shrinks dump (dump.clearTraceDumpTask.kill pid) :=
  ⟨rfl, fun _ htask => absurd htask List.not_mem_nil, fun _ hfifo => hfifo⟩

section TaskSteps

variable {labels : List Label} {state : AsyncSession} {call after : AsyncCall}
  {outcome : CallOutcome} {next : DumpSession}

/-- The steps of a call that has passed its submission, or failed in it. -/
theorem Entered.move (hentered : Entered labels state)
    (hrun : asyncSession.run {} labels = some state) (hcall : state.call = some call)
    (hpc : ¬ (call.pc = .submit ∧ outcome = .ok ∧ call.pipe.isSome = true))
    (hshrinks : Shrinks state.dump next) (htaskid : after.taskid = call.taskid)
    (hpipe : after.pipe = call.pipe)
    (hafter : after.pc = .asyncTest ∧ call.pc = .waitSync ∨
      ∃ code, after.pc = .answer code) :
    Entered (labels ++ [Label.callStep outcome])
      { state with dump := next, call := some after } := by
  have hsame := submittedIn_callStep hrun hcall hpc
  refine ⟨fun task htask => hentered.known task (hshrinks.tasks task htask),
    fun time htime => hentered.submitted time ((hsame time).mp htime), ?_, ?_⟩
  · intro session hfifo
    exact (hentered.fifo session (hshrinks.fifo session hfifo)).trans
      hshrinks.session.symm
  · intro other hother
    cases hother
    exact (hentered.call call hcall).move hshrinks hsame htaskid hpipe hafter

theorem Entered.prepare (hentered : Entered labels state)
    (hrun : asyncSession.run {} labels = some state) (hcall : state.call = some call)
    (hfrom : call.pc.preparing = true)
    (hto : after.pc.preparing = true ∨ ∃ code, after.pc = .answer code)
    (htasks : next.traceDumpTaskVec = state.dump.traceDumpTaskVec)
    (hfifo : ∀ session, next.fifo = some session → session = next.session)
    (htaskid : after.taskid = call.taskid) (hpipe : after.pipe = call.pipe) :
    Entered (labels ++ [Label.callStep outcome])
      { state with dump := next, call := some after } := by
  have hold := hentered.call call hcall
  have hbefore := beforeSubmit_of_preparing hfrom
  have hsame := @submittedIn_callStep _ _ _ outcome hrun hcall fun hsubmit => by
    rw [hsubmit.1] at hfrom
    cases hfrom
  have hunlisted := hold.unlisted hfrom
  have hnone : after.pipe = none := hpipe.trans (hold.unopened hbefore)
  refine ⟨?_, fun time htime => hentered.submitted time ((hsame time).mp htime), hfifo,
    ?_⟩
  · rw [htasks]
    exact hentered.known
  · intro other hother
    cases hother
    refine ⟨htaskid ▸ hold.known, fun _ => hnone, ?_, ?_, ?_, ?_, ?_⟩
    · intro _
      rw [htaskid, DumpSession.lists, htasks]
      exact hunlisted
    · intro _
      rw [htaskid, hsame]
      exact hold.unsubmitted (.inl hbefore)
    · intro hwaiting
      rcases hto with hpreparing | ⟨code, hanswer⟩
      · rcases hwaiting with hwaiting | hwaiting <;> rw [hwaiting] at hpreparing <;>
          cases hpreparing
      · rw [hanswer] at hwaiting
        rcases hwaiting with hwaiting | hwaiting <;> cases hwaiting
    · intro session hsession
      rw [hnone] at hsession
      cases hsession
    · intro task htask htime
      rw [htasks] at htask
      exact absurd ⟨task, htask, htime.trans htaskid⟩ hunlisted

theorem Entered.addTask (hentered : Entered labels state)
    (hrun : asyncSession.run {} labels = some state) (hcall : state.call = some call)
    (hpc : call.pc = .addTask) :
    Entered (labels ++ [Label.callStep outcome])
      { state with
        dump.traceDumpTaskVec :=
          state.dump.traceDumpTaskVec ++ [⟨call.taskid, state.dump.session⟩]
        call := some { call with pc := .openPipe } } := by
  have hold := hentered.call call hcall
  have hbefore : call.pc.beforeSubmit = true := hpc ▸ rfl
  have hsame := @submittedIn_callStep _ _ _ outcome hrun hcall fun hsubmit => by
    rw [hpc] at hsubmit
    cases hsubmit.1
  refine ⟨?_, fun time htime => hentered.submitted time ((hsame time).mp htime),
    hentered.fifo, ?_⟩
  · intro task htask
    rcases List.mem_append.mp htask with hlisted | hnew
    · exact hentered.known task hlisted
    · cases List.mem_singleton.mp hnew
      exact hold.known
  · intro other hother
    cases hother
    refine ⟨hold.known, fun _ => hold.unopened hbefore, fun hpreparing => ?_,
      fun _ => ?_, fun hwaiting => ?_, hold.pipe, ?_⟩
    · cases hpreparing
    · rw [hsame]
      exact hold.unsubmitted (.inl hbefore)
    · rcases hwaiting with hwaiting | hwaiting <;> cases hwaiting
    · intro task htask htime
      rcases List.mem_append.mp htask with hlisted | hnew
      · exact absurd ⟨task, hlisted, htime⟩ (hold.unlisted (hpc ▸ rfl))
      · cases List.mem_singleton.mp hnew
        rfl

theorem Entered.openPipe (hentered : Entered labels state)
    (hrun : asyncSession.run {} labels = some state) (hcall : state.call = some call)
    (hpc : call.pc = .openPipe) {pipe : Option Nat}
    (hpipe : pipe = state.dump.fifo ∨ pipe = none) :
    Entered (labels ++ [Label.callStep outcome])
      { state with call := some { call with pc := .submit, pipe } } := by
  have hold := hentered.call call hcall
  have hsame := @submittedIn_callStep _ _ _ outcome hrun hcall fun hsubmit => by
    rw [hpc] at hsubmit
    cases hsubmit.1
  refine ⟨hentered.known,
    fun time htime => hentered.submitted time ((hsame time).mp htime), hentered.fifo, ?_⟩
  intro other hother
  cases hother
  refine ⟨hold.known, fun hbefore => ?_, fun hbefore => ?_, fun _ => ?_,
    fun hwaiting => ?_, ?_, hold.session⟩
  · cases hbefore
  · cases hbefore
  · rw [hsame]
    exact hold.unsubmitted (.inl (hpc ▸ rfl))
  · rcases hwaiting with hwaiting | hwaiting <;> cases hwaiting
  · intro session hsession
    rcases hpipe with rfl | rfl
    · exact hentered.fifo session hsession
    · cases hsession

theorem Entered.submit (hentered : Entered labels state)
    (hrun : asyncSession.run {} labels = some state) (hcall : state.call = some call)
    (hpc : call.pc = .submit) (hpipe : call.pipe.isSome = true) {pid : Option Nat} :
    Entered (labels ++ [Label.callStep .ok])
      { state with call := some { call with pc := .waitSync, pid } } := by
  have hold := hentered.call call hcall
  have hnew : SubmittedIn (labels ++ [Label.callStep .ok]) call.taskid :=
    (submittedIn_concat hrun).mpr (.inr ⟨rfl, call, hcall, hpc, hpipe, rfl⟩)
  refine ⟨hentered.known, ?_, hentered.fifo, ?_⟩
  · intro time htime
    rcases (submittedIn_concat hrun).mp htime with hbefore | ⟨_, other, hother, _, _, rfl⟩
    · exact hentered.submitted time hbefore
    · cases hcall.symm.trans hother
      exact hold.known
  · intro other hother
    cases hother
    refine ⟨hold.known, fun hbefore => ?_, fun hbefore => ?_, fun hbefore => ?_,
      fun _ => hnew, hold.pipe, hold.session⟩
    · cases hbefore
    · cases hbefore
    · rcases hbefore with hbefore | hbefore <;> cases hbefore

theorem Entered.taskStep (hentered : Entered labels state)
    (hrun : asyncSession.run {} labels = some state) (hcall : state.call = some call)
    (hstep : TaskStep state.dump call outcome next after) :
    Entered (labels ++ [Label.callStep outcome])
      { state with dump := next, call := some after } := by
  have hpassed (hpc : call.pc = .waitSync ∨ call.pc = .asyncTest) :
      ¬ (call.pc = .submit ∧ outcome = .ok ∧ call.pipe.isSome = true) := by
    rintro ⟨hsubmit, _⟩
    rcases hpc with hpc | hpc <;> cases hpc.symm.trans hsubmit
  cases hstep with
  | prepare hfrom hto htasks _ hfifo htaskid hpipe =>
      exact hentered.prepare hrun hcall hfrom hto htasks (hfifo hentered.fifo) htaskid
        hpipe
  | addTask hpc => exact hentered.addTask hrun hcall hpc
  | openPipe hpc hpipe => exact hentered.openPipe hrun hcall hpc hpipe
  | submitted hpc hpipe => exact hentered.submit hrun hcall hpc hpipe
  | submitFailed hpc hfailed =>
      exact hentered.move hrun hcall (fun hsubmit => hfailed hsubmit.2) (Shrinks.refl _)
        rfl rfl (.inr ⟨_, rfl⟩)
  | timeout hpc =>
      exact hentered.move hrun hcall (hpassed (.inl hpc)) (shrinks_clear _ _) rfl rfl
        (.inr ⟨_, rfl⟩)
  | finished hpc _ _ =>
      exact hentered.move hrun hcall (hpassed (.inl hpc)) (shrinks_remove _ _) rfl rfl
        (.inr ⟨_, rfl⟩)
  | givenUp hpc _ _ _ =>
      exact hentered.move hrun hcall (hpassed (.inl hpc)) (Shrinks.refl _) rfl rfl
        (.inr ⟨_, rfl⟩)
  | toAsyncTest hpc _ =>
      exact hentered.move hrun hcall (hpassed (.inl hpc)) (Shrinks.refl _) rfl rfl
        (.inl ⟨rfl, hpc⟩)
  | spawn hpc _ _ =>
      exact hentered.move hrun hcall (hpassed (.inr hpc))
        ⟨rfl, fun _ htask => htask, fun _ hfifo => hfifo⟩ rfl rfl (.inr ⟨_, rfl⟩)
  | found hpc _ _ =>
      exact hentered.move hrun hcall (hpassed (.inr hpc)) (Shrinks.refl _) rfl rfl
        (.inr ⟨_, rfl⟩)

end TaskSteps

theorem answer_frame (state : AsyncSession) (call : AsyncCall) (code : TraceErrorCode) :
    (state.answer call code).dump = state.dump ∧
      (state.answer call code).call = none ∧
      (state.answer call code).taskids = state.taskids := by
  unfold answer
  split <;> exact ⟨rfl, rfl, rfl⟩

theorem entered_step {labels : List Label} {label : Label} {state next : AsyncSession}
    (hentered : Entered labels state) (hrun : asyncSession.run {} labels = some state)
    (hstep : state.step label = some next) : Entered (labels ++ [label]) next := by
  have hsame (hlabel : label ≠ .callStep .ok) (time : UInt64) :
      SubmittedIn (labels ++ [label]) time ↔ SubmittedIn labels time := by
    rw [submittedIn_concat hrun]
    exact or_iff_left (not_submits hlabel)
  have hsession := sessionStep_of_step hstep
  cases label with
  | dumpTraceAsync args taskid =>
      have hkept := hsame (by simp)
      cases hsession with
      | replied hidle _ =>
          exact hentered.shrink (Shrinks.refl _) hkept (fun _ hcall => hcall) rfl
      | refused hidle _ =>
          exact hentered.shrink (Shrinks.refl _) hkept (fun _ hcall => hcall) rfl
      | admitted hidle hfresh =>
          refine ⟨?_, ?_, hentered.fifo, ?_⟩
          · intro task htask
            exact List.mem_append_left _ (hentered.known task htask)
          · intro time htime
            exact List.mem_append_left _ (hentered.submitted time ((hkept time).mp htime))
          · intro call hcall
            cases hcall
            refine ⟨List.mem_append_right _ (List.mem_singleton_self _), fun _ => rfl, ?_,
              ?_, fun hwaiting => ?_, fun session hpipe => ?_, ?_⟩
            · rintro _ ⟨task, htask, rfl⟩
              exact hfresh (hentered.known task htask)
            · intro _ hsubmitted
              exact hfresh (hentered.submitted _ ((hkept _).mp hsubmitted))
            · rcases hwaiting with hwaiting | hwaiting <;> cases hwaiting
            · cases hpipe
            · rintro task htask rfl
              exact absurd (hentered.known task htask) hfresh
  | callStep outcome =>
      obtain ⟨call, hcall, ⟨hpc, rfl⟩ | ⟨code, hpc, rfl⟩ | ⟨dump, after, htask, rfl⟩⟩ :=
        callStep_cases hstep
      · have hnext : Entered (labels ++ [Label.callStep outcome])
            { state with call := some { call with pc := .taskCount } } :=
          hentered.prepare hrun hcall (hpc ▸ rfl) (.inl rfl) rfl hentered.fifo rfl rfl
        exact ⟨hnext.known, hnext.submitted, hnext.fifo, hnext.call⟩
      · obtain ⟨hdump, hnone, htaskids⟩ := answer_frame state call code
        refine hentered.shrink (hdump ▸ Shrinks.refl _)
          (submittedIn_callStep hrun hcall fun hsubmit => ?_) ?_ htaskids
        · cases hpc.symm.trans hsubmit.1
        · intro other hother
          rw [hnone] at hother
          cases hother
      · exact hentered.taskStep hrun hcall htask
  | loopStep tid read =>
      have hkept := hsame (by simp)
      cases hsession with
      | loop hmem =>
          exact hentered.shrink (shrinks_loopStep _ _ _) hkept (fun _ hcall => hcall) rfl
      | @finish loop time hmem _ _ =>
          exact hentered.shrink
            (shrinks_loopStep state.dump loop (some (time, .writeDone))) hkept
            (fun _ hcall => hcall) rfl
  | childOpen session =>
      cases hsession
      exact hentered.shrink ⟨rfl, fun _ htask => htask, fun _ hfifo => hfifo⟩
        (hsame (by simp)) (fun _ hcall => hcall) rfl
  | processDies session =>
      cases hsession
      exact hentered.shrink ⟨rfl, fun _ htask => htask, fun _ hfifo => hfifo⟩
        (hsame (by simp)) (fun _ hcall => hcall) rfl
  | sigChld =>
      cases hsession
      exact hentered.shrink ⟨rfl, fun _ htask => htask, fun _ hfifo => hfifo⟩
        (hsame (by simp)) (fun _ hcall => hcall) rfl

end AsyncSession

/-! The steps after which a listed task still has someone who waits for its reply. -/

/-- The call takes its task out of the list, or goes on to the test of
`g_asyncWaitTid`. -/
def SyncReply.Settles (reply : SyncReply) (call : AsyncCall) : Prop :=
  reply.status = .writeDone ∧ reply.time = call.taskid ∨
    reply.status ≠ .writeDone ∧ reply.status ≠ .finish ∧
      reply.code ≠ .traceTaskDumpTimeout

instance (reply : SyncReply) (call : AsyncCall) : Decidable (reply.Settles call) :=
  inferInstanceAs (Decidable (_ ∨ _))

def CallOutcome.Settles (call : AsyncCall) : CallOutcome → Prop
  | .reply taskRet => taskRet.Settles call
  | _ => True

instance (call : AsyncCall) : DecidablePred (CallOutcome.Settles call)
  | .reply reply => inferInstanceAs (Decidable (reply.Settles call))
  | .ok | .failed | .timeout => isTrue trivial

/-- While the task is listed, its submission succeeds, and the call does not give up its
wait for the reply unless a loop reads the same fifo. -/
def AsyncCall.Kept (dump : DumpSession) (call : AsyncCall) (outcome : CallOutcome) :
    Prop :=
  dump.lists call.taskid →
    (call.pc = .submit → outcome = .ok ∧ call.pipe.isSome = true) ∧
      (call.pc = .waitSync → outcome.Settles call ∨ call.Awaited dump) ∧
      (call.pc = .asyncTest → dump.asyncWaitTid = none ∨ call.Awaited dump)

instance (dump : DumpSession) (call : AsyncCall) (outcome : CallOutcome) :
    Decidable (call.Kept dump outcome) :=
  inferInstanceAs (Decidable (_ → _))

section Kept

variable {dump : DumpSession} {call : AsyncCall} {outcome : CallOutcome}

theorem kept_openPipe (hpc : call.pc = .openPipe) : call.Kept dump outcome := by
  simp [AsyncCall.Kept, hpc]

theorem kept_submit (hpc : call.pc = .submit) :
    call.Kept dump outcome ↔
      (dump.lists call.taskid → outcome = .ok ∧ call.pipe.isSome = true) := by
  simp [AsyncCall.Kept, hpc]

theorem kept_waitSync (hpc : call.pc = .waitSync) :
    call.Kept dump outcome ↔
      (dump.lists call.taskid → outcome.Settles call ∨ call.Awaited dump) := by
  simp [AsyncCall.Kept, hpc]

theorem kept_asyncTest (hpc : call.pc = .asyncTest) :
    call.Kept dump outcome ↔
      (dump.lists call.taskid → dump.asyncWaitTid = none ∨ call.Awaited dump) := by
  simp [AsyncCall.Kept, hpc]

end Kept

namespace AsyncSession

/-- The call has the task in hand, or a loop other than `tid` waits for its reply. -/
def HeldWithout (state : AsyncSession) (tid : Nat) (task : SessionTask) : Prop :=
  (∃ call ∈ state.call, call.taskid = task.time ∧ call.pc.holding = true) ∨
    ∃ other ∈ state.dump.loops, other.tid ≠ tid ∧ other.leaving = false ∧
      other.session = task.session

instance (state : AsyncSession) (tid : Nat) (task : SessionTask) :
    Decidable (state.HeldWithout tid task) :=
  inferInstanceAs (Decidable (_ ∨ _))

/-- A call keeps its task, and a loop that gives up leaves no task of the list without
one who waits. -/
def TasksKept (state : AsyncSession) : Label → Prop
  | .callStep outcome => ∀ call ∈ state.call, call.Kept state.dump outcome
  | .loopStep tid _ =>
      ∀ loop ∈ state.dump.loops, loop.tid = tid → loop.GivesUp state.dump →
        ∀ task ∈ state.dump.traceDumpTaskVec, state.HeldWithout tid task
  | _ => True

instance (state : AsyncSession) : DecidablePred state.TasksKept
  | .callStep outcome =>
      inferInstanceAs (Decidable (∀ call ∈ state.call, call.Kept state.dump outcome))
  | .loopStep tid _ =>
      inferInstanceAs (Decidable (∀ loop ∈ state.dump.loops, loop.tid = tid →
        loop.GivesUp state.dump →
          ∀ task ∈ state.dump.traceDumpTaskVec, state.HeldWithout tid task))
  | .dumpTraceAsync _ _ | .childOpen _ | .processDies _ | .sigChld => isTrue trivial

/-- Somebody else's task is waited for by a loop. -/
theorem Outstanding.by_loop {labels : List Label} {state : AsyncSession}
    {task : SessionTask} (houtstanding : Outstanding labels state task)
    (hcall : ∀ call, state.call = some call → call.taskid = task.time →
      ∃ code, call.pc = .answer code) :
    SubmittedIn labels task.time ∧
      ∃ loop ∈ state.dump.loops, loop.leaving = false ∧ loop.session = task.session := by
  cases houtstanding with
  | submitting hheld htask hpc =>
      obtain ⟨code, hanswer⟩ := hcall _ hheld htask
      rcases hpc with hpc | hpc <;> cases hpc.symm.trans hanswer
  | called hheld htask _ hpc =>
      obtain ⟨code, hanswer⟩ := hcall _ hheld htask
      rcases hpc with hpc | hpc <;> cases hpc.symm.trans hanswer
  | looped hloop hawaits hsession hsubmitted =>
      exact ⟨hsubmitted, _, hloop, hawaits, hsession⟩

section TaskSteps

variable {labels : List Label} {state : AsyncSession} {call after : AsyncCall}
  {outcome : CallOutcome} {next : DumpSession}

theorem TaskStep.frame {dump : DumpSession}
    (hstep : TaskStep dump call outcome next after) :
    after.taskid = call.taskid ∧ (∀ loop ∈ dump.loops, loop ∈ next.loops) ∧
      ∀ task ∈ next.traceDumpTaskVec, task.time ≠ call.taskid →
        task ∈ dump.traceDumpTaskVec := by
  cases hstep with
  | prepare _ _ htasks hloops _ htaskid _ =>
      refine ⟨htaskid, ?_, ?_⟩
      · rw [hloops]
        exact fun _ hloop => hloop
      · rw [htasks]
        exact fun _ htask _ => htask
  | addTask _ =>
      refine ⟨rfl, fun _ hloop => hloop, ?_⟩
      intro task htask hother
      rcases List.mem_append.mp htask with hlisted | hnew
      · exact hlisted
      · cases List.mem_singleton.mp hnew
        exact absurd rfl hother
  | openPipe _ _ => exact ⟨rfl, fun _ hloop => hloop, fun _ htask _ => htask⟩
  | submitted _ _ => exact ⟨rfl, fun _ hloop => hloop, fun _ htask _ => htask⟩
  | submitFailed _ _ => exact ⟨rfl, fun _ hloop => hloop, fun _ htask _ => htask⟩
  | timeout _ =>
      exact ⟨rfl, fun _ hloop => hloop, fun _ htask _ => absurd htask List.not_mem_nil⟩
  | finished _ _ _ =>
      exact ⟨rfl, fun _ hloop => hloop, fun _ htask _ => (List.mem_filter.mp htask).1⟩
  | givenUp _ _ _ _ => exact ⟨rfl, fun _ hloop => hloop, fun _ htask _ => htask⟩
  | toAsyncTest _ _ => exact ⟨rfl, fun _ hloop => hloop, fun _ htask _ => htask⟩
  | spawn _ _ _ =>
      exact ⟨rfl, fun _ hloop => List.mem_append_left _ hloop, fun _ htask _ => htask⟩
  | found _ _ _ => exact ⟨rfl, fun _ hloop => hloop, fun _ htask _ => htask⟩

theorem SubmittedIn.concat {time : UInt64} (hsubmitted : SubmittedIn labels time)
    (hrun : asyncSession.run {} labels = some state) (label : Label) :
    SubmittedIn (labels ++ [label]) time :=
  (submittedIn_concat hrun).mpr (.inl hsubmitted)

theorem outstanding_other (hrun : asyncSession.run {} labels = some state)
    (hcall : state.call = some call) (honly : OutstandingOnly labels state)
    (hstep : TaskStep state.dump call outcome next after) {task : SessionTask}
    (htask : task ∈ next.traceDumpTaskVec) (hother : task.time ≠ call.taskid) :
    Outstanding (labels ++ [Label.callStep outcome])
      { state with dump := next, call := some after } task := by
  obtain ⟨_, hloops, htasks⟩ := TaskStep.frame hstep
  have hold := honly task (htasks task htask hother)
  obtain ⟨hsubmitted, loop, hloop, hawaits, hsession⟩ := hold.by_loop fun held hheld htime => by
    cases hcall.symm.trans hheld
    exact absurd htime.symm hother
  exact .looped (hloops loop hloop) hawaits hsession (hsubmitted.concat hrun _)

/-- The task of the call and its fifo belong to one session. -/
theorem awaited_iff (hentered : Entered labels state) (hcall : state.call = some call)
    (hpipe : call.pipe.isSome = true) {task : SessionTask}
    (htask : task ∈ state.dump.traceDumpTaskVec) (hown : task.time = call.taskid) :
    call.Awaited state.dump ↔
      ∃ loop ∈ state.dump.loops, loop.leaving = false ∧ loop.session = task.session := by
  have hold := hentered.call call hcall
  obtain ⟨session, hopened⟩ := Option.isSome_iff_exists.mp hpipe
  have hsame : session = task.session :=
    (hold.pipe session hopened).trans (hold.session task htask hown).symm
  unfold AsyncCall.Awaited
  rw [hopened, hsame]
  simp only [Option.some.injEq]

theorem outstandingOnly_of_own (hrun : asyncSession.run {} labels = some state)
    (hcall : state.call = some call) (honly : OutstandingOnly labels state)
    (hstep : TaskStep state.dump call outcome next after)
    (hown : ∀ task ∈ next.traceDumpTaskVec, task.time = call.taskid →
      Outstanding (labels ++ [Label.callStep outcome])
        { state with dump := next, call := some after } task) :
    OutstandingOnly (labels ++ [Label.callStep outcome])
      { state with dump := next, call := some after } := by
  intro task htask
  by_cases htime : task.time = call.taskid
  · exact hown task htask htime
  · exact outstanding_other hrun hcall honly hstep htask htime

/-- A call that has come to its answer leaves the waiting to the loops. -/
theorem outstandingOnly_answered (hentered : Entered labels state)
    (hrun : asyncSession.run {} labels = some state) (hcall : state.call = some call)
    (honly : OutstandingOnly labels state)
    (hstep : TaskStep state.dump call outcome next after)
    (hpc : call.pc = .waitSync ∨ call.pc = .asyncTest)
    (hpipe : call.pipe.isSome = true) (hloops : next.loops = state.dump.loops)
    (hanswer : ∃ code, after.pc = .answer code)
    (hkeeps : ∀ task ∈ state.dump.traceDumpTaskVec, task.time = call.taskid →
      task ∈ next.traceDumpTaskVec)
    (htasks : ∀ task ∈ next.traceDumpTaskVec, task ∈ state.dump.traceDumpTaskVec) :
    OutstandingOnly (labels ++ [Label.callStep outcome])
        { state with dump := next, call := some after } ↔
      (state.dump.lists call.taskid → call.Awaited state.dump) := by
  constructor
  · rintro hnext ⟨task, htask, hown⟩
    have hlisted := hnext task (hkeeps task htask hown)
    obtain ⟨_, loop, hloop, hawaits, hsession⟩ := hlisted.by_loop fun held hheld _ => by
      cases hheld
      exact hanswer
    have hold : loop ∈ state.dump.loops := hloops ▸ hloop
    exact (awaited_iff hentered hcall hpipe htask hown).mpr
      ⟨loop, hold, hawaits, hsession⟩
  · intro hawaited
    refine outstandingOnly_of_own hrun hcall honly hstep fun task htask hown => ?_
    have hlisted := htasks task htask
    obtain ⟨loop, hloop, hawaits, hsession⟩ :=
      (awaited_iff hentered hcall hpipe hlisted hown).mp (hawaited ⟨task, hlisted, hown⟩)
    have hsubmitted := (hentered.call call hcall).waiting hpc
    rw [← hown] at hsubmitted
    exact .looped (hloops ▸ hloop) hawaits hsession (hsubmitted.concat hrun _)

/-- Of the steps of a call, those are right that keep its task. -/
theorem outstandingOnly_taskStep (hentered : Entered labels state)
    (hrun : asyncSession.run {} labels = some state) (hcall : state.call = some call)
    (honly : OutstandingOnly labels state)
    (hstep : TaskStep state.dump call outcome next after) :
    OutstandingOnly (labels ++ [Label.callStep outcome])
        { state with dump := next, call := some after } ↔
      call.Kept state.dump outcome := by
  have hold := hentered.call call hcall
  have hof := outstandingOnly_of_own hrun hcall honly hstep
  have hanswered := outstandingOnly_answered hentered hrun hcall honly hstep
  cases hstep with
  | prepare hfrom _ htasks _ _ _ _ =>
      have hunlisted := hold.unlisted hfrom
      refine iff_of_true (hof fun task htask hown => ?_)
        fun hlists => absurd hlists hunlisted
      rw [htasks] at htask
      exact absurd ⟨task, htask, hown⟩ hunlisted
  | addTask hpc =>
      refine iff_of_true (hof fun task htask hown => ?_)
        fun hlists => absurd hlists (hold.unlisted (hpc ▸ rfl))
      exact .submitting rfl hown.symm (.inl rfl)
  | openPipe hpc _ =>
      refine iff_of_true (hof fun task htask hown => ?_) (kept_openPipe hpc)
      exact .submitting rfl hown.symm (.inr rfl)
  | submitted hpc hpipe =>
      refine iff_of_true (hof fun task htask hown => ?_)
        ((kept_submit hpc).mpr fun _ => ⟨rfl, hpipe⟩)
      have hnew : SubmittedIn (labels ++ [Label.callStep .ok]) task.time :=
        (submittedIn_concat hrun).mpr (.inr ⟨rfl, call, hcall, hpc, hpipe, hown.symm⟩)
      exact .called rfl hown.symm hnew (.inl rfl)
  | submitFailed hpc hfailed =>
      have hsame := submittedIn_callStep hrun hcall fun hsubmit => hfailed hsubmit.2
      rw [kept_submit hpc]
      constructor
      · rintro hnext ⟨task, htask, hown⟩
        have hsubmitted := ((hnext task htask).by_loop fun held hheld _ => by
          cases hheld
          exact ⟨_, rfl⟩).1
        rw [hsame, hown] at hsubmitted
        exact absurd hsubmitted (hold.unsubmitted (.inr hpc))
      · intro hkept
        exact hof fun task htask hown => absurd (hkept ⟨task, htask, hown⟩) hfailed
  | timeout hpc =>
      refine iff_of_true (fun task htask => absurd htask List.not_mem_nil) ?_
      exact (kept_waitSync hpc).mpr fun _ => .inl trivial
  | @finished reply hpc hpipe hdone =>
      rw [kept_waitSync hpc]
      by_cases htime : reply.time = call.taskid
      · refine iff_of_true (hof fun task htask hown => ?_)
          fun _ => .inl (.inl ⟨hdone, htime⟩)
        obtain ⟨_, hkept⟩ := List.mem_filter.mp htask
        exact absurd (hown.trans htime.symm) (of_decide_eq_true hkept)
      · have hopen : ¬ (CallOutcome.reply reply).Settles call := by
          rintro (⟨_, hsame⟩ | ⟨hnot, _⟩)
          · exact htime hsame
          · exact hnot hdone
        rw [or_iff_right hopen]
        refine hanswered (.inl hpc) hpipe rfl ⟨_, rfl⟩ ?_ (shrinks_remove _ _).tasks
        intro task htask hown
        refine List.mem_filter.mpr ⟨htask, decide_eq_true ?_⟩
        rw [hown]
        exact Ne.symm htime
  | @givenUp reply code hpc hpipe hopen hlost =>
      have hunsettled : ¬ (CallOutcome.reply reply).Settles call := by
        rintro (⟨hdone, _⟩ | ⟨_, hunfinished, hcode⟩)
        · exact hopen hdone
        · exact hlost.elim hunfinished hcode
      rw [kept_waitSync hpc, or_iff_right hunsettled]
      exact hanswered (.inl hpc) hpipe rfl ⟨_, rfl⟩ (fun _ htask _ => htask)
        fun _ htask => htask
  | toAsyncTest hpc hopen =>
      refine iff_of_true (hof fun task htask hown => ?_)
        ((kept_waitSync hpc).mpr fun _ => .inl (.inr hopen))
      have hsubmitted := hold.waiting (.inl hpc)
      rw [← hown] at hsubmitted
      exact .called rfl hown.symm (hsubmitted.concat hrun _) (.inr rfl)
  | @spawn _ session hpc hpipe htid =>
      refine iff_of_true (hof fun task htask hown => ?_)
        ((kept_asyncTest hpc).mpr fun _ => .inl htid)
      have hsubmitted := hold.waiting (.inr hpc)
      rw [← hown] at hsubmitted
      have hsession : session = task.session :=
        (hold.pipe session hpipe).trans (hold.session task htask hown).symm
      exact .looped (List.mem_append_right _ (List.mem_singleton_self _)) rfl hsession
        (hsubmitted.concat hrun _)
  | found hpc hpipe htid =>
      rw [kept_asyncTest hpc, or_iff_right htid]
      exact hanswered (.inr hpc) hpipe rfl ⟨_, rfl⟩ (fun _ htask _ => htask)
        fun _ htask => htask

end TaskSteps

/-- What is outstanding stays so in a step that takes no one's wait away. -/
theorem OutstandingOnly.keep {labels : List Label} {label : Label}
    {state next : AsyncSession} (honly : OutstandingOnly labels state)
    (hrun : asyncSession.run {} labels = some state)
    (htasks : ∀ task ∈ next.dump.traceDumpTaskVec,
      task ∈ state.dump.traceDumpTaskVec)
    (hcall : ∀ task ∈ next.dump.traceDumpTaskVec, ∀ call, state.call = some call →
      call.taskid = task.time →
        next.call = some call ∨ ∃ code, call.pc = .answer code)
    (hloops : next.dump.traceDumpTaskVec ≠ [] → ∀ loop ∈ state.dump.loops,
      loop.leaving = false → ∃ kept ∈ next.dump.loops, kept.leaving = false ∧
        kept.session = loop.session) :
    OutstandingOnly (labels ++ [label]) next := by
  intro task htask
  cases honly task (htasks task htask) with
  | submitting hheld hown hpc =>
      rcases hcall task htask _ hheld hown with hkept | ⟨code, hanswer⟩
      · exact .submitting hkept hown hpc
      · rcases hpc with hpc | hpc <;> cases hpc.symm.trans hanswer
  | called hheld hown hsubmitted hpc =>
      rcases hcall task htask _ hheld hown with hkept | ⟨code, hanswer⟩
      · exact .called hkept hown (hsubmitted.concat hrun _) hpc
      · rcases hpc with hpc | hpc <;> cases hpc.symm.trans hanswer
  | looped hloop hawaits hsession hsubmitted =>
      obtain ⟨kept, hkept, hlive, hsame⟩ :=
        hloops (List.ne_nil_of_mem htask) _ hloop hawaits
      exact .looped hkept hlive (hsame.trans hsession) (hsubmitted.concat hrun _)

theorem setLoop_waits {dump : DumpSession} {tid emptyLoopCnt : Nat} {pc : WaitPc}
    {loop : WaitLoop} (hloop : loop ∈ dump.loops) (hawaits : loop.leaving = false)
    (hpc : loop.tid = tid → ({ loop with emptyLoopCnt, pc } : WaitLoop).leaving = false) :
    ∃ kept ∈ (dump.setLoop tid emptyLoopCnt pc).loops, kept.leaving = false ∧
      kept.session = loop.session := by
  refine ⟨_, List.mem_map_of_mem hloop, ?_⟩
  split
  · next htid => exact ⟨hpc htid, rfl⟩
  · exact ⟨hawaits, rfl⟩

/-- A loop stops waiting only at its exit test. -/
theorem loopStep_waits {dump : DumpSession} (hnumbered : dump.Numbered)
    {loop other : WaitLoop} (hmem : loop ∈ dump.loops) (hother : other ∈ dump.loops)
    (hawaits : other.leaving = false) (read : Option (UInt64 × TraceDumpStatus))
    (hstays : ¬ loop.GivesUp dump) :
    ∃ kept ∈ (waitAsyncDumpRetLoop dump loop read).loops, kept.leaving = false ∧
      kept.session = other.session := by
  have hapart (hleft : loop.leaving = true) : other.tid ≠ loop.tid := by
    intro htid
    rw [hnumbered.eq_of_tid hmem hother htid, hleft] at hawaits
    cases hawaits
  unfold waitAsyncDumpRetLoop
  split
  · exact setLoop_waits hother hawaits fun _ => rfl
  · next hpc =>
      split
      · next hexit => exact absurd ⟨hpc, hexit⟩ hstays
      · exact setLoop_waits hother hawaits fun _ => rfl
  · split <;> exact setLoop_waits hother hawaits fun _ => rfl
  · exact setLoop_waits hother hawaits fun _ => rfl
  · next hpc =>
      have hleft : loop.leaving = true := by rw [WaitLoop.leaving, hpc]
      exact setLoop_waits hother hawaits fun htid => absurd htid (hapart hleft)
  · next hpc =>
      have hleft : loop.leaving = true := by rw [WaitLoop.leaving, hpc]
      exact setLoop_waits hother hawaits fun htid => absurd htid (hapart hleft)
  · next hpc =>
      have hleft : loop.leaving = true := by rw [WaitLoop.leaving, hpc]
      exact setLoop_waits hother hawaits fun htid => absurd htid (hapart hleft)
  · next hpc =>
      have hleft : loop.leaving = true := by rw [WaitLoop.leaving, hpc]
      exact ⟨other, List.mem_filter.mpr ⟨hother, decide_eq_true (hapart hleft)⟩, hawaits,
        rfl⟩

section GivingUp

variable {labels : List Label} {state : AsyncSession} {loop : WaitLoop}
  {read : Option (UInt64 × TraceDumpStatus)}

theorem loopStep_of_givesUp {dump : DumpSession} (hgives : loop.GivesUp dump) :
    waitAsyncDumpRetLoop dump loop read =
      dump.setLoop loop.tid loop.emptyLoopCnt .clearPid := by
  obtain ⟨hpc, hexit⟩ := hgives
  unfold waitAsyncDumpRetLoop
  rw [hpc]
  exact if_pos hexit

/-- Whoever waits behind the exit test of a loop is the call or another loop. -/
theorem held_of_outstanding {task : SessionTask} {next : AsyncSession}
    (hcall : next.call = state.call)
    (hloops : next.dump.loops =
      (state.dump.setLoop loop.tid loop.emptyLoopCnt .clearPid).loops)
    (houtstanding : Outstanding labels next task) : state.HeldWithout loop.tid task := by
  cases houtstanding with
  | submitting hheld htask hpc =>
      refine .inl ⟨_, hcall.symm.trans hheld, htask, ?_⟩
      rcases hpc with hpc | hpc <;> rw [hpc] <;> rfl
  | called hheld htask _ hpc =>
      refine .inl ⟨_, hcall.symm.trans hheld, htask, ?_⟩
      rcases hpc with hpc | hpc <;> rw [hpc] <;> rfl
  | looped hloop hawaits hsession _ =>
      rw [hloops] at hloop
      obtain ⟨origin, horigin, rfl⟩ := List.mem_map.mp hloop
      by_cases htid : origin.tid = loop.tid
      · rw [if_pos htid] at hawaits
        cases hawaits
      · rw [if_neg htid] at hawaits hsession
        exact .inr ⟨origin, horigin, htid, hawaits, hsession⟩

theorem outstanding_of_held (hentered : Entered labels state)
    (hrun : asyncSession.run {} labels = some state) {task : SessionTask}
    {next : AsyncSession} (hcall : next.call = state.call) (label : Label)
    (hloops : next.dump.loops =
      (state.dump.setLoop loop.tid loop.emptyLoopCnt .clearPid).loops)
    (hold : Outstanding labels state task) (hheld : state.HeldWithout loop.tid task) :
    Outstanding (labels ++ [label]) next task := by
  have hcalled {call : AsyncCall} (hstate : state.call = some call)
      (htask : call.taskid = task.time) (hpc : call.pc = .waitSync ∨ call.pc = .asyncTest) :
      Outstanding (labels ++ [label]) next task := by
    have hsubmitted := (hentered.call call hstate).waiting hpc
    rw [htask] at hsubmitted
    exact .called (hcall.trans hstate) htask (hsubmitted.concat hrun _) hpc
  cases hold with
  | submitting hstate htask hpc => exact .submitting (hcall.trans hstate) htask hpc
  | called hstate htask _ hpc => exact hcalled hstate htask hpc
  | looped _ _ _ hsubmitted =>
      rcases hheld with ⟨call, hstate, htask, hpc⟩ | ⟨other, hother, htid, hawaits, hsession⟩
      · cases hplace : call.pc with
        | openPipe => exact .submitting (hcall.trans hstate) htask (.inl hplace)
        | submit => exact .submitting (hcall.trans hstate) htask (.inr hplace)
        | waitSync => exact hcalled hstate htask (.inl hplace)
        | asyncTest => exact hcalled hstate htask (.inr hplace)
        | _ =>
            rw [hplace] at hpc
            cases hpc
      · have hkept : other ∈ next.dump.loops := by
          rw [hloops]
          refine List.mem_map.mpr ⟨other, hother, ?_⟩
          rw [if_neg htid]
        exact .looped hkept hawaits hsession (hsubmitted.concat hrun _)

end GivingUp

theorem outstandingOnly_loopStep {labels : List Label} {state : AsyncSession}
    (hentered : Entered labels state) (hnumbered : state.dump.Numbered)
    (hrun : asyncSession.run {} labels = some state) (honly : OutstandingOnly labels state)
    {loop : WaitLoop} (hmem : loop ∈ state.dump.loops)
    {read : Option (UInt64 × TraceDumpStatus)} {next : AsyncSession}
    (hcall : next.call = state.call)
    (hdump : next.dump = waitAsyncDumpRetLoop state.dump loop read) :
    OutstandingOnly (labels ++ [Label.loopStep loop.tid read]) next ↔
      state.TasksKept (.loopStep loop.tid read) := by
  by_cases hgives : loop.GivesUp state.dump
  · rw [loopStep_of_givesUp hgives] at hdump
    have hloops : next.dump.loops =
        (state.dump.setLoop loop.tid loop.emptyLoopCnt .clearPid).loops := by
      rw [hdump]
    constructor
    · intro hafter _ _ _ _ task htask
      have hlisted : task ∈ next.dump.traceDumpTaskVec := by
        rw [hdump]
        exact htask
      exact held_of_outstanding hcall hloops (hafter task hlisted)
    · intro hkept task htask
      rw [hdump] at htask
      exact outstanding_of_held hentered hrun hcall _ hloops (honly task htask)
        (hkept loop hmem rfl hgives task htask)
  · refine iff_of_true ?_ ?_
    · refine honly.keep hrun ?_ ?_ ?_
      · rw [hdump]
        exact (shrinks_loopStep _ _ _).tasks
      · intro _ _ call hstate _
        exact .inl (hcall.trans hstate)
      · rw [hdump]
        intro _ other hother hawaits
        exact loopStep_waits hnumbered hmem hother hawaits read hgives
    · intro other hother htid hother_gives
      rw [hnumbered.eq_of_tid hmem hother htid] at hother_gives
      exact absurd hother_gives hgives

theorem outstandingOnly_step {labels : List Label} {label : Label}
    {state next : AsyncSession} (hentered : Entered labels state)
    (hnumbered : state.dump.Numbered)
    (hrun : asyncSession.run {} labels = some state)
    (honly : OutstandingOnly labels state) (hstep : state.step label = some next) :
    OutstandingOnly (labels ++ [label]) next ↔ state.TasksKept label := by
  have hsession := sessionStep_of_step hstep
  cases label with
  | dumpTraceAsync args taskid =>
      refine iff_of_true ?_ trivial
      have hidle : state.call = none := by
        cases hsession with
        | replied hidle _ => exact hidle
        | refused hidle _ => exact hidle
        | admitted hidle _ => exact hidle
      have hdump : next.dump = state.dump := by
        cases hsession <;> rfl
      refine honly.keep hrun (hdump ▸ fun _ htask => htask) ?_ ?_
      · intro _ _ call hcall
        rw [hidle] at hcall
        cases hcall
      · rw [hdump]
        exact fun _ loop hloop hawaits => ⟨loop, hloop, hawaits, rfl⟩
  | callStep outcome =>
      obtain ⟨call, hcall, hcases⟩ := callStep_cases hstep
      have hkept : state.TasksKept (.callStep outcome) ↔
          call.Kept state.dump outcome := by
        simp [TasksKept, hcall]
      rw [hkept]
      rcases hcases with ⟨hpc, rfl⟩ | ⟨code, hpc, rfl⟩ | ⟨dump, after, htask, rfl⟩
      · have hunlisted := (hentered.call call hcall).unlisted (hpc ▸ rfl)
        refine iff_of_true ?_ fun hlists => absurd hlists hunlisted
        refine honly.keep hrun (fun _ htask => htask) ?_
          fun _ loop hloop hawaits => ⟨loop, hloop, hawaits, rfl⟩
        intro task htask held hheld hown
        cases hcall.symm.trans hheld
        exact absurd ⟨task, htask, hown.symm⟩ hunlisted
      · obtain ⟨hdump, _, _⟩ := answer_frame state call code
        refine iff_of_true ?_ (by simp [AsyncCall.Kept, hpc])
        refine honly.keep hrun (hdump ▸ fun _ htask => htask) ?_ ?_
        · intro _ _ held hheld _
          cases hcall.symm.trans hheld
          exact .inr ⟨code, hpc⟩
        · rw [hdump]
          exact fun _ loop hloop hawaits => ⟨loop, hloop, hawaits, rfl⟩
      · exact outstandingOnly_taskStep hentered hrun hcall honly htask
  | loopStep tid read =>
      cases hsession with
      | @loop loop _ hmem =>
          exact outstandingOnly_loopStep hentered hnumbered hrun honly hmem rfl rfl
      | @finish loop time hmem _ _ =>
          exact outstandingOnly_loopStep hentered hnumbered hrun honly hmem rfl rfl
  | childOpen session =>
      cases hsession
      exact iff_of_true (honly.keep hrun (fun _ htask => htask)
        (fun _ _ _ hcall _ => .inl hcall)
        fun _ loop hloop hawaits => ⟨loop, hloop, hawaits, rfl⟩) trivial
  | processDies session =>
      cases hsession
      exact iff_of_true (honly.keep hrun (fun _ htask => htask)
        (fun _ _ _ hcall _ => .inl hcall)
        fun _ loop hloop hawaits => ⟨loop, hloop, hawaits, rfl⟩) trivial
  | sigChld =>
      cases hsession
      exact iff_of_true (honly.keep hrun (fun _ htask => htask)
        (fun _ _ _ hcall _ => .inl hcall)
        fun _ loop hloop hawaits => ⟨loop, hloop, hawaits, rfl⟩) trivial

theorem entered_init : Entered [] {} := by
  refine ⟨fun _ htask => absurd htask List.not_mem_nil, ?_, fun _ hfifo => ?_,
    fun _ hcall => ?_⟩
  · rintro time ⟨before, label, after, state, hsplit, _⟩
    exact absurd hsplit.symm (by simp)
  · cases hfifo
  · cases hcall

end AsyncSession

open AsyncSession in
/-- Every state of the run lists outstanding tasks only, exactly if every step of it
keeps the task of its call. -/
theorem tasks_outstanding_iff {labels : List Label} {state : AsyncSession}
    (hrun : asyncSession.run {} labels = some state) :
    asyncSession.Along OutstandingOnly {} labels ↔
      asyncSession.Obeys TasksKept {} labels := by
  refine @Machine.along_iff_obeys _ _ asyncSession _
    (fun labels state => Entered labels state ∧ state.dump.Numbered) _ _
    ⟨entered_init, isolated_init.numbered⟩ ?_ ?_ ?_ _ _ hrun
  · intro task htask
    cases htask
  · rintro labels state label next hprefix ⟨hentered, hnumbered⟩ hstep
    exact ⟨entered_step hentered hprefix hstep, numbered_step hnumbered hstep⟩
  · rintro labels state label next hprefix ⟨hentered, hnumbered⟩ honly hstep
    exact outstandingOnly_step hentered hnumbered hprefix honly hstep

namespace AsyncSession

/-- The second call submits to the process of the first one and is answered while the
loop of the first one waits. -/
def twoCalls : List Label :=
  forkingCall ++ List.replicate 2 (Label.callStep .ok) ++
    List.replicate 2 (Label.loopStep 0 none) ++
    Label.dumpTraceAsync ⟨TraceMode.modeOpen, ⟨false, false⟩, true, 0, 0, 9, 3, true⟩ 2 ::
      List.replicate 8 (Label.callStep .ok) ++
        [Label.callStep (.reply ⟨1, 2, .success, .readDone, false⟩), .callStep .ok,
          .callStep .ok]

/-- The loop reads both replies, finds the process gone and leaves. -/
def bothAnswered : List Label :=
  [.loopStep 0 (some (1, .writeDone)), .loopStep 0 none, .loopStep 0 none,
    .loopStep 0 (some (2, .writeDone)), .loopStep 0 none, .processDies 1,
    .loopStep 0 none, .loopStep 0 none]

end AsyncSession

open AsyncSession in
/-- One loop waits for the tasks of two calls, and gives up when the list is empty. -/
theorem tasks_outstanding_two_calls :
    (∃ state, asyncSession.run {} twoCalls = some state ∧ state.call = none ∧
      state.dump.traceDumpTaskVec = [⟨1, 1⟩, ⟨2, 1⟩]) ∧
      (∃ state, asyncSession.run {} (twoCalls ++ bothAnswered) = some state ∧
        state.dump.traceDumpTaskVec = [] ∧ state.dump.loops = [⟨0, 1, 0, .clearTask⟩]) ∧
      asyncSession.Along OutstandingOnly {} (twoCalls ++ bothAnswered) := by
  have hlisted : (asyncSession.run {} twoCalls).map
      (fun state => (state.call, state.dump.traceDumpTaskVec)) =
        some (none, [⟨1, 1⟩, ⟨2, 1⟩]) := by
    decide +kernel
  have hemptied : (asyncSession.run {} (twoCalls ++ bothAnswered)).map
      (fun state => (state.dump.traceDumpTaskVec, state.dump.loops)) =
        some ([], [⟨0, 1, 0, .clearTask⟩]) := by
    decide +kernel
  obtain ⟨middle, hmiddle, heq⟩ := Option.map_eq_some_iff.mp hlisted
  obtain ⟨hidle, htasks⟩ := Prod.mk.inj heq
  obtain ⟨state, hstate, hleft⟩ := Option.map_eq_some_iff.mp hemptied
  obtain ⟨hnone, hloops⟩ := Prod.mk.inj hleft
  refine ⟨⟨middle, hmiddle, hidle, htasks⟩, ⟨state, hstate, hnone, hloops⟩,
    (tasks_outstanding_iff hstate).mpr ?_⟩
  decide +kernel

open AsyncSession in
/-- The entry of a task whose submission has failed stays behind its call. -/
theorem failed_submission_stays_listed :
    ¬ ∀ (labels : List Label) (state : AsyncSession),
      asyncSession.run {} labels = some state → OutstandingOnly labels state := by
  intro hclaim
  let labels : List Label :=
    Label.dumpTraceAsync ⟨TraceMode.modeOpen, ⟨false, false⟩, true, 0, 0, 9, 3, true⟩ 1 ::
      List.replicate 11 (Label.callStep .ok) ++ [Label.callStep .failed, .callStep .ok]
  have hrun : (asyncSession.run {} labels).map
      (fun state => (state.dump.traceDumpTaskVec, state.call, state.dump.loops)) =
        some ([⟨1, 1⟩], none, []) := by
    decide +kernel
  obtain ⟨state, hstate, heq⟩ := Option.map_eq_some_iff.mp hrun
  obtain ⟨htasks, hrest⟩ := Prod.mk.inj heq
  obtain ⟨hcall, hloops⟩ := Prod.mk.inj hrest
  have hlisted : (⟨1, 1⟩ : SessionTask) ∈ state.dump.traceDumpTaskVec := by
    rw [htasks]
    exact List.mem_singleton_self _
  cases hclaim labels state hstate ⟨1, 1⟩ hlisted with
  | submitting hheld _ _ => cases hcall.symm.trans hheld
  | called hheld _ _ _ => cases hcall.symm.trans hheld
  | looped hloop _ _ _ =>
      rw [hloops] at hloop
      cases hloop

end Hitrace
