import Hitrace.HitraceDump.AsyncSession
import Mathlib.Data.List.Nodup

namespace Hitrace

open Library

/-! What one step of `ProcessDumpAsync` can do. -/

/-- The pipe of the call has not been opened yet. -/
def CallPc.beforeSubmit : CallPc → Bool
  | .submit | .waitSync | .asyncTest | .answer _ => false
  | _ => true

/-- Nothing hangs on the call standing here. -/
def CallPc.quiet : CallPc → Bool
  | .register | .asyncTest => false
  | .answer code => decide (code ≠ .asyncDump)
  | _ => true

/-- A process that has opened this generation of the fifos. -/
def DumpSession.Serves (dump : DumpSession) (server session : Nat) : Prop :=
  ∃ process ∈ dump.processes, process.session = server ∧
    process.fifo = some session

inductive ProcessStep (dump : DumpSession) (call : AsyncCall) :
    DumpSession → AsyncCall → Prop
  | quiet {pc : CallPc} {taskCnt : Nat} {pid server : Option Nat}
      (hpc : pc.quiet = true) (hfrom : call.pc ≠ .asyncTest)
      (hbefore : pc.beforeSubmit = true → call.pc.beforeSubmit = true) :
      ProcessStep dump call dump { call with pc, taskCnt, pid, server }
  | clearPipe (hpc : call.pc = .clearPipe) :
      ProcessStep dump call dump.clearTraceDumpPipe { call with pc := .initPipe }
  | initPipe (hpc : call.pc = .initPipe) :
      ProcessStep dump call
        { dump with session := dump.session + 1, fifo := some (dump.session + 1) }
        { call with pc := .fork }
  | forked (hpc : call.pc = .fork) :
      ProcessStep dump call
        { dump with processes := dump.processes ++ [⟨dump.session, none, true⟩] }
        { call with pc := .assignPid }
  | assignPid (hpc : call.pc = .assignPid) :
      ProcessStep dump call { dump with traceDumpTaskPid := some dump.session }
        { call with pc := .addTask }
  | addTask (hpc : call.pc = .addTask) :
      ProcessStep dump call
        { dump with
          traceDumpTaskVec := dump.traceDumpTaskVec ++ [⟨call.taskid, dump.session⟩] }
        { call with pc := .openPipe }
  | openPipe {pipe : Option Nat} (hpc : call.pc = .openPipe)
      (hpipe : pipe = dump.fifo ∨ pipe = none) :
      ProcessStep dump call dump { call with pc := .submit, pipe }
  | timeout (hpc : call.pc = .waitSync) :
      ProcessStep dump call (dump.clearTraceDumpTask.kill call.pid)
        { call with pc := .answer .traceTaskDumpTimeout }
  | finished {reply : SyncReply} (hpc : call.pc = .waitSync)
      (hcode : reply.code ≠ .asyncDump) :
      ProcessStep dump call (dump.removeTraceDumpTask reply.time)
        { call with server := some reply.server, pc := .answer reply.errorCode }
  | toAsyncTest {server session : Nat} (hpc : call.pc = .waitSync)
      (hpipe : call.pipe = some session) (hserves : dump.Serves server session) :
      ProcessStep dump call dump
        { call with server := some server, pc := .asyncTest }
  | spawn {session : Nat} (hpc : call.pc = .asyncTest)
      (hpipe : call.pipe = some session) (htid : dump.asyncWaitTid = none) :
      ProcessStep dump call
        { dump with
          loops := dump.loops ++ [{ tid := dump.spawned, session }]
          spawned := dump.spawned + 1 }
        { call with pc := .answer .asyncDump }
  | found {tid : Nat} (hpc : call.pc = .asyncTest)
      (htid : dump.asyncWaitTid = some tid) :
      ProcessStep dump call dump { call with pc := .answer .asyncDump }

theorem SyncReply.errorCode_ne {reply : SyncReply} (hcode : reply.code ≠ .asyncDump) :
    reply.errorCode ≠ .asyncDump := by
  unfold SyncReply.errorCode
  split
  · exact nofun
  · split
    · exact hcode
    · exact nofun

theorem delivers_serves {dump : DumpSession} {call : AsyncCall} {reply : SyncReply}
    (hdelivers : dump.delivers call reply = true) :
    reply.code ≠ .asyncDump ∧ ∃ session, call.pipe = some session ∧
      dump.Serves reply.server session := by
  unfold DumpSession.delivers at hdelivers
  simp only [Bool.and_eq_true, decide_eq_true_eq, List.any_eq_true,
    beq_iff_eq] at hdelivers
  obtain ⟨⟨hcode, hpipe⟩, process, hmem, hserver, hfifo⟩ := hdelivers
  obtain ⟨session, hsession⟩ := Option.isSome_iff_exists.mp hpipe
  exact ⟨hcode, session, hsession, process, hmem, hserver, hfifo.trans hsession⟩

theorem processStep_of_reply {dump : DumpSession} {call : AsyncCall}
    {reply : SyncReply} (hpc : call.pc = .waitSync)
    (hdelivers : dump.delivers call reply = true) :
    ProcessStep dump call (waitSyncDumpRet dump call reply).1
      (waitSyncDumpRet dump call reply).2 := by
  obtain ⟨hcode, session, hpipe, hserves⟩ := delivers_serves hdelivers
  have hanswer : (CallPc.answer reply.errorCode).quiet = true :=
    decide_eq_true (SyncReply.errorCode_ne hcode)
  unfold waitSyncDumpRet
  dsimp only
  split
  · exact .finished hpc hcode
  · split
    · exact .quiet hanswer (hpc ▸ nofun) nofun
    · split
      · exact .toAsyncTest hpc hpipe hserves
      · exact .quiet rfl (hpc ▸ nofun) nofun

theorem processStep_of_processDumpAsync {dump next : DumpSession}
    {call after : AsyncCall} {outcome : CallOutcome}
    (hstep : processDumpAsync dump call outcome = some (next, after)) :
    ProcessStep dump call next after := by
  unfold processDumpAsync at hstep
  split at hstep
  · next hpc =>
      cases hstep
      exact .quiet rfl (hpc ▸ nofun) fun _ => hpc ▸ rfl
  · next hpc =>
      cases hstep
      exact .quiet rfl (hpc ▸ nofun) fun _ => hpc ▸ rfl
  · next hpc =>
      cases hstep
      exact .quiet rfl (hpc ▸ nofun) nofun
  · next hpc =>
      cases hstep
      exact .quiet rfl (hpc ▸ nofun) fun _ => hpc ▸ rfl
  · next hpc =>
      cases hstep
      exact .quiet rfl (hpc ▸ nofun) nofun
  · next hpc =>
      split at hstep
      · cases hstep
        exact .quiet rfl (hpc ▸ nofun) fun _ => hpc ▸ rfl
      · cases hstep
        exact .quiet rfl (hpc ▸ nofun) fun _ => hpc ▸ rfl
  · next hpc =>
      cases hstep
      exact .clearPipe hpc
  · next hpc =>
      split at hstep
      · cases hstep
        exact .quiet rfl (hpc ▸ nofun) nofun
      · cases hstep
        exact .initPipe hpc
  · next hpc =>
      cases hstep
      exact .quiet rfl (hpc ▸ nofun) nofun
  · next hpc =>
      cases hstep
      exact .forked hpc
  · next hpc =>
      cases hstep
      exact .quiet rfl (hpc ▸ nofun) nofun
  · next hpc =>
      cases hstep
      exact .assignPid hpc
  · next hpc =>
      cases hstep
      exact .addTask hpc
  · next hpc =>
      cases hstep
      exact .openPipe hpc (.inl rfl)
  · next hpc =>
      cases hstep
      exact .openPipe hpc (.inr rfl)
  · next hpc =>
      split at hstep <;> cases hstep <;> exact .quiet rfl (hpc ▸ nofun) nofun
  · next hpc =>
      cases hstep
      exact .quiet rfl (hpc ▸ nofun) nofun
  · next hpc =>
      cases hstep
      exact .timeout hpc
  · next hpc =>
      split at hstep
      · next hdelivers =>
          have hreply := processStep_of_reply hpc hdelivers
          rw [Option.some.inj hstep] at hreply
          exact hreply
      · cases hstep
  · next hpc =>
      split at hstep
      · next htid hpipe =>
          cases hstep
          exact .spawn hpc hpipe htid
      · next htid _ =>
          cases hstep
          exact .found hpc htid
      · cases hstep
  · cases hstep

namespace AsyncSession

def openFifo (state : AsyncSession) (session : Nat) : AsyncSession :=
  { state with
    dump.processes := state.dump.processes.map fun process =>
      if process.session = session ∧ process.fifo = none then
        { process with fifo := state.dump.fifo }
      else process }

/-- What a step can do, with the tests it has passed. -/
inductive SessionStep (state : AsyncSession) : Label → AsyncSession → Prop
  | replied {args : DumpTraceAsync} {taskid : UInt64} (hidle : state.call = none)
      (hadmission : args.admission = .replied) :
      SessionStep state (.dumpTraceAsync args taskid)
        { state with
          calls := state.calls + 1
          returned := state.returned ++ [⟨state.calls, args.asyncCallback, none⟩]
          invoked := state.invoked ++ replyIfNeeded args.asyncCallback state.calls }
  | refused {args : DumpTraceAsync} {taskid : UInt64} {code : TraceErrorCode}
      (hidle : state.call = none) (hadmission : args.admission = .refused code) :
      SessionStep state (.dumpTraceAsync args taskid)
        { state with
          calls := state.calls + 1
          returned := state.returned ++ [⟨state.calls, args.asyncCallback, none⟩] }
  | admitted {args : DumpTraceAsync} {taskid : UInt64} (hidle : state.call = none)
      (hfresh : taskid ∉ state.taskids) :
      SessionStep state (.dumpTraceAsync args taskid)
        { state with
          call := some
            { number := state.calls, asyncCallback := args.asyncCallback, taskid }
          calls := state.calls + 1
          taskids := state.taskids ++ [taskid] }
  | register {call : AsyncCall} {outcome : CallOutcome}
      (hcall : state.call = some call) (hpc : call.pc = .register) :
      SessionStep state (.callStep outcome) (state.register call)
  | answer {call : AsyncCall} {outcome : CallOutcome} {code : TraceErrorCode}
      (hcall : state.call = some call) (hpc : call.pc = .answer code) :
      SessionStep state (.callStep outcome) (state.answer call code)
  | process {call after : AsyncCall} {outcome : CallOutcome} {dump : DumpSession}
      (hcall : state.call = some call) (hheld : call.pc ≠ .register)
      (hstep : ProcessStep state.dump call dump after) :
      SessionStep state (.callStep outcome)
        { state with dump, call := some after }
  | loop {loop : WaitLoop} {read : Option (UInt64 × TraceDumpStatus)}
      (hmem : loop ∈ state.dump.loops) :
      SessionStep state (.loopStep loop.tid read)
        { state with dump := waitAsyncDumpRetLoop state.dump loop read }
  | finish {loop : WaitLoop} {time : UInt64} (hmem : loop ∈ state.dump.loops)
      (hpc : loop.pc = .reading) (hfree : state.retMutexFree = true) :
      SessionStep state (.loopStep loop.tid (some (time, .writeDone)))
        (finishTask { state with
          dump := waitAsyncDumpRetLoop state.dump loop (some (time, .writeDone)) }
          time)
  | childOpen {session : Nat} :
      SessionStep state (.childOpen session) (state.openFifo session)
  | processDies {session : Nat} :
      SessionStep state (.processDies session)
        { state with dump := state.dump.kill (some session) }
  | sigChld {pid : Option Nat}
      (hpid : pid = state.dump.traceDumpTaskPid ∨ pid = none) :
      SessionStep state .sigChld { state with dump.traceDumpTaskPid := pid }

theorem sessionStep_of_loopStep {state next : AsyncSession} {tid : Nat}
    {read : Option (UInt64 × TraceDumpStatus)}
    (hstep : state.loopStep tid read = some next) :
    SessionStep state (.loopStep tid read) next := by
  unfold loopStep at hstep
  split at hstep
  · cases hstep
  · next loop hfind =>
      have hmem := List.mem_of_find?_eq_some hfind
      have htid : loop.tid = tid := by
        simpa using List.find?_some hfind
      subst htid
      dsimp only at hstep
      split at hstep
      · next time hpc =>
          split at hstep
          · next hfree =>
              cases hstep
              exact .finish hmem hpc hfree
          · cases hstep
      · cases hstep
        exact .loop hmem

theorem sessionStep_of_step {state next : AsyncSession} {label : Label}
    (hstep : state.step label = some next) : SessionStep state label next := by
  cases label with
  | dumpTraceAsync args taskid =>
      simp only [step, dumpTraceAsync] at hstep
      split at hstep
      · cases hstep
      · next hidle =>
          have hnone : state.call = none := by simpa using hidle
          split at hstep
          · next hadmission =>
              cases hstep
              exact .replied hnone hadmission
          · next hadmission =>
              cases hstep
              exact .refused hnone hadmission
          · split at hstep
            · cases hstep
            · next hfresh =>
                cases hstep
                exact .admitted hnone hfresh
  | callStep outcome =>
      simp only [step, callStep] at hstep
      split at hstep
      · cases hstep
      · next call hcall =>
          split at hstep
          · next hpc =>
              cases hstep
              exact .register hcall hpc
          · next hpc =>
              cases hstep
              exact .answer hcall hpc
          · next hregister _ =>
              obtain ⟨⟨dump, after⟩, hprocess, rfl⟩ := Option.map_eq_some_iff.mp hstep
              exact .process hcall hregister
                (processStep_of_processDumpAsync hprocess)
  | loopStep tid read => exact sessionStep_of_loopStep hstep
  | childOpen session =>
      cases hstep
      exact .childOpen
  | processDies session =>
      cases hstep
      exact .processDies
  | sigChld =>
      simp only [step] at hstep
      split at hstep
      · cases hstep
        exact .sigChld (.inl rfl)
      · cases hstep
        exact .sigChld (.inr rfl)

end AsyncSession

/-! The tids: no two loops share one. -/

structure DumpSession.Numbered (dump : DumpSession) : Prop where
  fresh : ∀ loop ∈ dump.loops, loop.tid < dump.spawned
  distinct : (dump.loops.map WaitLoop.tid).Nodup

theorem DumpSession.Numbered.eq_of_tid {dump : DumpSession} (hnumbered : dump.Numbered)
    {loop other : WaitLoop} (hloop : loop ∈ dump.loops) (hother : other ∈ dump.loops)
    (htid : other.tid = loop.tid) : other = loop :=
  List.inj_on_of_nodup_map hnumbered.distinct hother hloop htid

theorem mem_setLoop {dump : DumpSession} {tid emptyLoopCnt : Nat} {pc : WaitPc}
    {loop : WaitLoop} (hmem : loop ∈ (dump.setLoop tid emptyLoopCnt pc).loops) :
    loop ∈ dump.loops ∨ ∃ origin ∈ dump.loops, origin.tid = tid ∧
      loop = { origin with emptyLoopCnt, pc } := by
  obtain ⟨origin, horigin, rfl⟩ := List.mem_map.mp hmem
  split
  · next htid => exact .inr ⟨origin, horigin, htid, rfl⟩
  · exact .inl horigin

theorem DumpSession.Numbered.setLoop {dump base : DumpSession}
    (hnumbered : dump.Numbered) (hloops : base.loops = dump.loops)
    (hspawned : base.spawned = dump.spawned) {tid emptyLoopCnt : Nat} {pc : WaitPc} :
    (base.setLoop tid emptyLoopCnt pc).Numbered := by
  have hbase : base.Numbered := by
    refine ⟨?_, ?_⟩
    · rw [hloops, hspawned]
      exact hnumbered.fresh
    · rw [hloops]
      exact hnumbered.distinct
  refine ⟨?_, ?_⟩
  · intro loop hloop
    rcases mem_setLoop hloop with hold | ⟨origin, horigin, _, rfl⟩
    · exact hbase.fresh loop hold
    · exact hbase.fresh origin horigin
  · have htids : (base.setLoop tid emptyLoopCnt pc).loops.map WaitLoop.tid =
        base.loops.map WaitLoop.tid := by
      rw [DumpSession.setLoop, List.map_map]
      refine List.map_congr_left fun loop _ => ?_
      rw [Function.comp_apply]
      split <;> rfl
    rw [htids]
    exact hbase.distinct

theorem Numbered.processStep {dump next : DumpSession} {call after : AsyncCall}
    (hnumbered : dump.Numbered) (hstep : ProcessStep dump call next after) :
    next.Numbered := by
  cases hstep with
  | spawn _ _ _ =>
      refine ⟨?_, ?_⟩
      · intro loop hloop
        rcases List.mem_append.mp hloop with hold | hnew
        · exact Nat.lt_succ_of_lt (hnumbered.fresh loop hold)
        · cases List.mem_singleton.mp hnew
          exact Nat.lt_succ_self _
      · rw [List.map_append, List.nodup_append_comm]
        refine List.nodup_cons.mpr ⟨?_, hnumbered.distinct⟩
        intro hmem
        obtain ⟨loop, hloop, htid⟩ := List.mem_map.mp hmem
        exact Nat.lt_irrefl _ (htid ▸ hnumbered.fresh loop hloop)
  | _ => exact ⟨hnumbered.fresh, hnumbered.distinct⟩

theorem DumpSession.Numbered.loopStep {dump : DumpSession} (hnumbered : dump.Numbered)
    (loop : WaitLoop) (read : Option (UInt64 × TraceDumpStatus)) :
    (waitAsyncDumpRetLoop dump loop read).Numbered := by
  unfold waitAsyncDumpRetLoop
  split
  · apply hnumbered.setLoop <;> rfl
  · split <;> (apply hnumbered.setLoop <;> rfl)
  · split <;> (apply hnumbered.setLoop <;> rfl)
  · apply hnumbered.setLoop <;> rfl
  · apply hnumbered.setLoop <;> rfl
  · apply hnumbered.setLoop <;> rfl
  · apply hnumbered.setLoop <;> rfl
  · refine ⟨fun other hother => hnumbered.fresh other (List.mem_filter.mp hother).1, ?_⟩
    exact hnumbered.distinct.sublist (List.filter_sublist.map _)

theorem AsyncSession.numbered_step {state next : AsyncSession}
    {label : AsyncSession.Label} (hnumbered : state.dump.Numbered)
    (hstep : state.step label = some next) : next.dump.Numbered := by
  cases sessionStep_of_step hstep with
  | answer _ _ =>
      unfold answer
      split <;> exact hnumbered
  | process _ _ hprocess => exact Numbered.processStep hnumbered hprocess
  | loop _ => exact hnumbered.loopStep _ _
  | @finish loop time _ _ _ =>
      exact hnumbered.loopStep loop (some (time, .writeDone))
  | _ => exact ⟨hnumbered.fresh, hnumbered.distinct⟩

end Hitrace
