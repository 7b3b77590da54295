import Hitrace.HitraceDump.SessionStep

namespace Hitrace

open Library

/-! The invariant: a loop before the end of its clean-up belongs to the newest
session. -/

structure DumpSession.Isolated (dump : DumpSession) : Prop where
  fifo : ∀ session, dump.fifo = some session → session = dump.session
  loops : ∀ loop ∈ dump.loops, loop.pc ≠ .storeTid → loop.session = dump.session
  pid : ∀ pid, dump.traceDumpTaskPid = some pid → pid ≤ dump.session
  tasks : ∀ task ∈ dump.traceDumpTaskVec, task.session ≤ dump.session

structure AsyncCall.Isolated (dump : DumpSession) (call : AsyncCall) : Prop where
  unopened : call.pc.beforeSubmit = true → call.pipe = none
  pipe : ∀ session, call.pipe = some session → session = dump.session
  served : call.pc = .asyncTest → ∃ server session, call.server = some server ∧
    call.pipe = some session ∧ dump.Serves server session

/-- The step does not begin a session while a loop has its clean-up before it, and
if it finds a tid then not every loop has taken its exit branch. -/
def AsyncCall.Apart (dump : DumpSession) (call : AsyncCall) : Prop :=
  (call.pc = .initPipe → ∀ loop ∈ dump.loops, loop.pc = .storeTid) ∧
    (call.pc = .asyncTest → dump.asyncWaitTid ≠ none →
      ∃ loop ∈ dump.loops, loop.leaving = false)

instance (dump : DumpSession) (call : AsyncCall) : Decidable (call.Apart dump) :=
  inferInstanceAs (Decidable (_ ∧ _))

theorem WaitLoop.not_storeTid {loop : WaitLoop} (hleaving : loop.leaving = false) :
    loop.pc ≠ .storeTid := by
  intro hpc
  rw [WaitLoop.leaving, hpc] at hleaving
  exact nomatch hleaving

theorem Isolated.quietCall {dump : DumpSession} {call after : AsyncCall}
    (hcall : call.Isolated dump) (hquiet : after.pc.quiet = true)
    (hbefore : after.pc.beforeSubmit = true → call.pc.beforeSubmit = true)
    (hpipe : after.pipe = call.pipe) : after.Isolated dump := by
  refine ⟨?_, ?_, ?_⟩
  · intro hunopened
    exact hpipe.trans (hcall.unopened (hbefore hunopened))
  · rw [hpipe]
    exact hcall.pipe
  · intro hpc
    exact nomatch (hpc ▸ hquiet)

/-- Changing processes without closing a fifo. -/
theorem serves_map {dump : DumpSession} {server session : Nat}
    (hserves : dump.Serves server session) {change : DumpProcess → DumpProcess}
    (hsession : ∀ process, (change process).session = process.session)
    (hfifo : ∀ process, process.fifo = some session →
      (change process).fifo = some session) :
    DumpSession.Serves { dump with processes := dump.processes.map change } server
      session := by
  obtain ⟨process, hmem, hserver, hopened⟩ := hserves
  exact ⟨change process, List.mem_map_of_mem hmem,
    (hsession process).trans hserver, hfifo process hopened⟩

theorem serves_kill {dump : DumpSession} {server session : Nat}
    (hserves : dump.Serves server session) (pid : Option Nat) :
    (dump.kill pid).Serves server session := by
  refine serves_map hserves ?_ ?_
  · intro process
    split <;> rfl
  · intro process hopened
    split <;> exact hopened

theorem Isolated.processDump {dump next : DumpSession} {call after : AsyncCall}
    (hdump : dump.Isolated) (hcall : call.Isolated dump)
    (hapart : call.Apart dump) (hstep : ProcessStep dump call next after) :
    next.Isolated := by
  cases hstep with
  | quiet _ _ _ => exact hdump
  | clearPipe _ => exact { hdump with fifo := nofun }
  | initPipe hpc =>
      refine ⟨?_, ?_, ?_, ?_⟩
      · intro session hsession
        exact (Option.some.inj hsession).symm
      · intro loop hloop hbefore
        exact absurd (hapart.1 hpc loop hloop) hbefore
      · intro pid hpid
        exact Nat.le_succ_of_le (hdump.pid pid hpid)
      · intro task htask
        exact Nat.le_succ_of_le (hdump.tasks task htask)
  | forked _ => exact ⟨hdump.fifo, hdump.loops, hdump.pid, hdump.tasks⟩
  | assignPid _ =>
      refine { hdump with pid := ?_ }
      intro pid hpid
      cases hpid
      exact Nat.le_refl _
  | addTask _ =>
      refine { hdump with tasks := ?_ }
      intro task htask
      rcases List.mem_append.mp htask with hold | hnew
      · exact hdump.tasks task hold
      · cases List.mem_singleton.mp hnew
        exact Nat.le_refl _
  | openPipe _ _ => exact hdump
  | timeout _ => exact ⟨hdump.fifo, hdump.loops, hdump.pid, nofun⟩
  | finished _ _ =>
      refine { hdump with tasks := ?_ }
      intro task htask
      exact hdump.tasks task (List.mem_filter.mp htask).1
  | toAsyncTest _ _ _ => exact hdump
  | spawn _ hpipe _ =>
      refine { hdump with loops := ?_ }
      intro loop hloop hbefore
      rcases List.mem_append.mp hloop with hold | hnew
      · exact hdump.loops loop hold hbefore
      · cases List.mem_singleton.mp hnew
        exact hcall.pipe _ hpipe
  | found _ _ => exact hdump

theorem Isolated.processCall {dump next : DumpSession} {call after : AsyncCall}
    (hdump : dump.Isolated) (hcall : call.Isolated dump)
    (hstep : ProcessStep dump call next after) : after.Isolated next := by
  cases hstep with
  | quiet hpc _ hbefore => exact Isolated.quietCall hcall hpc hbefore rfl
  | clearPipe hpc => exact ⟨fun _ => hcall.unopened (hpc ▸ rfl), hcall.pipe, nofun⟩
  | initPipe hpc =>
      have hnone := hcall.unopened (hpc ▸ rfl)
      refine ⟨fun _ => hnone, ?_, nofun⟩
      intro session hsession
      exact nomatch hnone.symm.trans hsession
  | forked hpc => exact ⟨fun _ => hcall.unopened (hpc ▸ rfl), hcall.pipe, nofun⟩
  | assignPid hpc => exact ⟨fun _ => hcall.unopened (hpc ▸ rfl), hcall.pipe, nofun⟩
  | addTask hpc => exact ⟨fun _ => hcall.unopened (hpc ▸ rfl), hcall.pipe, nofun⟩
  | openPipe _ hpipe =>
      refine ⟨nofun, ?_, nofun⟩
      intro session hsession
      rcases hpipe with rfl | rfl
      · exact hdump.fifo session hsession
      · exact nomatch hsession
  | timeout _ => exact ⟨nofun, hcall.pipe, nofun⟩
  | finished _ _ => exact ⟨nofun, hcall.pipe, nofun⟩
  | toAsyncTest _ hpipe hserves =>
      exact ⟨nofun, hcall.pipe, fun _ => ⟨_, _, rfl, hpipe, hserves⟩⟩
  | spawn _ _ _ => exact ⟨nofun, hcall.pipe, nofun⟩
  | found _ _ => exact ⟨nofun, hcall.pipe, nofun⟩

/-- A loop can be moved while it belongs to the newest session. -/
theorem DumpSession.Isolated.setLoop {base : DumpSession} {tid emptyLoopCnt : Nat}
    {pc : WaitPc} (hbase : base.Isolated)
    (hnewest : ∀ loop ∈ base.loops, loop.tid = tid → loop.session = base.session) :
    (base.setLoop tid emptyLoopCnt pc).Isolated := by
  refine { hbase with loops := ?_ }
  intro loop hloop hbefore
  rcases mem_setLoop hloop with hold | ⟨origin, horigin, htid, rfl⟩
  · exact hbase.loops loop hold hbefore
  · exact hnewest origin horigin htid

theorem DumpSession.Isolated.removeTask {dump : DumpSession} (hdump : dump.Isolated)
    (time : UInt64) : (dump.removeTraceDumpTask time).Isolated := by
  refine { hdump with tasks := ?_ }
  intro task htask
  exact hdump.tasks task (List.mem_filter.mp htask).1

/-- A step of a loop leaves the session and its processes alone. -/
theorem waitAsyncDumpRetLoop_frame (dump : DumpSession) (loop : WaitLoop)
    (read : Option (UInt64 × TraceDumpStatus)) :
    (waitAsyncDumpRetLoop dump loop read).session = dump.session ∧
      (waitAsyncDumpRetLoop dump loop read).processes = dump.processes := by
  unfold waitAsyncDumpRetLoop
  split
  · exact ⟨rfl, rfl⟩
  · split <;> exact ⟨rfl, rfl⟩
  · split <;> exact ⟨rfl, rfl⟩
  all_goals exact ⟨rfl, rfl⟩

theorem DumpSession.Isolated.loopStep {dump : DumpSession} (hdump : dump.Isolated)
    (hnumbered : dump.Numbered) {loop : WaitLoop} (hmem : loop ∈ dump.loops)
    (read : Option (UInt64 × TraceDumpStatus)) :
    (waitAsyncDumpRetLoop dump loop read).Isolated := by
  have hnewest (hpc : loop.pc ≠ .storeTid) : ∀ other ∈ dump.loops,
      other.tid = loop.tid → other.session = dump.session := by
    intro other hother htid
    rw [hnumbered.eq_of_tid hmem hother htid]
    exact hdump.loops loop hmem hpc
  unfold waitAsyncDumpRetLoop
  split
  · next hpc =>
      apply DumpSession.Isolated.setLoop
      · exact ⟨hdump.fifo, hdump.loops, hdump.pid, hdump.tasks⟩
      · exact hnewest (hpc ▸ nofun)
  · next hpc =>
      split <;> exact hdump.setLoop (hnewest (hpc ▸ nofun))
  · next hpc =>
      split <;> exact hdump.setLoop (hnewest (hpc ▸ nofun))
  · next hpc =>
      apply DumpSession.Isolated.setLoop
      · exact hdump.removeTask _
      · exact hnewest (hpc ▸ nofun)
  · next hpc =>
      apply DumpSession.Isolated.setLoop
      · exact ⟨hdump.fifo, hdump.loops, nofun, hdump.tasks⟩
      · exact hnewest (hpc ▸ nofun)
  · next hpc =>
      apply DumpSession.Isolated.setLoop
      · exact ⟨hdump.fifo, hdump.loops, hdump.pid, nofun⟩
      · exact hnewest (hpc ▸ nofun)
  · next hpc =>
      apply DumpSession.Isolated.setLoop
      · exact ⟨nofun, hdump.loops, hdump.pid, hdump.tasks⟩
      · exact hnewest (hpc ▸ nofun)
  · refine { hdump with loops := ?_ }
    intro other hother
    exact hdump.loops other (List.mem_filter.mp hother).1

/-- What the call knows survives a step that keeps its session and its server. -/
theorem AsyncCall.Isolated.keep {dump next : DumpSession} {call : AsyncCall}
    (hcall : call.Isolated dump) (hsession : next.session = dump.session)
    (hserves : ∀ server session, dump.Serves server session →
      next.Serves server session) : call.Isolated next := by
  refine ⟨hcall.unopened, ?_, ?_⟩
  · rw [hsession]
    exact hcall.pipe
  · intro hpc
    obtain ⟨server, session, hserver, hpipe, hserved⟩ := hcall.served hpc
    exact ⟨server, session, hserver, hpipe, hserves server session hserved⟩

theorem AsyncCall.Isolated.loopStep {dump : DumpSession} {call : AsyncCall}
    (hcall : call.Isolated dump) (loop : WaitLoop)
    (read : Option (UInt64 × TraceDumpStatus)) :
    call.Isolated (waitAsyncDumpRetLoop dump loop read) := by
  obtain ⟨hsession, hprocesses⟩ := waitAsyncDumpRetLoop_frame dump loop read
  refine hcall.keep hsession ?_
  intro server session hserves
  rw [DumpSession.Serves, hprocesses]
  exact hserves

namespace AsyncSession

structure Isolated (state : AsyncSession) : Prop where
  dump : state.dump.Isolated
  numbered : state.dump.Numbered
  call : ∀ call, state.call = some call → call.Isolated state.dump

/-- Sessions stay apart: none begins while a `WaitAsyncDumpRetLoop` has its
clean-up before it, and no call relies on the tid of a loop behind its exit test. -/
def SessionsApart (state : AsyncSession) : Label → Prop
  | .callStep _ => ∀ call ∈ state.call, call.Apart state.dump
  | _ => True

instance (state : AsyncSession) : DecidablePred state.SessionsApart
  | .callStep _ => inferInstanceAs (Decidable (∀ call ∈ state.call, call.Apart state.dump))
  | .dumpTraceAsync _ _ | .loopStep _ _ | .childOpen _ | .processDies _ | .sigChld =>
      isTrue trivial

theorem isolated_step {state next : AsyncSession} {label : Label}
    (hisolated : state.Isolated) (hapart : state.SessionsApart label)
    (hstep : state.step label = some next) : next.Isolated := by
  obtain ⟨hdump, hnumbered, hheld⟩ := hisolated
  have hnext := numbered_step hnumbered hstep
  cases sessionStep_of_step hstep with
  | replied _ _ => exact ⟨hdump, hnext, hheld⟩
  | refused _ _ => exact ⟨hdump, hnext, hheld⟩
  | admitted _ _ =>
      refine ⟨hdump, hnext, ?_⟩
      intro call hcall
      cases hcall
      exact ⟨fun _ => rfl, fun _ h => (nomatch h), fun h => (nomatch h)⟩
  | register hcall hpc =>
      refine ⟨hdump, hnext, ?_⟩
      intro after hafter
      cases hafter
      exact Isolated.quietCall (hheld _ hcall) rfl (fun _ => hpc ▸ rfl) rfl
  | answer hcall hpc =>
      unfold answer
      split <;> exact ⟨hdump, hnumbered, fun _ h => (nomatch h)⟩
  | process hcall _ hprocess =>
      have hold := hheld _ hcall
      refine ⟨Isolated.processDump hdump hold (hapart _ hcall) hprocess, hnext, ?_⟩
      intro after hafter
      cases hafter
      exact Isolated.processCall hdump hold hprocess
  | loop hmem =>
      exact ⟨hdump.loopStep hnumbered hmem _, hnext,
        fun call hcall => (hheld call hcall).loopStep _ _⟩
  | @finish loop time hmem _ _ =>
      let read := some (time, TraceDumpStatus.writeDone)
      exact ⟨hdump.loopStep hnumbered hmem read, hnext,
        fun call hcall => (hheld call hcall).loopStep loop read⟩
  | childOpen =>
      refine ⟨⟨hdump.fifo, hdump.loops, hdump.pid, hdump.tasks⟩, hnext, ?_⟩
      intro call hcall
      refine (hheld call hcall).keep rfl ?_
      intro server session hserves
      refine serves_map hserves ?_ ?_
      · intro process
        split <;> rfl
      · intro process hopened
        split
        · next hunopened => exact nomatch hunopened.2.symm.trans hopened
        · exact hopened
  | processDies =>
      refine ⟨⟨hdump.fifo, hdump.loops, hdump.pid, hdump.tasks⟩, hnext, ?_⟩
      intro call hcall
      exact (hheld call hcall).keep rfl fun _ _ hserves => serves_kill hserves _
  | sigChld hpid =>
      refine ⟨⟨hdump.fifo, hdump.loops, ?_, hdump.tasks⟩, hnext, ?_⟩
      · intro pid hset
        rcases hpid with rfl | rfl
        · exact hdump.pid pid hset
        · exact nomatch hset
      · intro call hcall
        exact (hheld call hcall).keep rfl fun _ _ hserves => hserves

/-- Nothing of a session newer than `session` is gone in `next`. -/
structure Keeps (session : Nat) (dump next : DumpSession) : Prop where
  pid : ∀ pid, session < pid → dump.traceDumpTaskPid = some pid →
    next.traceDumpTaskPid = some pid
  task : ∀ task ∈ dump.traceDumpTaskVec, session < task.session →
    task ∈ next.traceDumpTaskVec
  fifo : ∀ fifo, session < fifo → dump.fifo = some fifo → next.fifo = some fifo

/-- The clean-up of a loop spares what is newer, and a call that goes on to answer
ASYNC_DUMP has a loop that reads the fifo of its process. -/
structure StepIsolated (state : AsyncSession) (label : Label) (next : AsyncSession) :
    Prop where
  cleanup : ∀ loop ∈ state.dump.loops, loop.leaving = true →
    ∀ read, label = .loopStep loop.tid read →
      Keeps loop.session state.dump next.dump
  waited : ∀ call outcome, state.call = some call → call.pc = .asyncTest →
    label = .callStep outcome →
      ∃ loop ∈ next.dump.loops, loop.leaving = false ∧
        ∃ process ∈ next.dump.processes, call.server = some process.session ∧
          process.fifo = some loop.session

theorem keeps_of_isolated {dump : DumpSession} (hdump : dump.Isolated)
    (next : DumpSession) : Keeps dump.session dump next := by
  refine ⟨?_, ?_, ?_⟩
  · intro pid hnewer hpid
    exact absurd (hdump.pid pid hpid) (Nat.not_le.mpr hnewer)
  · intro task htask hnewer
    exact absurd (hdump.tasks task htask) (Nat.not_le.mpr hnewer)
  · intro fifo hnewer hfifo
    exact absurd (hdump.fifo fifo hfifo) (Nat.ne_of_gt hnewer)

theorem keeps_of_leaving {dump : DumpSession} (hdump : dump.Isolated)
    {loop : WaitLoop} (hmem : loop ∈ dump.loops)
    (read : Option (UInt64 × TraceDumpStatus)) :
    Keeps loop.session dump (waitAsyncDumpRetLoop dump loop read) := by
  by_cases hpc : loop.pc = .storeTid
  · unfold waitAsyncDumpRetLoop
    rw [hpc]
    exact ⟨fun _ _ hpid => hpid, fun _ htask _ => htask, fun _ _ hfifo => hfifo⟩
  · rw [hdump.loops loop hmem hpc]
    exact keeps_of_isolated hdump _

theorem waited_of_asyncTest {dump next : DumpSession} {call after : AsyncCall}
    (hdump : dump.Isolated) (hcall : call.Isolated dump) (hapart : call.Apart dump)
    (hpc : call.pc = .asyncTest) (hstep : ProcessStep dump call next after) :
    ∃ loop ∈ next.loops, loop.leaving = false ∧
      ∃ process ∈ next.processes, call.server = some process.session ∧
        process.fifo = some loop.session := by
  obtain ⟨server, session, hserver, hpipe, process, hprocess, rfl, hfifo⟩ :=
    hcall.served hpc
  have hsession := hcall.pipe session hpipe
  cases hstep with
  | spawn _ hopened _ =>
      cases hpipe.symm.trans hopened
      exact ⟨_, List.mem_append_right _ (List.mem_singleton_self _), rfl,
        process, hprocess, hserver, hfifo⟩
  | found _ htid =>
      obtain ⟨loop, hloop, hleaving⟩ := hapart.2 hpc (htid ▸ nofun)
      have hnewest := hdump.loops loop hloop (WaitLoop.not_storeTid hleaving)
      refine ⟨loop, hloop, hleaving, process, hprocess, hserver, ?_⟩
      rw [hfifo, hsession, hnewest]
  | quiet _ hfrom _ => exact absurd hpc hfrom
  | clearPipe hother => exact nomatch hpc.symm.trans hother
  | initPipe hother => exact nomatch hpc.symm.trans hother
  | forked hother => exact nomatch hpc.symm.trans hother
  | assignPid hother => exact nomatch hpc.symm.trans hother
  | addTask hother => exact nomatch hpc.symm.trans hother
  | openPipe hother _ => exact nomatch hpc.symm.trans hother
  | timeout hother => exact nomatch hpc.symm.trans hother
  | finished hother _ => exact nomatch hpc.symm.trans hother
  | toAsyncTest hother _ _ => exact nomatch hpc.symm.trans hother

theorem stepIsolated {state next : AsyncSession} {label : Label}
    (hisolated : state.Isolated) (hapart : state.SessionsApart label)
    (hstep : state.step label = some next) : StepIsolated state label next := by
  have hsession := sessionStep_of_step hstep
  refine ⟨?_, ?_⟩
  · intro loop hmem _ read hlabel
    rw [hlabel] at hsession
    generalize htid : loop.tid = tid at hsession
    cases hsession with
    | loop hother =>
        cases hisolated.numbered.eq_of_tid hmem hother htid.symm
        exact keeps_of_leaving hisolated.dump hmem _
    | @finish _ time hother _ _ =>
        cases hisolated.numbered.eq_of_tid hmem hother htid.symm
        exact keeps_of_leaving hisolated.dump hmem (some (time, .writeDone))
  · intro call outcome hcall hpc hlabel
    subst hlabel
    cases hsession with
    | register hother hregister =>
        cases hcall.symm.trans hother
        exact nomatch hpc.symm.trans hregister
    | answer hother hanswer =>
        cases hcall.symm.trans hother
        exact nomatch hpc.symm.trans hanswer
    | process hother _ hprocess =>
        cases hcall.symm.trans hother
        exact waited_of_asyncTest hisolated.dump (hisolated.call _ hcall)
          (hapart _ hcall) hpc hprocess

theorem isolated_init : Isolated {} where
  dump := ⟨fun _ h => (nomatch h), fun _ h => (nomatch h), fun _ h => (nomatch h),
    fun _ h => (nomatch h)⟩
  numbered := ⟨fun _ h => (nomatch h), .nil⟩
  call := fun _ h => (nomatch h)

end AsyncSession

open AsyncSession in
/-- Every step of a run that keeps its sessions apart is isolated. -/
theorem sessions_isolated {labels : List Label} {label : Label}
    {state next : AsyncSession}
    (hobeys : asyncSession.Obeys SessionsApart {} (labels ++ [label]))
    (hrun : asyncSession.run {} labels = some state)
    (hstep : asyncSession.step state label = some next) :
    StepIsolated state label next := by
  obtain ⟨hbefore, hapart⟩ := (asyncSession.obeys_concat label hrun).mp hobeys
  have hisolated : state.Isolated :=
    asyncSession.invariant_of_obeys
      (fun _ _ _ hstate hallowed htaken => isolated_step hstate hallowed htaken)
      isolated_init hbefore hrun
  exact stepIsolated hisolated hapart hstep

namespace AsyncSession

/-- The process of the first session dies, and its loop takes its exit branch while the
second call stands between its tests and its `InitTraceDumpPipe`. -/
def secondSession : List Label :=
  forkingCall ++
    [Label.callStep .ok, .callStep .ok, .loopStep 0 none, .processDies 1,
      .dumpTraceAsync ⟨TraceMode.modeOpen, ⟨false, false⟩, true, 0, 0, 9, 3, true⟩ 2] ++
    List.replicate 6 (Label.callStep .ok) ++ List.replicate 4 (Label.loopStep 0 none) ++
    List.replicate 4 (Label.callStep .ok)

/-- The old loop stores its tid, and the call comes to the test of `g_asyncWaitTid`. -/
def secondSessionServed : List Label :=
  secondSession ++
    [Label.loopStep 0 none, .childOpen 2, .callStep .ok, .callStep .ok,
      .callStep (.reply ⟨2, 2, .success, .readDone, false⟩)]

end AsyncSession

open AsyncSession in
/-- The last step of the old loop spares the pid, the task and the fifo of the second
session, and the call of the second session starts a loop of its own. -/
theorem sessions_isolated_second_session :
    (∃ state next, asyncSession.run {} secondSession = some state ∧
      state.dump.loops = [⟨0, 1, 0, .storeTid⟩] ∧ state.dump.fifo = some 2 ∧
      state.dump.traceDumpTaskPid = some 2 ∧ state.dump.traceDumpTaskVec = [⟨2, 2⟩] ∧
      asyncSession.step state (.loopStep 0 none) = some next ∧
      StepIsolated state (.loopStep 0 none) next) ∧
    ∃ state next, asyncSession.run {} secondSessionServed = some state ∧
      asyncSession.step state (.callStep .ok) = some next ∧
      next.dump.loops = [⟨1, 2, 0, .starting⟩] ∧
      StepIsolated state (.callStep .ok) next := by
  constructor
  · have hrun : ((asyncSession.run {} secondSession).bind fun state =>
        (asyncSession.step state (.loopStep 0 none)).map fun _ =>
          (state.dump.loops, state.dump.fifo, state.dump.traceDumpTaskPid,
            state.dump.traceDumpTaskVec)) =
          some ([⟨0, 1, 0, .storeTid⟩], some 2, some 2, [⟨2, 2⟩]) := by
      decide +kernel
    obtain ⟨state, hstate, hnext⟩ := Option.bind_eq_some_iff.mp hrun
    obtain ⟨next, hstep, heq⟩ := Option.map_eq_some_iff.mp hnext
    obtain ⟨hloops, heq⟩ := Prod.mk.inj heq
    obtain ⟨hfifo, heq⟩ := Prod.mk.inj heq
    obtain ⟨hpid, htasks⟩ := Prod.mk.inj heq
    have hobeys : asyncSession.Obeys SessionsApart {}
        (secondSession ++ [Label.loopStep 0 none]) := by
      decide +kernel
    exact ⟨state, next, hstate, hloops, hfifo, hpid, htasks, hstep,
      sessions_isolated hobeys hstate hstep⟩
  · have hrun : ((asyncSession.run {} secondSessionServed).bind fun state =>
        (asyncSession.step state (.callStep .ok)).map fun next => next.dump.loops) =
          some [⟨1, 2, 0, .starting⟩] := by
      decide +kernel
    obtain ⟨state, hstate, hnext⟩ := Option.bind_eq_some_iff.mp hrun
    obtain ⟨next, hstep, hloops⟩ := Option.map_eq_some_iff.mp hnext
    have hobeys : asyncSession.Obeys SessionsApart {}
        (secondSessionServed ++ [Label.callStep .ok]) := by
      decide +kernel
    exact ⟨state, next, hstate, hstep, hloops, sessions_isolated hobeys hstate hstep⟩

open AsyncSession in
/-- The loop of a dead process, behind its exit test, clears the task that a new
session has added. -/
theorem cleanup_removes_new_task :
    ¬ ∀ (labels : List Label) (label : Label) (state next : AsyncSession),
      asyncSession.run {} labels = some state →
      asyncSession.step state label = some next → StepIsolated state label next := by
  intro hclaim
  let labels : List Label :=
    forkingCall ++
      [Label.callStep .ok, .callStep .ok, .loopStep 0 none, .processDies 1,
        .loopStep 0 none, .loopStep 0 none,
        .dumpTraceAsync ⟨TraceMode.modeOpen, ⟨false, false⟩, true, 0, 0, 9, 3, true⟩ 2] ++
      List.replicate 10 (Label.callStep .ok)
  have hrun : ((asyncSession.run {} labels).bind fun state =>
      (asyncSession.step state (.loopStep 0 none)).map fun next =>
        (state.dump.loops, state.dump.traceDumpTaskVec,
          next.dump.traceDumpTaskVec)) =
        some ([⟨0, 1, 0, .clearTask⟩], [⟨1, 1⟩, ⟨2, 2⟩], []) := by
    decide +kernel
  obtain ⟨state, hstate, hnext⟩ := Option.bind_eq_some_iff.mp hrun
  obtain ⟨next, hstep, heq⟩ := Option.map_eq_some_iff.mp hnext
  obtain ⟨hloops, htasks⟩ := Prod.mk.inj heq
  obtain ⟨hbefore, hafter⟩ := Prod.mk.inj htasks
  have hcleanup := (hclaim labels (.loopStep 0 none) state next hstate hstep).cleanup
    ⟨0, 1, 0, .clearTask⟩ (by rw [hloops]; exact List.mem_singleton_self _) rfl none rfl
  have hkept := hcleanup.task ⟨2, 2⟩ (by rw [hbefore]; decide) (by decide)
  rw [hafter] at hkept
  exact nomatch hkept

end Hitrace
