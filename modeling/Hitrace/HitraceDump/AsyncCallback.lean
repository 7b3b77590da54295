import Hitrace.HitraceDump.SessionStep
import Hitrace.Library.Ledger

namespace Hitrace

open Library

/-! The callbacks are a ledger: `g_callbacks` holds those that wait, and a callback
is discharged by being invoked. -/

namespace AsyncSession

def ledger (state : AsyncSession) : Ledger UInt64 Nat :=
  { pending := Option.join ∘ state.callbacks, done := state.invoked }

def callback (asyncCallback : Bool) (number : Nat) : Option Nat :=
  if asyncCallback then some number else none

theorem replyIfNeeded_eq (asyncCallback : Bool) (number : Nat) :
    replyIfNeeded asyncCallback number = (callback asyncCallback number).toList := by
  cases asyncCallback <;> rfl

theorem callback_eq_some {asyncCallback : Bool} {number value : Nat}
    (hcallback : callback asyncCallback number = some value) :
    asyncCallback = true ∧ number = value := by
  cases asyncCallback with
  | false => exact nomatch hcallback
  | true => exact ⟨rfl, Option.some.inj hcallback⟩

theorem ledger_register (state : AsyncSession) (call : AsyncCall) :
    (state.register call).ledger =
      state.ledger.enter call.taskid (callback call.asyncCallback call.number) :=
  Ledger.ext (Function.comp_update Option.join state.callbacks call.taskid _) rfl

theorem ledger_finishTask (state : AsyncSession) (time : UInt64) :
    (state.finishTask time).ledger = state.ledger.settle time := by
  refine Ledger.ext (Function.comp_update Option.join state.callbacks time none) ?_
  show state.invoked ++ _ = state.invoked ++ (state.callbacks time).join.toList
  rcases state.callbacks time with _ | _ | number <;> rfl

theorem ledger_answer {state : AsyncSession} {call : AsyncCall} {code : TraceErrorCode}
    (hentry : state.callbacks call.taskid =
      some (callback call.asyncCallback call.number)) (hcode : code ≠ .asyncDump) :
    (state.answer call code).ledger = state.ledger.settle call.taskid := by
  unfold answer
  rw [if_neg hcode]
  refine Ledger.ext
    (Function.comp_update Option.join state.callbacks call.taskid none) ?_
  show state.invoked ++ _ = state.invoked ++ (state.callbacks call.taskid).join.toList
  rw [hentry, replyIfNeeded_eq, Option.join_some]

/-! What is known of a call, in progress or returned. -/

def Settled (state : AsyncSession) (call : ReturnedCall) : Prop :=
  call.number ∈ state.invoked ∧ ∀ taskid, call.taskid = some taskid →
    state.callbacks taskid = none ∧ state.traceRetInfos taskid = false

def Pending (state : AsyncSession) (call : ReturnedCall) : Prop :=
  ∃ taskid, call.taskid = some taskid ∧
    state.callbacks taskid = some (some call.number) ∧
      state.traceRetInfos taskid = true

structure Booked (state : AsyncSession) (call : AsyncCall) : Prop where
  number : call.number < state.calls
  known : call.taskid ∈ state.taskids
  apart : ∀ returned ∈ state.returned, returned.taskid ≠ some call.taskid
  noRetInfo : state.traceRetInfos call.taskid = false
  unknown : call.pc = .register → state.ledger.Unknown call.number
  entered : call.pc ≠ .register → state.callbacks call.taskid =
    some (callback call.asyncCallback call.number)

structure Books (state : AsyncSession) : Prop where
  kept : state.ledger.Kept
  fresh : ∀ number, state.calls ≤ number → state.ledger.Unknown number
  retInfos : ∀ taskid, state.traceRetInfos taskid = true → taskid ∈ state.taskids
  known : ∀ call ∈ state.returned, ∀ taskid, call.taskid = some taskid →
    taskid ∈ state.taskids
  returned : ∀ call ∈ state.returned, call.asyncCallback = true →
    state.Settled call ∨ state.Pending call
  call : ∀ call, state.call = some call → state.Booked call

/-- A returned call stays answered while its entries stay as they are. -/
theorem answered_keep {state next : AsyncSession} {call : ReturnedCall}
    (hanswered : state.Settled call ∨ state.Pending call)
    (hinvoked : ∀ number ∈ state.invoked, number ∈ next.invoked)
    (hentries : ∀ taskid, call.taskid = some taskid →
      next.callbacks taskid = state.callbacks taskid ∧
        next.traceRetInfos taskid = state.traceRetInfos taskid) :
    next.Settled call ∨ next.Pending call := by
  rcases hanswered with ⟨hdone, hgone⟩ | ⟨taskid, htaskid, hwaits, hret⟩
  · refine .inl ⟨hinvoked _ hdone, ?_⟩
    intro taskid htaskid
    rw [(hentries taskid htaskid).1, (hentries taskid htaskid).2]
    exact hgone taskid htaskid
  · refine .inr ⟨taskid, htaskid, ?_, ?_⟩
    · rw [(hentries taskid htaskid).1]
      exact hwaits
    · rw [(hentries taskid htaskid).2]
      exact hret

/-- The two maps are changed for `other` only. -/
theorem answered_update {state next : AsyncSession} {call : ReturnedCall}
    {other : UInt64} (hanswered : state.Settled call ∨ state.Pending call)
    (hapart : call.taskid ≠ some other)
    (hinvoked : ∀ number ∈ state.invoked, number ∈ next.invoked)
    (hcallbacks : ∀ taskid ≠ other, next.callbacks taskid = state.callbacks taskid)
    (hretInfos : ∀ taskid ≠ other,
      next.traceRetInfos taskid = state.traceRetInfos taskid) :
    next.Settled call ∨ next.Pending call := by
  refine answered_keep hanswered hinvoked ?_
  intro taskid htaskid
  have hne : taskid ≠ other := fun heq => hapart (heq ▸ htaskid)
  exact ⟨hcallbacks taskid hne, hretInfos taskid hne⟩

theorem Books.withDump {state : AsyncSession} (hbooks : state.Books)
    (dump : DumpSession) : Books { state with dump } := by
  refine ⟨hbooks.kept, hbooks.fresh, hbooks.retInfos, hbooks.known, hbooks.returned, ?_⟩
  intro call hcall
  have hbooked := hbooks.call call hcall
  exact ⟨hbooked.number, hbooked.known, hbooked.apart, hbooked.noRetInfo,
    hbooked.unknown, hbooked.entered⟩

theorem Books.replied {state : AsyncSession} (hbooks : state.Books)
    (hidle : state.call = none) (asyncCallback : Bool) :
    Books
      { state with
        calls := state.calls + 1
        returned := state.returned ++ [⟨state.calls, asyncCallback, none⟩]
        invoked := state.invoked ++ replyIfNeeded asyncCallback state.calls } := by
  rw [replyIfNeeded_eq]
  refine ⟨?_, ?_, hbooks.retInfos, ?_, ?_, ?_⟩
  · refine hbooks.kept.record ?_
    intro value hvalue
    exact hbooks.fresh value (Nat.le_of_eq (callback_eq_some hvalue).2)
  · intro number hnumber
    refine (hbooks.fresh number (Nat.le_of_succ_le hnumber)).record ?_
    intro hcallback
    exact Nat.ne_of_lt hnumber (callback_eq_some hcallback).2
  · intro call hcall taskid htaskid
    rcases List.mem_append.mp hcall with hold | hnew
    · exact hbooks.known call hold taskid htaskid
    · cases List.mem_singleton.mp hnew
      exact nomatch htaskid
  · intro call hcall hasync
    rcases List.mem_append.mp hcall with hold | hnew
    · refine answered_keep (hbooks.returned call hold hasync) ?_ ?_
      · exact fun number hmem => List.mem_append_left _ hmem
      · exact fun _ _ => ⟨rfl, rfl⟩
    · cases List.mem_singleton.mp hnew
      cases hasync
      refine .inl ⟨List.mem_append_right _ (List.mem_singleton_self _), ?_⟩
      exact fun _ htaskid => (nomatch htaskid)
  · intro call hcall
    exact nomatch hidle.symm.trans hcall

theorem Books.refused {state : AsyncSession} (hbooks : state.Books)
    (hidle : state.call = none) {asyncCallback : Bool}
    (hnull : asyncCallback = false) :
    Books
      { state with
        calls := state.calls + 1
        returned := state.returned ++ [⟨state.calls, asyncCallback, none⟩] } := by
  refine ⟨hbooks.kept, ?_, hbooks.retInfos, ?_, ?_, ?_⟩
  · intro number hnumber
    exact hbooks.fresh number (Nat.le_of_succ_le hnumber)
  · intro call hcall taskid htaskid
    rcases List.mem_append.mp hcall with hold | hnew
    · exact hbooks.known call hold taskid htaskid
    · cases List.mem_singleton.mp hnew
      exact nomatch htaskid
  · intro call hcall hasync
    rcases List.mem_append.mp hcall with hold | hnew
    · exact hbooks.returned call hold hasync
    · cases List.mem_singleton.mp hnew
      exact nomatch hnull.symm.trans hasync
  · intro call hcall
    exact nomatch hidle.symm.trans hcall

theorem Books.admitted {state : AsyncSession} (hbooks : state.Books)
    {taskid : UInt64} (hfresh : taskid ∉ state.taskids) (asyncCallback : Bool) :
    Books
      { state with
        call := some { number := state.calls, asyncCallback, taskid }
        calls := state.calls + 1
        taskids := state.taskids ++ [taskid] } := by
  refine ⟨hbooks.kept, ?_, ?_, ?_, hbooks.returned, ?_⟩
  · intro number hnumber
    exact hbooks.fresh number (Nat.le_of_succ_le hnumber)
  · intro other hother
    exact List.mem_append_left _ (hbooks.retInfos other hother)
  · intro call hcall other hother
    exact List.mem_append_left _ (hbooks.known call hcall other hother)
  · intro call hcall
    cases hcall
    refine ⟨Nat.lt_succ_self _, List.mem_append_right _ (List.mem_singleton_self _),
      ?_, ?_, ?_, ?_⟩
    · intro returned hreturned htaskid
      exact hfresh (hbooks.known returned hreturned taskid htaskid)
    · exact Bool.eq_false_iff.mpr fun hret => hfresh (hbooks.retInfos taskid hret)
    · exact fun _ => hbooks.fresh state.calls (Nat.le_refl _)
    · exact fun hpc => absurd rfl hpc

theorem Books.register {state : AsyncSession} (hbooks : state.Books)
    {call : AsyncCall} (hcall : state.call = some call) (hpc : call.pc = .register) :
    (state.register call).Books := by
  have hbooked := hbooks.call call hcall
  refine ⟨?_, ?_, hbooks.retInfos, hbooks.known, ?_, ?_⟩
  · rw [ledger_register]
    refine hbooks.kept.enter call.taskid ?_
    intro value hvalue
    exact (callback_eq_some hvalue).2 ▸ hbooked.unknown hpc
  · intro number hnumber
    rw [ledger_register]
    refine (hbooks.fresh number hnumber).enter call.taskid ?_
    intro hcallback
    exact absurd (callback_eq_some hcallback).2
      (Nat.ne_of_lt (Nat.lt_of_lt_of_le hbooked.number hnumber))
  · intro returned hreturned hasync
    exact answered_update (hbooks.returned returned hreturned hasync)
      (hbooked.apart returned hreturned) (fun _ hmem => hmem)
      (fun _ hne => Function.update_of_ne hne _ _) (fun _ _ => rfl)
  · intro after hafter
    cases hafter
    exact ⟨hbooked.number, hbooked.known, hbooked.apart, hbooked.noRetInfo,
      fun hregister => (nomatch hregister), fun _ => Function.update_self ..⟩

theorem Books.answerAsync {state : AsyncSession} (hbooks : state.Books)
    {call : AsyncCall} (hcall : state.call = some call)
    (hpc : call.pc = .answer .asyncDump) :
    (state.answer call .asyncDump).Books := by
  have hbooked := hbooks.call call hcall
  refine ⟨hbooks.kept, hbooks.fresh, ?_, ?_, ?_, fun _ hother => (nomatch hother)⟩
  · intro taskid hret
    by_cases htaskid : taskid = call.taskid
    · exact htaskid ▸ hbooked.known
    · exact hbooks.retInfos taskid ((Function.update_of_ne htaskid _ _).symm.trans hret)
  · intro returned hreturned taskid htaskid
    rcases List.mem_append.mp hreturned with hold | hnew
    · exact hbooks.known returned hold taskid htaskid
    · cases List.mem_singleton.mp hnew
      exact Option.some.inj htaskid ▸ hbooked.known
  · intro returned hreturned hasync
    rcases List.mem_append.mp hreturned with hold | hnew
    · exact answered_update (hbooks.returned returned hold hasync)
        (hbooked.apart returned hold) (fun _ hmem => hmem) (fun _ _ => rfl)
        (fun _ hne => Function.update_of_ne hne _ _)
    · cases List.mem_singleton.mp hnew
      refine .inr ⟨call.taskid, rfl, ?_, Function.update_self ..⟩
      refine (hbooked.entered (hpc ▸ nofun)).trans ?_
      rw [callback, if_pos hasync]

theorem Books.answer {state : AsyncSession} (hbooks : state.Books)
    {call : AsyncCall} (hcall : state.call = some call) {code : TraceErrorCode}
    (hpc : call.pc = .answer code) (hcode : code ≠ .asyncDump) :
    (state.answer call code).Books := by
  have hbooked := hbooks.call call hcall
  have hentry := hbooked.entered (hpc ▸ nofun)
  have hledger := ledger_answer hentry hcode
  have hanswer : state.answer call code =
      { state with
        call := none
        returned := state.returned ++
          [⟨call.number, call.asyncCallback, some call.taskid⟩]
        invoked := state.invoked ++ replyIfNeeded call.asyncCallback call.number
        callbacks := Function.update state.callbacks call.taskid none } :=
    if_neg hcode
  refine ⟨?_, ?_, ?_, ?_, ?_, ?_⟩
  · rw [hledger]
    exact hbooks.kept.settle call.taskid
  · rw [hledger, hanswer]
    exact fun number hnumber => (hbooks.fresh number hnumber).settle call.taskid
  · rw [hanswer]
    exact hbooks.retInfos
  · rw [hanswer]
    intro returned hreturned taskid htaskid
    rcases List.mem_append.mp hreturned with hold | hnew
    · exact hbooks.known returned hold taskid htaskid
    · cases List.mem_singleton.mp hnew
      exact Option.some.inj htaskid ▸ hbooked.known
  · rw [hanswer]
    intro returned hreturned hasync
    rcases List.mem_append.mp hreturned with hold | hnew
    · exact answered_update (hbooks.returned returned hold hasync)
        (hbooked.apart returned hold) (fun _ hmem => List.mem_append_left _ hmem)
        (fun _ hne => Function.update_of_ne hne _ _) (fun _ _ => rfl)
    · cases List.mem_singleton.mp hnew
      refine .inl ⟨List.mem_append_right _ ?_, ?_⟩
      · rw [replyIfNeeded, if_pos hasync]
        exact List.mem_singleton_self _
      · intro taskid htaskid
        cases htaskid
        exact ⟨Function.update_self .., hbooked.noRetInfo⟩
  · rw [hanswer]
    exact fun _ hother => (nomatch hother)

theorem Books.finishTask {state : AsyncSession} (hbooks : state.Books)
    (hfree : state.retMutexFree = true) (time : UInt64) :
    (state.finishTask time).Books := by
  refine ⟨?_, ?_, ?_, hbooks.known, ?_, ?_⟩
  · rw [ledger_finishTask]
    exact hbooks.kept.settle time
  · rw [ledger_finishTask]
    exact fun number hnumber => (hbooks.fresh number hnumber).settle time
  · intro taskid hret
    by_cases htaskid : taskid = time
    · subst htaskid
      exact nomatch (Function.update_self ..).symm.trans hret
    · exact hbooks.retInfos taskid ((Function.update_of_ne htaskid _ _).symm.trans hret)
  · intro returned hreturned hasync
    have hanswered := hbooks.returned returned hreturned hasync
    by_cases htime : returned.taskid = some time
    · refine .inl ⟨?_, ?_⟩
      · rcases hanswered with ⟨hdone, _⟩ | ⟨taskid, htaskid, hwaits, _⟩
        · exact List.mem_append_left _ hdone
        · cases htime.symm.trans htaskid
          refine List.mem_append_right _ ?_
          rw [hwaits]
          exact List.mem_singleton_self _
      · intro taskid htaskid
        cases htime.symm.trans htaskid
        exact ⟨Function.update_self .., Function.update_self ..⟩
    · exact answered_update hanswered htime (fun _ hmem => List.mem_append_left _ hmem)
        (fun _ hne => Function.update_of_ne hne _ _)
        (fun _ hne => Function.update_of_ne hne _ _)
  · intro call hcall
    have hbooked := hbooks.call call hcall
    have hpc : call.pc = .register := by
      rw [retMutexFree, show state.call = some call from hcall] at hfree
      exact of_decide_eq_true hfree
    refine ⟨hbooked.number, hbooked.known, hbooked.apart, ?_, ?_,
      fun hentered => absurd hpc hentered⟩
    · by_cases htaskid : call.taskid = time
      · exact htaskid ▸ Function.update_self ..
      · exact (Function.update_of_ne htaskid _ _).trans hbooked.noRetInfo
    · intro hregister
      rw [ledger_finishTask]
      exact (hbooked.unknown hregister).settle time

theorem processStep_call {dump next : DumpSession} {call after : AsyncCall}
    (hstep : ProcessStep dump call next after) :
    after.number = call.number ∧ after.asyncCallback = call.asyncCallback ∧
      after.taskid = call.taskid ∧ after.pc ≠ .register := by
  cases hstep with
  | @quiet pc _ _ _ hpc _ _ =>
      refine ⟨rfl, rfl, rfl, ?_⟩
      intro (hregister : pc = .register)
      rw [hregister] at hpc
      exact nomatch hpc
  | _ => exact ⟨rfl, rfl, rfl, nofun⟩

theorem Books.process {state : AsyncSession} (hbooks : state.Books)
    {call after : AsyncCall} (hcall : state.call = some call)
    (hheld : call.pc ≠ .register) {dump : DumpSession}
    (hstep : ProcessStep state.dump call dump after) :
    Books { state with dump, call := some after } := by
  have hbooked := hbooks.call call hcall
  obtain ⟨hnumber, hasync, htaskid, hpc⟩ := processStep_call hstep
  refine ⟨hbooks.kept, hbooks.fresh, hbooks.retInfos, hbooks.known, hbooks.returned, ?_⟩
  intro other hother
  cases hother
  refine ⟨?_, ?_, ?_, ?_, fun hregister => absurd hregister hpc, fun _ => ?_⟩
  · rw [hnumber]
    exact hbooked.number
  · rw [htaskid]
    exact hbooked.known
  · rw [htaskid]
    exact hbooked.apart
  · rw [htaskid]
    exact hbooked.noRetInfo
  · rw [htaskid, hasync, hnumber]
    exact hbooked.entered hheld

/-! The waiting: some task was answered with ASYNC_DUMP and has a callback. -/

def waits (state : AsyncSession) (taskid : UInt64) : Bool :=
  (state.callbacks taskid).join.isSome && state.traceRetInfos taskid

def Waits (state : AsyncSession) : Prop :=
  (∃ taskid ∈ state.taskids, state.waits taskid = true) ∨
    ∃ call ∈ state.call, call.asyncCallback = true ∧ call.pc = .answer .asyncDump

def Watched (dump : DumpSession) : Prop :=
  ∃ loop ∈ dump.loops, loop.leaving = false

end AsyncSession

/-- The exit test of the loop comes out true in this step. -/
def WaitLoop.Exits (dump : DumpSession) (loop : WaitLoop) : Prop :=
  loop.pc = .testing ∧ (loop.emptyLoopCnt ≥ asyncWaitEmptyLoopCnt ∨
    dump.isProcessExist dump.traceDumpTaskPid = false)

def Admission.refuses : Admission → Bool
  | .refused _ => true
  | .replied | .admitted => false

namespace AsyncSession

instance (state : AsyncSession) : Decidable state.Waits :=
  inferInstanceAs (Decidable (_ ∨ _))

instance (dump : DumpSession) : Decidable (Watched dump) :=
  inferInstanceAs (Decidable (∃ loop ∈ dump.loops, _))

instance (dump : DumpSession) (loop : WaitLoop) : Decidable (loop.Exits dump) :=
  inferInstanceAs (Decidable (_ ∧ _))

/-- No call with a callback is refused, none relies on a tid when every loop has
taken its exit branch, and the last loop before its exit test does not take that
branch while a callback waits. -/
def CallbacksServed (state : AsyncSession) : Label → Prop
  | .dumpTraceAsync args _ =>
      args.asyncCallback = true → args.admission.refuses = false
  | .callStep _ => ∀ call ∈ state.call, call.asyncCallback = true →
      call.pc = .asyncTest → state.dump.asyncWaitTid ≠ none → Watched state.dump
  | .loopStep tid _ => ∀ loop ∈ state.dump.loops, loop.tid = tid →
      loop.Exits state.dump → state.Waits →
        ∃ other ∈ state.dump.loops, other.tid ≠ tid ∧ other.leaving = false
  | .childOpen _ | .processDies _ | .sigChld => True

instance (state : AsyncSession) : DecidablePred state.CallbacksServed
  | .dumpTraceAsync _ _ => inferInstanceAs (Decidable (_ → _))
  | .callStep _ => inferInstanceAs (Decidable (∀ call ∈ state.call, _))
  | .loopStep _ _ => inferInstanceAs (Decidable (∀ loop ∈ state.dump.loops, _))
  | .childOpen _ | .processDies _ | .sigChld => isTrue trivial

theorem books_step {state next : AsyncSession} {label : Label}
    (hbooks : state.Books) (hserved : state.CallbacksServed label)
    (hstep : state.step label = some next) : next.Books := by
  cases sessionStep_of_step hstep with
  | replied hidle _ => exact hbooks.replied hidle _
  | refused hidle hadmission =>
      refine hbooks.refused hidle (Bool.eq_false_iff.mpr fun hasync => ?_)
      have hanswered := hserved hasync
      rw [hadmission] at hanswered
      exact nomatch hanswered
  | admitted _ hfresh => exact hbooks.admitted hfresh _
  | register hcall hpc => exact hbooks.register hcall hpc
  | @answer call _ code hcall hpc =>
      by_cases hcode : code = .asyncDump
      · subst hcode
        exact hbooks.answerAsync hcall hpc
      · exact hbooks.answer hcall hpc hcode
  | process hcall hheld hprocess => exact hbooks.process hcall hheld hprocess
  | loop _ => exact hbooks.withDump _
  | finish _ _ hfree =>
      apply Books.finishTask
      · exact hbooks.withDump _
      · exact hfree
  | childOpen => exact hbooks.withDump _
  | processDies => exact hbooks.withDump _
  | sigChld _ => exact hbooks.withDump _

end AsyncSession

/-! What a step of a loop does to the loops. -/

theorem other_mem_loopStep {dump : DumpSession} {loop other : WaitLoop}
    (hother : other ∈ dump.loops) (htid : other.tid ≠ loop.tid)
    (read : Option (UInt64 × TraceDumpStatus)) :
    other ∈ (waitAsyncDumpRetLoop dump loop read).loops := by
  have hset {base : DumpSession} (hloops : base.loops = dump.loops)
      (emptyLoopCnt : Nat) (pc : WaitPc) :
      other ∈ (base.setLoop loop.tid emptyLoopCnt pc).loops := by
    refine List.mem_map.mpr ⟨other, hloops ▸ hother, ?_⟩
    rw [if_neg htid]
  unfold waitAsyncDumpRetLoop
  split
  · exact hset rfl _ _
  · split <;> exact hset rfl _ _
  · split <;> exact hset rfl _ _
  · exact hset rfl _ _
  · exact hset rfl _ _
  · exact hset rfl _ _
  · exact hset rfl _ _
  · exact List.mem_filter.mpr ⟨hother, decide_eq_true htid⟩

theorem self_mem_loopStep {dump : DumpSession} {loop : WaitLoop}
    (hmem : loop ∈ dump.loops) (hleaving : loop.leaving = false)
    (hstays : ¬ loop.Exits dump) (read : Option (UInt64 × TraceDumpStatus)) :
    AsyncSession.Watched (waitAsyncDumpRetLoop dump loop read) := by
  have hset {base : DumpSession} (hloops : base.loops = dump.loops)
      (emptyLoopCnt : Nat) {pc : WaitPc}
      (hpc : ({ loop with emptyLoopCnt, pc } : WaitLoop).leaving = false) :
      AsyncSession.Watched (base.setLoop loop.tid emptyLoopCnt pc) := by
    refine ⟨{ loop with emptyLoopCnt, pc }, ?_, hpc⟩
    refine List.mem_map.mpr ⟨loop, hloops ▸ hmem, ?_⟩
    rw [if_pos rfl]
  unfold WaitLoop.leaving at hleaving
  unfold waitAsyncDumpRetLoop
  split
  · exact hset rfl _ rfl
  · next hpc =>
      rw [if_neg fun hexits => hstays ⟨hpc, hexits⟩]
      exact hset rfl _ rfl
  · split <;> exact hset rfl _ rfl
  · exact hset rfl _ rfl
  all_goals
    next hpc =>
      rw [hpc] at hleaving
      exact nomatch hleaving

/-- The loops still watch after a step of one of them, unless the last does not. -/
theorem watched_loopStep {dump : DumpSession} {loop : WaitLoop}
    (hnumbered : dump.Numbered) (hmem : loop ∈ dump.loops)
    (hwatched : AsyncSession.Watched dump)
    (hexits : loop.Exits dump →
      ∃ other ∈ dump.loops, other.tid ≠ loop.tid ∧ other.leaving = false)
    (read : Option (UInt64 × TraceDumpStatus)) :
    AsyncSession.Watched (waitAsyncDumpRetLoop dump loop read) := by
  by_cases hexit : loop.Exits dump
  · obtain ⟨other, hother, htid, hleaving⟩ := hexits hexit
    exact ⟨other, other_mem_loopStep hother htid read, hleaving⟩
  · obtain ⟨other, hother, hleaving⟩ := hwatched
    by_cases htid : other.tid = loop.tid
    · cases hnumbered.eq_of_tid hmem hother htid
      exact self_mem_loopStep hmem hleaving hexit read
    · exact ⟨other, other_mem_loopStep hother htid read, hleaving⟩

theorem watched_processStep {dump next : DumpSession} {call after : AsyncCall}
    (hwatched : AsyncSession.Watched dump)
    (hstep : ProcessStep dump call next after) : AsyncSession.Watched next := by
  obtain ⟨loop, hloop, hleaving⟩ := hwatched
  cases hstep with
  | spawn _ _ _ => exact ⟨loop, List.mem_append_left _ hloop, hleaving⟩
  | _ => exact ⟨loop, hloop, hleaving⟩

/-- A step that leads to the answer ASYNC_DUMP leaves a loop to wait for it. -/
theorem watched_asyncDump {dump next : DumpSession} {call after : AsyncCall}
    (hfound : call.pc = .asyncTest → dump.asyncWaitTid ≠ none →
      AsyncSession.Watched dump)
    (hstep : ProcessStep dump call next after)
    (hanswer : after.pc = .answer .asyncDump) : AsyncSession.Watched next := by
  cases hstep with
  | @quiet pc _ _ _ hpc _ _ =>
      rw [show pc = .answer .asyncDump from hanswer] at hpc
      exact nomatch hpc
  | @finished reply _ hcode =>
      exact absurd (CallPc.answer.inj hanswer) (SyncReply.errorCode_ne hcode)
  | spawn _ _ _ => exact ⟨_, List.mem_append_right _ (List.mem_singleton_self _), rfl⟩
  | found hpc htid => exact hfound hpc (htid ▸ nofun)
  | clearPipe _ => exact nomatch hanswer
  | initPipe _ => exact nomatch hanswer
  | forked _ => exact nomatch hanswer
  | assignPid _ => exact nomatch hanswer
  | addTask _ => exact nomatch hanswer
  | openPipe _ _ => exact nomatch hanswer
  | timeout _ => exact nomatch hanswer
  | toAsyncTest _ _ _ => exact nomatch hanswer

namespace AsyncSession

theorem waits_before {state next : AsyncSession} {taskid : UInt64}
    (hwaits : next.waits taskid = true)
    (hcallbacks : next.callbacks taskid = state.callbacks taskid)
    (hretInfos : next.traceRetInfos taskid = state.traceRetInfos taskid) :
    state.waits taskid = true := by
  rw [waits, hcallbacks, hretInfos] at hwaits
  exact hwaits

theorem waits_retInfo {state : AsyncSession} {taskid : UInt64}
    (hwaits : state.waits taskid = true) : state.traceRetInfos taskid = true :=
  (Bool.and_eq_true_iff.mp hwaits).2

theorem waits_callback {state : AsyncSession} {taskid : UInt64}
    (hwaits : state.waits taskid = true) : state.callbacks taskid ≠ none := by
  intro hnone
  have hsome := (Bool.and_eq_true_iff.mp hwaits).1
  rw [hnone] at hsome
  exact nomatch hsome

theorem Waits.admitted {state : AsyncSession} (hbooks : state.Books)
    {args : DumpTraceAsync} {taskid : UInt64}
    (hwaits : Waits
      { state with
        call := some
          { number := state.calls, asyncCallback := args.asyncCallback, taskid }
        calls := state.calls + 1
        taskids := state.taskids ++ [taskid] }) : state.Waits := by
  rcases hwaits with ⟨other, _, hother⟩ | ⟨call, hcall, _, hpc⟩
  · exact .inl ⟨other, hbooks.retInfos other (waits_retInfo hother), hother⟩
  · cases hcall
    exact nomatch hpc

theorem Waits.register {state : AsyncSession} (hbooks : state.Books)
    {call : AsyncCall} (hcall : state.call = some call)
    (hwaits : (state.register call).Waits) : state.Waits := by
  rcases hwaits with ⟨taskid, hknown, htask⟩ | ⟨after, hafter, _, hpc⟩
  · have hne : taskid ≠ call.taskid := by
      intro heq
      have hret := waits_retInfo htask
      change state.traceRetInfos taskid = true at hret
      rw [heq, (hbooks.call call hcall).noRetInfo] at hret
      exact nomatch hret
    exact .inl ⟨taskid, hknown,
      waits_before htask (Function.update_of_ne hne _ _) rfl⟩
  · cases hafter
    exact nomatch hpc

theorem Waits.answerAsync {state : AsyncSession} (hbooks : state.Books)
    {call : AsyncCall} (hcall : state.call = some call)
    (hpc : call.pc = .answer .asyncDump)
    (hwaits : (state.answer call .asyncDump).Waits) : state.Waits := by
  rcases hwaits with ⟨taskid, hknown, htask⟩ | ⟨after, hafter, _⟩
  · by_cases heq : taskid = call.taskid
    · have hentry := (hbooks.call call hcall).entered (hpc ▸ nofun)
      have hsome : (state.callbacks taskid).join.isSome = true :=
        (Bool.and_eq_true_iff.mp htask).1
      rw [heq, hentry, Option.join_some] at hsome
      obtain ⟨number, hnumber⟩ := Option.isSome_iff_exists.mp hsome
      exact .inr ⟨call, hcall, (callback_eq_some hnumber).1, hpc⟩
    · exact .inl ⟨taskid, hknown,
        waits_before htask rfl (Function.update_of_ne heq _ _)⟩
  · exact nomatch hafter

theorem Waits.answer {state : AsyncSession} {call : AsyncCall} {code : TraceErrorCode}
    (hcode : code ≠ .asyncDump) (hwaits : (state.answer call code).Waits) :
    state.Waits := by
  unfold AsyncSession.answer at hwaits
  rw [if_neg hcode] at hwaits
  rcases hwaits with ⟨taskid, hknown, htask⟩ | ⟨after, hafter, _⟩
  · have hne : taskid ≠ call.taskid := by
      intro heq
      exact waits_callback htask (heq ▸ Function.update_self ..)
    exact .inl ⟨taskid, hknown,
      waits_before htask (Function.update_of_ne hne _ _) rfl⟩
  · exact nomatch hafter

theorem Waits.finishTask {state : AsyncSession} {time : UInt64}
    (hwaits : (state.finishTask time).Waits) : state.Waits := by
  rcases hwaits with ⟨taskid, hknown, htask⟩ | hcall
  · have hne : taskid ≠ time := by
      intro heq
      exact waits_callback htask (heq ▸ Function.update_self ..)
    exact .inl ⟨taskid, hknown,
      waits_before htask (Function.update_of_ne hne _ _)
        (Function.update_of_ne hne _ _)⟩
  · exact .inr hcall

/-- While a callback waits, a loop is there that has not taken its exit branch. -/
structure Served (state : AsyncSession) : Prop where
  numbered : state.dump.Numbered
  books : state.Books
  watched : state.Waits → Watched state.dump

theorem watched_step {state next : AsyncSession} {label : Label}
    (hinv : state.Served) (hserved : state.CallbacksServed label)
    (hstep : state.step label = some next) (hwaits : next.Waits) :
    Watched next.dump := by
  cases sessionStep_of_step hstep with
  | replied _ _ => exact hinv.watched hwaits
  | refused _ _ => exact hinv.watched hwaits
  | admitted _ _ => exact hinv.watched (hwaits.admitted hinv.books)
  | register hcall _ => exact hinv.watched (hwaits.register hinv.books hcall)
  | @answer call _ code hcall hpc =>
      have hdump : (state.answer call code).dump = state.dump := by
        unfold answer
        split <;> rfl
      rw [hdump]
      by_cases hcode : code = .asyncDump
      · subst hcode
        exact hinv.watched (hwaits.answerAsync hinv.books hcall hpc)
      · exact hinv.watched (hwaits.answer hcode)
  | @process call after _ _ hcall _ hprocess =>
      rcases hwaits with htask | ⟨other, hother, hasync, hanswer⟩
      · exact watched_processStep (hinv.watched (.inl htask)) hprocess
      · cases hother
        have hcallback := (processStep_call hprocess).2.1.symm.trans hasync
        exact watched_asyncDump (hserved call hcall hcallback) hprocess hanswer
  | @loop loop read hmem =>
      exact watched_loopStep hinv.numbered hmem (hinv.watched hwaits)
        (fun hexits => hserved loop hmem rfl hexits hwaits) read
  | @finish loop time hmem hpc _ =>
      have hold : state.Waits := hwaits.finishTask
      exact watched_loopStep hinv.numbered hmem (hinv.watched hold)
        (fun hexits => hserved loop hmem rfl hexits hold) (some (time, .writeDone))
  | childOpen => exact hinv.watched hwaits
  | processDies => exact hinv.watched hwaits
  | sigChld _ => exact hinv.watched hwaits

theorem served_step {state next : AsyncSession} {label : Label}
    (hinv : state.Served) (hserved : state.CallbacksServed label)
    (hstep : state.step label = some next) : next.Served :=
  ⟨numbered_step hinv.numbered hstep, books_step hinv.books hserved hstep,
    watched_step hinv hserved hstep⟩

theorem served_init : Served {} where
  numbered := ⟨fun _ h => (nomatch h), .nil⟩
  books :=
    ⟨⟨.nil, fun _ _ h => (nomatch h), fun _ _ _ h => (nomatch h)⟩,
      fun _ _ => ⟨List.not_mem_nil, fun _ h => (nomatch h)⟩, fun _ h => (nomatch h),
      fun _ h => (nomatch h), fun _ h => (nomatch h), fun _ h => (nomatch h)⟩
  watched := by
    rintro (⟨_, hknown, _⟩ | ⟨_, hcall, _⟩)
    · exact nomatch hknown
    · exact nomatch hcall

/-- With no loop left every callback was invoked. -/
theorem settled_of_quiet {state : AsyncSession} (hinv : state.Served)
    (hquiet : state.dump.loops = []) {call : ReturnedCall}
    (hreturned : call ∈ state.returned) (hasync : call.asyncCallback = true) :
    state.Settled call := by
  rcases hinv.books.returned call hreturned hasync with hsettled | hpending
  · exact hsettled
  · obtain ⟨taskid, htaskid, hwaits, hret⟩ := hpending
    have hknown := hinv.books.known call hreturned taskid htaskid
    have htask : state.waits taskid = true := by
      rw [waits, hwaits, hret]
      rfl
    obtain ⟨loop, hloop, _⟩ := hinv.watched (.inl ⟨taskid, hknown, htask⟩)
    rw [hquiet] at hloop
    exact nomatch hloop

end AsyncSession

open AsyncSession in
/-- In a run whose steps all serve the callbacks, once no `WaitAsyncDumpRetLoop`
is left, the callback of every call that has returned was invoked exactly once
and its task has no entry left. -/
theorem callback_exactly_once {labels : List Label} {state : AsyncSession}
    (hobeys : asyncSession.Obeys CallbacksServed {} labels)
    (hrun : asyncSession.run {} labels = some state)
    (hquiet : state.dump.loops = []) :
    ∀ call ∈ state.returned, call.asyncCallback = true →
      state.invoked.count call.number = 1 ∧
        ∀ taskid, call.taskid = some taskid →
          state.callbacks taskid = none ∧ state.traceRetInfos taskid = false := by
  have hinv : state.Served :=
    asyncSession.invariant_of_obeys
      (fun _ _ _ hstate hallowed hstep => served_step hstate hallowed hstep)
      served_init hobeys hrun
  intro call hreturned hasync
  obtain ⟨hinvoked, hgone⟩ := settled_of_quiet hinv hquiet hreturned hasync
  exact ⟨List.count_eq_one_of_mem hinv.books.kept.nodup hinvoked, hgone⟩

open AsyncSession in
/-- A dump that is answered with ASYNC_DUMP, written, and followed by the end of the
process and of the loop. -/
theorem callback_exactly_once_written :
    ∃ state : AsyncSession,
      state.returned = [⟨0, true, some 1⟩] ∧ state.invoked = [0] ∧
      ∀ call ∈ state.returned, call.asyncCallback = true →
        state.invoked.count call.number = 1 ∧
          ∀ taskid, call.taskid = some taskid →
            state.callbacks taskid = none ∧ state.traceRetInfos taskid = false := by
  let labels : List Label :=
    forkingCall ++
      [Label.callStep .ok, .callStep .ok, .loopStep 0 none, .loopStep 0 none,
        .loopStep 0 (some (1, .writeDone)), .loopStep 0 none, .processDies 1] ++
      List.replicate 5 (Label.loopStep 0 none)
  have hrun : (asyncSession.run {} labels).map (fun state =>
      (state.dump.loops, state.returned, state.invoked)) =
        some ([], [⟨0, true, some 1⟩], [0]) := by
    decide +kernel
  have hobeys : asyncSession.Obeys CallbacksServed {} labels := by
    decide +kernel
  obtain ⟨state, hstate, heq⟩ := Option.map_eq_some_iff.mp hrun
  obtain ⟨hquiet, hrest⟩ := Prod.mk.inj heq
  obtain ⟨hreturned, hinvoked⟩ := Prod.mk.inj hrest
  exact ⟨state, hreturned, hinvoked, callback_exactly_once hobeys hstate hquiet⟩

open AsyncSession in
/-- A call while the trace is closed returns without invoking its callback. -/
theorem refused_call_keeps_callback :
    ¬ ∀ (labels : List Label) (state : AsyncSession),
      asyncSession.run {} labels = some state → state.dump.loops = [] →
      ∀ call ∈ state.returned, call.asyncCallback = true →
        state.invoked.count call.number = 1 ∧
          ∀ taskid, call.taskid = some taskid →
            state.callbacks taskid = none ∧ state.traceRetInfos taskid = false := by
  intro hclaim
  let labels : List Label :=
    [.dumpTraceAsync ⟨TraceMode.modeClose, ⟨false, false⟩, true, 0, 0, 9, 3, true⟩ 1]
  have hrun : (asyncSession.run {} labels).map (fun state =>
      (state.dump.loops, state.returned, state.invoked)) =
        some ([], [⟨0, true, none⟩], []) := by
    decide +kernel
  obtain ⟨state, hstate, heq⟩ := Option.map_eq_some_iff.mp hrun
  obtain ⟨hquiet, hrest⟩ := Prod.mk.inj heq
  obtain ⟨hreturned, hinvoked⟩ := Prod.mk.inj hrest
  have hcall : (⟨0, true, none⟩ : ReturnedCall) ∈ state.returned := by
    rw [hreturned]
    exact List.mem_singleton_self _
  have honce := (hclaim labels state hstate hquiet _ hcall rfl).1
  rw [hinvoked] at honce
  exact nomatch honce

end Hitrace
