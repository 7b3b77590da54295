import Hitrace.TracedumpExecutor.DumpExecutor

namespace Hitrace

open Library

namespace TraceDumpExecutor

/-! What processing one task can do. -/

/-- The replies of a kind that were written for a task. -/
def replyCount (kind : ReplyKind) (time : UInt64) (replies : List Reply) : Nat :=
  replies.countP fun reply => decide (reply.kind = kind ∧ reply.task.time = time)

/-- What becomes of a task: it goes on without a reply, is answered in the sync
pipe, or has its last answer in the async pipe.  What is sent is the task with
the status it has by then. -/
inductive ProcessedTask (task : TraceDumpTask) (processed : Processed) : Prop
  | silent (hreply : processed.reply = none)
      (hsync : processed.task.hasSyncReturn = task.hasSyncReturn)
      (hcompleted : processed.completed = true →
        processed.task.writeRetry ≥ maxWriteRetry)
  | answered (status : TraceDumpStatus)
      (hreply : processed.reply = some ⟨.sync, { task with status }⟩)
      (hfirst : task.hasSyncReturn = false)
      (hsync : processed.completed = false → processed.task.hasSyncReturn = true)
      (hcompleted : processed.completed = true → status = .writeDone ∨
        processed.task.writeRetry ≥ maxWriteRetry)
  | finished
      (hreply : processed.reply =
        some ⟨.async, { task with status := .writeDone }⟩)
      (hsync : task.hasSyncReturn = true)
      (hcompleted : processed.completed = true)

theorem with_status_self {task : TraceDumpTask} {status : TraceDumpStatus}
    (hstatus : task.status = status) : { task with status } = task := by
  cases hstatus
  rfl

theorem processWriteDone_cases (curBootTime : UInt64) (outcome : PipeOutcome)
    {task : TraceDumpTask} (hstatus : task.status = .writeDone) :
    ProcessedTask task (processWriteDone curBootTime outcome task) := by
  have hsame := with_status_self hstatus
  unfold processWriteDone
  cases hsync : task.hasSyncReturn with
  | true =>
      cases outcome with
      | fdInvalid => exact .silent rfl rfl nofun
      | writeFailed => exact .silent rfl rfl nofun
      | written =>
          refine .finished ?_ hsync rfl
          rw [hsame]
          rfl
  | false =>
      cases outcome with
      | fdInvalid => exact .silent rfl rfl nofun
      | writeFailed => exact .silent rfl rfl nofun
      | written =>
          refine .answered .writeDone ?_ hsync (fun _ => rfl) fun _ => .inl rfl
          rw [hsame]
          rfl

theorem processReadFailed_cases (outcome : PipeOutcome) (task : TraceDumpTask) :
    ProcessedTask task (processReadFailed outcome task) := by
  cases outcome with
  | fdInvalid => exact .silent rfl rfl nofun
  | writeFailed => exact .silent rfl rfl nofun
  | written =>
      cases hsync : task.hasSyncReturn with
      | true =>
          refine .finished ?_ hsync rfl
          simp [processReadFailed, writeReturn, hsync]
      | false =>
          refine .answered .writeDone ?_ hsync nofun fun _ => .inl rfl
          simp [processReadFailed, writeReturn, hsync]

theorem processReadDone_cases (curBootTime : UInt64) (outcome : PipeOutcome)
    {task : TraceDumpTask} (hstatus : task.status = .readDone) :
    ProcessedTask task (processReadDone curBootTime outcome task) := by
  unfold processReadDone
  split
  · exact processReadFailed_cases outcome task
  · split
    · next htimeout =>
        cases outcome with
        | fdInvalid => exact .silent rfl rfl nofun
        | writeFailed => exact .silent rfl rfl nofun
        | written =>
            refine .answered .readDone ?_ htimeout.1 (fun _ => rfl) nofun
            rw [with_status_self hstatus]
            rfl
    · exact .silent rfl rfl nofun

theorem doProcessTraceDumpTask_cases (curBootTime : UInt64) (outcome : PipeOutcome)
    (task : TraceDumpTask) :
    ProcessedTask task (doProcessTraceDumpTask curBootTime outcome task) := by
  have hretry : ∀ processed, ProcessedTask task processed →
      ProcessedTask task
        (if processed.task.writeRetry ≥ maxWriteRetry then
          { processed with completed := true } else processed) := by
    intro processed hprocessed
    split
    · next hmax =>
        cases hprocessed with
        | silent hreply hsync _ => exact .silent hreply hsync fun _ => hmax
        | answered status hreply hfirst _ _ =>
            exact .answered status hreply hfirst nofun fun _ => .inr hmax
        | finished hreply hsync _ => exact .finished hreply hsync rfl
    · exact hprocessed
  apply hretry
  split
  · next hstatus => exact processWriteDone_cases curBootTime outcome hstatus
  · next hstatus => exact processReadDone_cases curBootTime outcome hstatus
  · exact .silent rfl rfl nofun

/-- The fields of a task that the monitor may change, and how far it moves the
status. -/
structure MonitorUpdate (task next : TraceDumpTask) : Prop where
  fields : ∃ hasSyncReturn writeRetry status,
    next = { task with hasSyncReturn, writeRetry, status }
  grows : task.status.rank ≤ next.status.rank
  start : task.status = .start → next.status = .start
  bounded : next.status = .finish → task.status = .finish

theorem MonitorUpdate.time {task next : TraceDumpTask}
    (hupdate : MonitorUpdate task next) : next.time = task.time := by
  obtain ⟨_, _, _, hnext⟩ := hupdate.fields
  rw [hnext]

theorem MonitorUpdate.ne_start {task next : TraceDumpTask}
    (hupdate : MonitorUpdate task next) (hstatus : task.status ≠ .start) :
    next.status ≠ .start := by
  have hgrows := hupdate.grows
  intro hnext
  rw [hnext] at hgrows
  cases hcase : task.status with
  | start => exact hstatus hcase
  | readDone => exact absurd (hcase ▸ hgrows) (by decide)
  | waitWrite => exact absurd (hcase ▸ hgrows) (by decide)
  | writeDone => exact absurd (hcase ▸ hgrows) (by decide)
  | finish => exact absurd (hcase ▸ hgrows) (by decide)

theorem monitorUpdate_of_status {task next : TraceDumpTask}
    (hfields : ∃ hasSyncReturn writeRetry,
      next = { task with hasSyncReturn, writeRetry }) :
    MonitorUpdate task next := by
  obtain ⟨hasSyncReturn, writeRetry, rfl⟩ := hfields
  exact ⟨⟨_, _, _, rfl⟩, Nat.le_refl _, id, id⟩

theorem monitorUpdate_of_readDone {task next : TraceDumpTask}
    (hstatus : task.status = .readDone)
    (hnext : next.status = .waitWrite ∨ next.status = .writeDone)
    (hfields : ∃ hasSyncReturn writeRetry status,
      next = { task with hasSyncReturn, writeRetry, status }) :
    MonitorUpdate task next := by
  rcases hnext with hnext | hnext
  · refine ⟨hfields, ?_, ?_, ?_⟩ <;> rw [hstatus, hnext] <;> decide
  · refine ⟨hfields, ?_, ?_, ?_⟩ <;> rw [hstatus, hnext] <;> decide

theorem processReadDone_update (curBootTime : UInt64) (outcome : PipeOutcome)
    {task : TraceDumpTask} (hstatus : task.status = .readDone) :
    MonitorUpdate task (processReadDone curBootTime outcome task).task := by
  unfold processReadDone
  split
  · cases outcome with
    | fdInvalid =>
        exact monitorUpdate_of_readDone hstatus (.inr rfl) ⟨_, _, _, rfl⟩
    | writeFailed =>
        exact monitorUpdate_of_readDone hstatus (.inr rfl) ⟨_, _, _, rfl⟩
    | written =>
        exact monitorUpdate_of_readDone hstatus (.inr rfl) ⟨_, _, _, rfl⟩
  · split
    · cases outcome with
      | fdInvalid => exact monitorUpdate_of_status ⟨_, _, rfl⟩
      | writeFailed => exact monitorUpdate_of_status ⟨_, _, rfl⟩
      | written =>
          exact monitorUpdate_of_readDone hstatus (.inl rfl) ⟨_, _, _, rfl⟩
    · exact monitorUpdate_of_status ⟨_, _, rfl⟩

theorem doProcessTraceDumpTask_update (curBootTime : UInt64) (outcome : PipeOutcome)
    (task : TraceDumpTask) :
    MonitorUpdate task
      (doProcessTraceDumpTask curBootTime outcome task).task := by
  have hretry : ∀ processed : Processed, MonitorUpdate task processed.task →
      MonitorUpdate task
        (if processed.task.writeRetry ≥ maxWriteRetry then
          { processed with completed := true } else processed).task := by
    intro processed hprocessed
    split
    · exact hprocessed
    · exact hprocessed
  apply hretry
  split
  · unfold processWriteDone
    cases task.hasSyncReturn <;> cases outcome <;>
      exact monitorUpdate_of_status ⟨_, _, rfl⟩
  · next hstatus => exact processReadDone_update curBootTime outcome hstatus
  · exact monitorUpdate_of_status ⟨_, _, rfl⟩

/-! One pass over the queue. -/

def passReplies (environment : PassEnvironment) (tasks : List TraceDumpTask) :
    List Reply :=
  tasks.filterMap fun task => (environment.process task).reply

theorem passReplies_cons (environment : PassEnvironment) (task : TraceDumpTask)
    (rest : List TraceDumpTask) :
    passReplies environment (task :: rest) =
      (environment.process task).reply.toList ++ passReplies environment rest := by
  cases hreply : (environment.process task).reply with
  | none => simp [passReplies, hreply]
  | some reply => simp [passReplies, hreply]

theorem process_cases (environment : PassEnvironment) (task : TraceDumpTask) :
    ProcessedTask task (environment.process task) :=
  doProcessTraceDumpTask_cases _ _ task

theorem process_update (environment : PassEnvironment) (task : TraceDumpTask) :
    MonitorUpdate task (environment.process task).task :=
  doProcessTraceDumpTask_update _ _ task

theorem process_reply {environment : PassEnvironment} {task : TraceDumpTask}
    {reply : Reply} (hreply : (environment.process task).reply = some reply) :
    ∃ status, reply.task = { task with status } := by
  cases process_cases environment task with
  | silent hnone _ _ => exact nomatch hnone.symm.trans hreply
  | answered status hsent _ _ _ =>
      cases hsent.symm.trans hreply
      exact ⟨status, rfl⟩
  | finished hsent _ _ =>
      cases hsent.symm.trans hreply
      exact ⟨.writeDone, rfl⟩

theorem process_async {environment : PassEnvironment} {task : TraceDumpTask}
    {reply : Reply} (hreply : (environment.process task).reply = some reply)
    (hasync : reply.kind = .async) : task.hasSyncReturn = true := by
  cases process_cases environment task with
  | silent hnone _ _ => exact nomatch hnone.symm.trans hreply
  | answered status hsent _ _ _ =>
      cases hsent.symm.trans hreply
      exact nomatch hasync
  | finished _ hsync _ => exact hsync

theorem replyCount_append (kind : ReplyKind) (time : UInt64)
    (first second : List Reply) :
    replyCount kind time (first ++ second) =
      replyCount kind time first + replyCount kind time second :=
  List.countP_append

theorem replyCount_process_of_ne {environment : PassEnvironment} {kind : ReplyKind}
    {task : TraceDumpTask} {time : UInt64} (htime : task.time ≠ time) :
    replyCount kind time (environment.process task).reply.toList = 0 := by
  cases hreply : (environment.process task).reply with
  | none => rfl
  | some reply =>
      obtain ⟨status, hsent⟩ := process_reply hreply
      simp [replyCount, hsent, htime]

theorem replyCount_passReplies_of_forall_ne {environment : PassEnvironment}
    {kind : ReplyKind} {tasks : List TraceDumpTask} {time : UInt64}
    (htime : ∀ task ∈ tasks, task.time ≠ time) :
    replyCount kind time (passReplies environment tasks) = 0 := by
  induction tasks with
  | nil => rfl
  | cons task rest ih =>
      rw [passReplies_cons, replyCount_append,
        replyCount_process_of_ne (htime task List.mem_cons_self),
        ih fun other hmem => htime other (List.mem_cons_of_mem _ hmem)]

/-- With distinct ids a pass writes for a task what processing it writes. -/
theorem replyCount_passReplies {environment : PassEnvironment} {kind : ReplyKind}
    {tasks : List TraceDumpTask} {task : TraceDumpTask}
    (hdistinct : (tasks.map TraceDumpTask.time).Nodup) (hmem : task ∈ tasks) :
    replyCount kind task.time (passReplies environment tasks) =
      replyCount kind task.time (environment.process task).reply.toList := by
  induction tasks with
  | nil => exact nomatch hmem
  | cons head rest ih =>
      rw [List.map_cons, List.nodup_cons] at hdistinct
      rw [passReplies_cons, replyCount_append]
      rcases List.mem_cons.mp hmem with rfl | hrest
      · have hother : ∀ other ∈ rest, other.time ≠ task.time := by
          intro other hother heq
          exact hdistinct.1 (heq ▸ List.mem_map_of_mem hother)
        rw [replyCount_passReplies_of_forall_ne hother, Nat.add_zero]
      · have hne : head.time ≠ task.time := by
          intro heq
          exact hdistinct.1 (heq ▸ List.mem_map_of_mem hrest)
        rw [replyCount_process_of_ne hne, ih hdistinct.2 hrest, Nat.zero_add]

theorem mem_completedTimes {environment : PassEnvironment}
    {tasks : List TraceDumpTask} {task : TraceDumpTask}
    (hdistinct : (tasks.map TraceDumpTask.time).Nodup) (hmem : task ∈ tasks) :
    task.time ∈ completedTimes environment tasks ↔
      (environment.process task).completed = true := by
  constructor
  · intro htime
    obtain ⟨other, hother, heq⟩ := List.mem_map.mp htime
    obtain ⟨hin, hcompleted⟩ := List.mem_filter.mp hother
    have hsame : other = task :=
      List.inj_on_of_nodup_map hdistinct hin hmem heq
    exact hsame ▸ hcompleted
  · intro hcompleted
    exact List.mem_map_of_mem (List.mem_filter.mpr ⟨hmem, hcompleted⟩)

/-- The tasks a pass leaves in the queue are those it did not complete, each as
it was processed. -/
theorem mem_monitorPass {executor : TraceDumpExecutor}
    {environment : PassEnvironment} {next : TraceDumpTask}
    (hdistinct : (executor.traceDumpTaskVec.map TraceDumpTask.time).Nodup) :
    next ∈ (executor.monitorPass environment).traceDumpTaskVec ↔
      ∃ task ∈ executor.traceDumpTaskVec, next = (environment.process task).task ∧
        (environment.process task).completed = false := by
  simp only [monitorPass, List.mem_filter, List.mem_map, decide_eq_true_eq]
  constructor
  · rintro ⟨⟨task, hmem, rfl⟩, hkept⟩
    rw [(process_update environment task).time,
      mem_completedTimes hdistinct hmem] at hkept
    exact ⟨task, hmem, rfl, Bool.eq_false_iff.mpr hkept⟩
  · rintro ⟨task, hmem, rfl, hkept⟩
    refine ⟨⟨task, hmem, rfl⟩, ?_⟩
    rw [(process_update environment task).time,
      mem_completedTimes hdistinct hmem, hkept]
    exact Bool.false_ne_true

/-! Writing a worked-on copy back. -/

@[simp] theorem assignTask_status (dumpTask task : TraceDumpTask) :
    (assignTask dumpTask task).status = task.status := rfl

theorem times_updateTraceDumpTask (tasks : List TraceDumpTask)
    (task : TraceDumpTask) :
    (updateTraceDumpTask tasks task).map TraceDumpTask.time =
      tasks.map TraceDumpTask.time := by
  induction tasks with
  | nil => rfl
  | cons head rest ih =>
      rw [updateTraceDumpTask]
      split
      · rfl
      · rw [List.map_cons, List.map_cons, ih]

theorem mem_updateTraceDumpTask {tasks : List TraceDumpTask}
    {task next : TraceDumpTask} (hdistinct : (tasks.map TraceDumpTask.time).Nodup)
    (hmem : next ∈ updateTraceDumpTask tasks task) :
    (next ∈ tasks ∧ next.time ≠ task.time) ∨
      ∃ dumpTask ∈ tasks, dumpTask.time = task.time ∧
        next = assignTask dumpTask task := by
  induction tasks with
  | nil => exact nomatch hmem
  | cons head rest ih =>
      rw [List.map_cons, List.nodup_cons] at hdistinct
      rw [updateTraceDumpTask] at hmem
      split at hmem
      · next htime =>
          rcases List.mem_cons.mp hmem with rfl | hrest
          · exact .inr ⟨head, List.mem_cons_self, htime, rfl⟩
          · refine .inl ⟨List.mem_cons_of_mem _ hrest, fun heq => ?_⟩
            exact hdistinct.1 (htime.trans heq.symm ▸ List.mem_map_of_mem hrest)
      · next htime =>
          rcases List.mem_cons.mp hmem with rfl | hrest
          · exact .inl ⟨List.mem_cons_self, htime⟩
          · rcases ih hdistinct.2 hrest with ⟨hin, hne⟩ | ⟨dumpTask, hin, heq⟩
            · exact .inl ⟨List.mem_cons_of_mem _ hin, hne⟩
            · exact .inr ⟨dumpTask, List.mem_cons_of_mem _ hin, heq⟩

/-! The invariant of the whole process. -/

structure Protocol (executor : TraceDumpExecutor) : Prop where
  distinct : (executor.traceDumpTaskVec.map TraceDumpTask.time).Nodup
  known : ∀ task ∈ executor.traceDumpTaskVec, task.time ∈ executor.submitted
  repliesKnown : ∀ reply ∈ executor.replies,
    reply.task.time ∈ executor.submitted
  pending : ∀ task ∈ executor.traceDumpTaskVec,
    replyCount .async task.time executor.replies = 0 ∧
      replyCount .sync task.time executor.replies =
        if task.hasSyncReturn then 1 else 0
  counts : ∀ time, replyCount .sync time executor.replies ≤ 1 ∧
    replyCount .async time executor.replies ≤ 1
  ordered : ∀ (index : Nat) (reply : Reply),
    executor.replies[index]? = some reply → reply.kind = .async →
      ∃ earlier < index, ∃ first, executor.replies[earlier]? = some first ∧
        first.kind = .sync ∧ first.task.time = reply.task.time
  bounded : ∀ task ∈ executor.traceDumpTaskVec, task.status ≠ .finish
  reader : ∀ copy, executor.reader = some copy →
    ∀ task ∈ executor.traceDumpTaskVec, task.time = copy.time →
      task.status = .start
  writer : ∀ copy, executor.writer = some copy →
    ∀ task ∈ executor.traceDumpTaskVec, task.time = copy.time →
      task.status ≠ .start
  writerKnown : ∀ copy, executor.writer = some copy →
    copy.time ∈ executor.submitted

theorem protocol_init {isHm : Bool} {executor : TraceDumpExecutor}
    (hinit : (traceDumpExecutor isHm).init executor) : Protocol executor := by
  obtain ⟨hdistinct, hsubmitted, heq⟩ := hinit
  rw [heq]
  refine ⟨hdistinct, fun task hmem => List.mem_map_of_mem hmem,
    fun _ hreply => (nomatch hreply), ?_,
    fun _ => ⟨Nat.zero_le _, Nat.zero_le _⟩, fun _ _ hreply => (nomatch hreply), ?_,
    fun _ hcopy => (nomatch hcopy), fun _ hcopy => (nomatch hcopy),
    fun _ hcopy => (nomatch hcopy)⟩
  · intro task hmem
    rw [(hsubmitted task hmem).1]
    exact ⟨rfl, rfl⟩
  · intro task hmem
    rw [(hsubmitted task hmem).2.2.1]
    exact nofun

/-- An answered task has its sync reply in the log. -/
theorem Protocol.sync_mem {executor : TraceDumpExecutor}
    (hprotocol : Protocol executor) {task : TraceDumpTask}
    (hmem : task ∈ executor.traceDumpTaskVec) (hsync : task.hasSyncReturn = true) :
    ∃ reply ∈ executor.replies, reply.kind = .sync ∧
      reply.task.time = task.time := by
  have hcount := (hprotocol.pending task hmem).2
  rw [hsync, if_pos rfl] at hcount
  have hpos : 0 < replyCount .sync task.time executor.replies := by omega
  obtain ⟨reply, hreply, hmatch⟩ := List.countP_pos_iff.mp hpos
  exact ⟨reply, hreply, by simpa using hmatch⟩

theorem replyCount_monitorPass {executor : TraceDumpExecutor}
    (environment : PassEnvironment) (kind : ReplyKind) {task : TraceDumpTask}
    (hdistinct : (executor.traceDumpTaskVec.map TraceDumpTask.time).Nodup)
    (hmem : task ∈ executor.traceDumpTaskVec) :
    replyCount kind task.time (executor.monitorPass environment).replies =
      replyCount kind task.time executor.replies +
        replyCount kind task.time (environment.process task).reply.toList := by
  rw [← replyCount_passReplies hdistinct hmem]
  exact replyCount_append kind task.time _ _

theorem replyCount_single {kind : ReplyKind} {task : TraceDumpTask}
    {status : TraceDumpStatus} (other : ReplyKind) :
    replyCount other task.time (some ⟨kind, { task with status }⟩ :
      Option Reply).toList = if kind = other then 1 else 0 := by
  simp [replyCount, List.countP_cons]

theorem Protocol.process_counts {executor : TraceDumpExecutor}
    (hprotocol : Protocol executor) (environment : PassEnvironment)
    {task : TraceDumpTask} (hmem : task ∈ executor.traceDumpTaskVec) :
    let replies := (executor.monitorPass environment).replies
    let processed := environment.process task
    (replyCount .sync task.time replies ≤ 1 ∧
      replyCount .async task.time replies ≤ 1) ∧
    (processed.completed = false →
      replyCount .async task.time replies = 0 ∧
        replyCount .sync task.time replies =
          if processed.task.hasSyncReturn then 1 else 0) := by
  dsimp only
  obtain ⟨hasync, hsync⟩ := hprotocol.pending task hmem
  rw [replyCount_monitorPass environment .sync hprotocol.distinct hmem,
    replyCount_monitorPass environment .async hprotocol.distinct hmem,
    hasync, hsync]
  cases process_cases environment task with
  | silent hreply hsame _ =>
      rw [hreply, hsame]
      refine ⟨⟨?_, Nat.zero_le _⟩, fun _ => ⟨rfl, rfl⟩⟩
      split
      · exact Nat.le_refl 1
      · exact Nat.zero_le 1
  | answered status hreply hfirst hset _ =>
      rw [hreply, replyCount_single, replyCount_single, hfirst]
      refine ⟨⟨Nat.le_refl 1, Nat.zero_le _⟩, fun hopen => ⟨rfl, ?_⟩⟩
      rw [hset hopen]
      rfl
  | finished hreply hset hcompleted =>
      rw [hreply, replyCount_single, replyCount_single, hset]
      exact ⟨⟨Nat.le_refl 1, Nat.le_refl 1⟩,
        fun hopen => nomatch hopen.symm.trans hcompleted⟩

theorem Protocol.monitorPass_counts {executor : TraceDumpExecutor}
    (hprotocol : Protocol executor) (environment : PassEnvironment) (time : UInt64) :
    replyCount .sync time (executor.monitorPass environment).replies ≤ 1 ∧
      replyCount .async time (executor.monitorPass environment).replies ≤ 1 := by
  by_cases hqueued : ∃ task ∈ executor.traceDumpTaskVec, task.time = time
  · obtain ⟨task, htask, rfl⟩ := hqueued
    exact (hprotocol.process_counts environment htask).1
  · have hzero : ∀ kind, replyCount kind time
        (passReplies environment executor.traceDumpTaskVec) = 0 := fun kind =>
      replyCount_passReplies_of_forall_ne fun task htask htime =>
        hqueued ⟨task, htask, htime⟩
    have hkeep : ∀ kind, replyCount kind time
        (executor.monitorPass environment).replies =
          replyCount kind time executor.replies := by
      intro kind
      have happend := replyCount_append kind time executor.replies
        (passReplies environment executor.traceDumpTaskVec)
      rw [hzero kind, Nat.add_zero] at happend
      exact happend
    rw [hkeep, hkeep]
    exact hprotocol.counts time

/-- An async reply of the pass has its sync reply in the log before. -/
theorem Protocol.monitorPass_ordered {executor : TraceDumpExecutor}
    (hprotocol : Protocol executor) (environment : PassEnvironment) {index : Nat}
    {reply : Reply}
    (hreply : (executor.monitorPass environment).replies[index]? = some reply)
    (hasync : reply.kind = .async) :
    ∃ earlier < index, ∃ first,
      (executor.monitorPass environment).replies[earlier]? = some first ∧
        first.kind = .sync ∧ first.task.time = reply.task.time := by
  have hreplies : (executor.monitorPass environment).replies =
      executor.replies ++ passReplies environment executor.traceDumpTaskVec := rfl
  have hearlier : ∃ earlier < index, ∃ first,
      executor.replies[earlier]? = some first ∧ first.kind = .sync ∧
        first.task.time = reply.task.time := by
    rw [hreplies] at hreply
    by_cases hold : index < executor.replies.length
    · rw [List.getElem?_append_left hold] at hreply
      exact hprotocol.ordered index reply hreply hasync
    · rw [List.getElem?_append_right (Nat.le_of_not_lt hold)] at hreply
      obtain ⟨task, htask, hsent⟩ := List.mem_filterMap.mp (List.mem_of_getElem? hreply)
      obtain ⟨first, hfirst, hkind, htime⟩ :=
        hprotocol.sync_mem htask (process_async hsent hasync)
      obtain ⟨earlier, hlt, hget⟩ := List.mem_iff_getElem.mp hfirst
      obtain ⟨status, heq⟩ := process_reply hsent
      refine ⟨earlier, by omega, first, ?_, hkind, ?_⟩
      · rw [List.getElem?_eq_getElem hlt, hget]
      · rw [htime, heq]
  obtain ⟨earlier, hlt, first, hget, hfirst⟩ := hearlier
  have hbound : earlier < executor.replies.length :=
    (List.getElem?_eq_some_iff.mp hget).1
  refine ⟨earlier, hlt, first, ?_, hfirst⟩
  rw [hreplies, List.getElem?_append_left hbound]
  exact hget

theorem Protocol.monitorPass {executor : TraceDumpExecutor}
    (hprotocol : Protocol executor) (environment : PassEnvironment) :
    Protocol (executor.monitorPass environment) := by
  refine ⟨?_, ?_, ?_, ?_, ?_, ?_, ?_, ?_, ?_, hprotocol.writerKnown⟩
  · have htimes : executor.traceDumpTaskVec.map
        (fun task => (environment.process task).task.time) =
          executor.traceDumpTaskVec.map TraceDumpTask.time := by
      apply List.map_congr_left
      intro task _
      exact (process_update environment task).time
    refine List.Nodup.sublist (List.Sublist.map _ List.filter_sublist) ?_
    rw [List.map_map]
    exact htimes ▸ hprotocol.distinct
  · intro next hmem
    obtain ⟨task, htask, rfl, _⟩ := (mem_monitorPass hprotocol.distinct).mp hmem
    rw [(process_update environment task).time]
    exact hprotocol.known task htask
  · intro reply hmem
    rcases List.mem_append.mp hmem with hold | hreply
    · exact hprotocol.repliesKnown reply hold
    · obtain ⟨task, htask, hsent⟩ := List.mem_filterMap.mp hreply
      obtain ⟨status, heq⟩ := process_reply hsent
      rw [heq]
      exact hprotocol.known task htask
  · intro next hmem
    obtain ⟨task, htask, rfl, hopen⟩ :=
      (mem_monitorPass hprotocol.distinct).mp hmem
    rw [(process_update environment task).time]
    exact (hprotocol.process_counts environment htask).2 hopen
  · exact hprotocol.monitorPass_counts environment
  · intro index reply hreply hasync
    exact hprotocol.monitorPass_ordered environment hreply hasync
  · intro next hmem hfinish
    obtain ⟨task, htask, rfl, _⟩ := (mem_monitorPass hprotocol.distinct).mp hmem
    exact hprotocol.bounded task htask
      ((process_update environment task).bounded hfinish)
  · intro copy hcopy next hmem htime
    obtain ⟨task, htask, rfl, _⟩ := (mem_monitorPass hprotocol.distinct).mp hmem
    rw [(process_update environment task).time] at htime
    exact (process_update environment task).start
      (hprotocol.reader copy hcopy task htask htime)
  · intro copy hcopy next hmem htime
    obtain ⟨task, htask, rfl, _⟩ := (mem_monitorPass hprotocol.distinct).mp hmem
    rw [(process_update environment task).time] at htime
    exact (process_update environment task).ne_start
      (hprotocol.writer copy hcopy task htask htime)

theorem Protocol.assign {executor next : TraceDumpExecutor}
    (hprotocol : Protocol executor) {copy : TraceDumpTask}
    (hqueue : next.traceDumpTaskVec =
      updateTraceDumpTask executor.traceDumpTaskVec copy)
    (hsubmitted : next.submitted = executor.submitted)
    (hreplies : next.replies = executor.replies)
    (hstatus : copy.status = .readDone ∨ copy.status = .writeDone)
    (hreader : ∀ other, next.reader = some other →
      executor.reader = some other ∧ ∀ task ∈ executor.traceDumpTaskVec,
        task.time = copy.time → task.status ≠ .start)
    (hwriter : ∀ other, next.writer = some other →
      executor.writer = some other) : Protocol next := by
  have hmem : ∀ task ∈ next.traceDumpTaskVec,
      (task ∈ executor.traceDumpTaskVec ∧ task.time ≠ copy.time) ∨
        ∃ dumpTask ∈ executor.traceDumpTaskVec, dumpTask.time = copy.time ∧
          task = assignTask dumpTask copy := by
    intro task htask
    rw [hqueue] at htask
    exact mem_updateTraceDumpTask hprotocol.distinct htask
  refine ⟨?_, ?_, ?_, ?_, ?_, ?_, ?_, ?_, ?_, ?_⟩
  · rw [hqueue, times_updateTraceDumpTask]
    exact hprotocol.distinct
  · intro task htask
    rw [hsubmitted]
    rcases hmem task htask with ⟨hold, _⟩ | ⟨dumpTask, hold, _, rfl⟩
    · exact hprotocol.known task hold
    · exact hprotocol.known dumpTask hold
  · rw [hsubmitted, hreplies]
    exact hprotocol.repliesKnown
  · intro task htask
    rw [hreplies]
    rcases hmem task htask with ⟨hold, _⟩ | ⟨dumpTask, hold, _, rfl⟩
    · exact hprotocol.pending task hold
    · exact hprotocol.pending dumpTask hold
  · rw [hreplies]
    exact hprotocol.counts
  · rw [hreplies]
    exact hprotocol.ordered
  · intro task htask
    rcases hmem task htask with ⟨hold, _⟩ | ⟨dumpTask, hold, _, rfl⟩
    · exact hprotocol.bounded task hold
    · rcases hstatus with hstatus | hstatus <;> simp [assignTask, hstatus]
  · intro other hother task htask htime
    obtain ⟨hkept, hnotStart⟩ := hreader other hother
    rcases hmem task htask with ⟨hold, _⟩ | ⟨dumpTask, hold, hcopy, rfl⟩
    · exact hprotocol.reader other hkept task hold htime
    · have hstart := hprotocol.reader other hkept dumpTask hold htime
      exact absurd hstart (hnotStart dumpTask hold hcopy)
  · intro other hother task htask htime
    rcases hmem task htask with ⟨hold, _⟩ | ⟨dumpTask, hold, _, rfl⟩
    · exact hprotocol.writer other (hwriter other hother) task hold htime
    · rcases hstatus with hstatus | hstatus <;> simp [assignTask, hstatus]
  · intro other hother
    rw [hsubmitted]
    exact hprotocol.writerKnown other (hwriter other hother)

theorem doReadRawTrace_status (ret : TraceDumpRet) (task : TraceDumpTask) :
    (doReadRawTrace ret task).status = .readDone ∧
      (doReadRawTrace ret task).time = task.time ∧
      (doReadRawTrace ret task).code = ret.code ∧
      (doReadRawTrace ret task).outputFile = copyFileName ret.outputFile := by
  unfold doReadRawTrace
  dsimp only
  split <;> exact ⟨rfl, rfl, rfl, rfl⟩

theorem doWriteRawTrace_status (ret : TraceDumpRet) (fileSize : Int)
    (task : TraceDumpTask) :
    (doWriteRawTrace ret fileSize task).status = .writeDone ∧
      (doWriteRawTrace ret fileSize task).time = task.time ∧
      (doWriteRawTrace ret fileSize task).code = ret.code ∧
      (doWriteRawTrace ret fileSize task).outputFile = task.outputFile := by
  unfold doWriteRawTrace
  dsimp only
  split <;> exact ⟨rfl, rfl, rfl, rfl⟩

/-- What a step can do, with the tests it has passed. -/
inductive ExecutorStep (isHm : Bool) (executor : TraceDumpExecutor) :
    Label → TraceDumpExecutor → Prop
  | monitorPass (environment : PassEnvironment) :
      ExecutorStep isHm executor (.monitorPass environment)
        (executor.monitorPass environment)
  | submit {task : TraceDumpTask} (hsubmitted : Submitted task)
      (hfresh : task.time ∉ executor.submitted) :
      ExecutorStep isHm executor (.processNewTask task)
        { executor with
          traceDumpTaskVec := executor.traceDumpTaskVec ++ [task]
          submitted := executor.submitted ++ [task.time] }
  | readerTake {task : TraceDumpTask} (hmem : task ∈ executor.traceDumpTaskVec)
      (hreadable : readable task = true) :
      ExecutorStep isHm executor .readerTake { executor with reader := some task }
  | readerSkip {source : RawSource} {traceFile : List Char} :
      ExecutorStep isHm executor (.readerUpdate true source traceFile)
        { executor with reader := none }
  | readerUpdate {task : TraceDumpTask} (hreader : executor.reader = some task)
      {source : RawSource} {traceFile : List Char} {ret : TraceDumpRet}
      {taskBuffers : Multimap UInt64 BufferBlock}
      (hread : asyncTraceRead source traceFile (readRequest task)
        executor.taskBuffers = (ret, taskBuffers)) :
      ExecutorStep isHm executor (.readerUpdate false source traceFile)
        { executor with
          reader := none
          taskBuffers
          traceDumpTaskVec := updateTraceDumpTask executor.traceDumpTaskVec
            (doReadRawTrace ret task)
          reads := executor.reads ++ [(task.time, ret.code)] }
  | writerTake {task : TraceDumpTask} (hmem : task ∈ executor.traceDumpTaskVec)
      (hwritable : writable task = true) :
      ExecutorStep isHm executor .writerTake { executor with writer := some task }
  | writerSkip {contents : TraceContents} {environment : TraceIo}
      {fileSize : Int} :
      ExecutorStep isHm executor (.writerUpdate true contents environment fileSize)
        { executor with writer := none }
  | writerUpdate {task : TraceDumpTask} (hwriter : executor.writer = some task)
      {contents : TraceContents} {environment io : TraceIo} {fileSize : Int}
      {ret : TraceDumpRet} {taskBuffers : Multimap UInt64 BufferBlock}
      (hwrite : asyncTraceWrite isHm contents task.time executor.taskBuffers
        (traceSourceFactory task.outputFile environment) =
          (ret, taskBuffers, io)) :
      ExecutorStep isHm executor
        (.writerUpdate false contents environment fileSize)
        { executor with
          writer := none
          taskBuffers
          traceDumpTaskVec := updateTraceDumpTask executor.traceDumpTaskVec
            (doWriteRawTrace ret fileSize task) }

theorem executorStep_of_step {isHm : Bool} {executor next : TraceDumpExecutor}
    {label : Label} (hstep : executor.step isHm label = some next) :
    ExecutorStep isHm executor label next := by
  cases label with
  | monitorPass environment =>
      cases hstep
      exact .monitorPass environment
  | processNewTask task =>
      simp only [step, processNewTask] at hstep
      split at hstep
      · next hsubmitted =>
          cases hstep
          exact .submit hsubmitted.1 hsubmitted.2
      · cases hstep
  | readerTake =>
      simp only [step, readerTake] at hstep
      split at hstep
      · next task _ hfind =>
          cases hstep
          exact .readerTake (List.mem_of_find?_eq_some hfind)
            (List.find?_some hfind)
      · cases hstep
  | readerUpdate rootPathEmpty source traceFile =>
      simp only [step, readerUpdate] at hstep
      split at hstep
      · cases hstep
      · next task hreader =>
          split at hstep
          · cases hstep
          · cases rootPathEmpty with
            | true =>
                cases hstep
                exact .readerSkip
            | false =>
                cases hstep
                exact .readerUpdate hreader rfl
  | writerTake =>
      simp only [step, writerTake] at hstep
      split at hstep
      · next task _ hfind =>
          cases hstep
          exact .writerTake (List.mem_of_find?_eq_some hfind)
            (List.find?_some hfind)
      · cases hstep
  | writerUpdate rootPathEmpty contents environment fileSize =>
      simp only [step, writerUpdate] at hstep
      split at hstep
      · cases hstep
      · next task hwriter =>
          cases rootPathEmpty with
          | true =>
              cases hstep
              exact .writerSkip
          | false =>
              cases hstep
              exact .writerUpdate hwriter rfl

theorem Protocol.same_task {executor : TraceDumpExecutor}
    (hprotocol : Protocol executor) {first second : TraceDumpTask}
    (hfirst : first ∈ executor.traceDumpTaskVec)
    (hsecond : second ∈ executor.traceDumpTaskVec)
    (htime : first.time = second.time) : first = second :=
  List.inj_on_of_nodup_map hprotocol.distinct hfirst hsecond htime

theorem Protocol.submit {executor : TraceDumpExecutor}
    (hprotocol : Protocol executor) {task : TraceDumpTask}
    (hsubmitted : Submitted task) (hfresh : task.time ∉ executor.submitted) :
    Protocol
      { executor with
        traceDumpTaskVec := executor.traceDumpTaskVec ++ [task]
        submitted := executor.submitted ++ [task.time] } := by
  have hunanswered : ∀ kind, replyCount kind task.time executor.replies = 0 := by
    intro kind
    refine List.countP_eq_zero.mpr fun reply hreply hmatch => ?_
    have htime : reply.task.time = task.time := (of_decide_eq_true hmatch).2
    exact hfresh (htime ▸ hprotocol.repliesKnown reply hreply)
  have hmem : ∀ other ∈ executor.traceDumpTaskVec ++ [task],
      other ∈ executor.traceDumpTaskVec ∨ other = task := by
    intro other hother
    rcases List.mem_append.mp hother with hold | hnew
    · exact .inl hold
    · exact .inr (List.mem_singleton.mp hnew)
  refine ⟨?_, ?_, ?_, ?_, hprotocol.counts, hprotocol.ordered, ?_, ?_, ?_, ?_⟩
  · rw [List.map_append]
    refine List.Nodup.append hprotocol.distinct (List.nodup_singleton _) ?_
    intro time hold hnew
    obtain ⟨other, hother, rfl⟩ := List.mem_map.mp hold
    have htime : other.time = task.time := List.mem_singleton.mp hnew
    exact hfresh (htime ▸ hprotocol.known other hother)
  · intro other hother
    rcases hmem other hother with hold | rfl
    · exact List.mem_append_left _ (hprotocol.known other hold)
    · exact List.mem_append_right _ (List.mem_singleton.mpr rfl)
  · intro reply hreply
    exact List.mem_append_left _ (hprotocol.repliesKnown reply hreply)
  · intro other hother
    rcases hmem other hother with hold | rfl
    · exact hprotocol.pending other hold
    · rw [hunanswered, hunanswered, hsubmitted.1]
      exact ⟨rfl, rfl⟩
  · intro other hother
    rcases hmem other hother with hold | rfl
    · exact hprotocol.bounded other hold
    · rw [hsubmitted.2.2.1]
      exact nofun
  · intro copy hcopy other hother htime
    rcases hmem other hother with hold | rfl
    · exact hprotocol.reader copy hcopy other hold htime
    · exact hsubmitted.2.2.1
  · intro copy hcopy other hother htime
    rcases hmem other hother with hold | rfl
    · exact hprotocol.writer copy hcopy other hold htime
    · exact absurd (htime ▸ hprotocol.writerKnown copy hcopy) hfresh
  · intro copy hcopy
    exact List.mem_append_left _ (hprotocol.writerKnown copy hcopy)

theorem protocol_step {isHm : Bool} {executor next : TraceDumpExecutor}
    {label : Label} (hprotocol : Protocol executor)
    (hstep : executor.step isHm label = some next) : Protocol next := by
  cases executorStep_of_step hstep with
  | monitorPass environment => exact hprotocol.monitorPass environment
  | submit hsubmitted hfresh => exact hprotocol.submit hsubmitted hfresh
  | readerTake hmem hreadable =>
      refine { hprotocol with reader := ?_ }
      intro copy hcopy task htask htime
      cases hcopy
      have hsame := hprotocol.same_task htask hmem htime
      exact hsame ▸ (of_decide_eq_true hreadable).1
  | readerSkip =>
      exact { hprotocol with reader := fun _ hcopy => nomatch hcopy }
  | readerUpdate hreader hread =>
      exact hprotocol.assign rfl rfl rfl (.inl (doReadRawTrace_status _ _).1)
        (fun _ hother => (nomatch hother)) fun _ hother => hother
  | writerTake hmem hwritable =>
      refine { hprotocol with writer := ?_, writerKnown := ?_ }
      · intro copy hcopy task htask htime
        cases hcopy
        rw [hprotocol.same_task htask hmem htime]
        rcases of_decide_eq_true hwritable with hstatus | hstatus <;>
          rw [hstatus] <;> exact nofun
      · intro copy hcopy
        cases hcopy
        exact hprotocol.known _ hmem
  | writerSkip =>
      exact { hprotocol with
        writer := fun _ hcopy => nomatch hcopy
        writerKnown := fun _ hcopy => nomatch hcopy }
  | writerUpdate hwriter hwrite =>
      refine hprotocol.assign rfl rfl rfl (.inr (doWriteRawTrace_status _ _ _).1)
        (fun other hother => ⟨hother, ?_⟩) fun _ hother => nomatch hother
      intro task htask htime
      rw [(doWriteRawTrace_status _ _ _).2.1] at htime
      exact hprotocol.writer _ hwriter task htask htime

/-- A task leaves the queue in a pass that has just answered it with WRITE_DONE
or that gives it up. -/
theorem Protocol.leaves {isHm : Bool} {executor next : TraceDumpExecutor}
    {label : Label} (hprotocol : Protocol executor)
    (hstep : executor.step isHm label = some next) {task : TraceDumpTask}
    (hmem : task ∈ executor.traceDumpTaskVec)
    (hgone : ∀ other ∈ next.traceDumpTaskVec, other.time ≠ task.time) :
    ∃ environment, label = .monitorPass environment ∧
      ((∃ reply ∈ next.replies.drop executor.replies.length,
          reply.task.time = task.time ∧ reply.task.status = .writeDone) ∨
        (environment.process task).task.writeRetry ≥ maxWriteRetry) := by
  have hkept : ∀ copy, ¬ ∀ other ∈
      updateTraceDumpTask executor.traceDumpTaskVec copy,
        other.time ≠ task.time := by
    intro copy hall
    have htime : task.time ∈ (updateTraceDumpTask executor.traceDumpTaskVec
        copy).map TraceDumpTask.time := by
      rw [times_updateTraceDumpTask]
      exact List.mem_map_of_mem hmem
    obtain ⟨other, hother, heq⟩ := List.mem_map.mp htime
    exact hall other hother heq
  cases executorStep_of_step hstep with
  | monitorPass environment =>
      refine ⟨environment, rfl, ?_⟩
      have hcompleted : (environment.process task).completed = true := by
        by_contra hopen
        refine hgone _ ((mem_monitorPass hprotocol.distinct).mpr
          ⟨task, hmem, rfl, Bool.eq_false_iff.mpr hopen⟩) ?_
        exact (process_update environment task).time
      have hnew : (executor.monitorPass environment).replies.drop
          executor.replies.length =
            passReplies environment executor.traceDumpTaskVec := List.drop_left
      rw [hnew]
      cases process_cases environment task with
      | silent _ _ hretry => exact .inr (hretry hcompleted)
      | answered status hreply _ _ hstatus =>
          rcases hstatus hcompleted with rfl | hretry
          · exact .inl ⟨_, List.mem_filterMap.mpr ⟨task, hmem, hreply⟩, rfl, rfl⟩
          · exact .inr hretry
      | finished hreply _ _ =>
          exact .inl ⟨_, List.mem_filterMap.mpr ⟨task, hmem, hreply⟩, rfl, rfl⟩
  | submit _ _ => exact absurd rfl (hgone task (List.mem_append_left _ hmem))
  | readerTake _ _ => exact absurd rfl (hgone task hmem)
  | readerSkip => exact absurd rfl (hgone task hmem)
  | readerUpdate _ _ => exact absurd hgone (hkept _)
  | writerTake _ _ => exact absurd rfl (hgone task hmem)
  | writerSkip => exact absurd rfl (hgone task hmem)
  | writerUpdate _ _ => exact absurd hgone (hkept _)

theorem rank_le_writeDone {status : TraceDumpStatus} (hstatus : status ≠ .finish) :
    status.rank ≤ TraceDumpStatus.rank .writeDone := by
  cases status with
  | start => decide
  | readDone => decide
  | waitWrite => decide
  | writeDone => decide
  | finish => exact absurd rfl hstatus

theorem Protocol.status_grows {isHm : Bool} {executor next : TraceDumpExecutor}
    {label : Label} (hprotocol : Protocol executor)
    (hstep : executor.step isHm label = some next) {task other : TraceDumpTask}
    (hmem : task ∈ executor.traceDumpTaskVec)
    (hother : other ∈ next.traceDumpTaskVec) (htime : other.time = task.time) :
    task.status.rank ≤ other.status.rank := by
  have hsame : other ∈ executor.traceDumpTaskVec →
      task.status.rank ≤ other.status.rank := by
    intro hold
    rw [hprotocol.same_task hold hmem htime]
  cases executorStep_of_step hstep with
  | monitorPass environment =>
      obtain ⟨origin, horigin, rfl, _⟩ :=
        (mem_monitorPass hprotocol.distinct).mp hother
      rw [(process_update environment origin).time] at htime
      rw [← hprotocol.same_task horigin hmem htime]
      exact (process_update environment origin).grows
  | submit hsubmitted hfresh =>
      rcases List.mem_append.mp hother with hold | hnew
      · exact hsame hold
      · cases List.mem_singleton.mp hnew
        exact absurd (htime ▸ hprotocol.known task hmem) hfresh
  | readerTake _ _ => exact hsame hother
  | readerSkip => exact hsame hother
  | readerUpdate hreader _ =>
      rcases mem_updateTraceDumpTask hprotocol.distinct hother with
        ⟨hold, _⟩ | ⟨dumpTask, hold, hcopy, rfl⟩
      · exact hsame hold
      · rw [(doReadRawTrace_status _ _).2.1] at hcopy
        rw [← hprotocol.same_task hold hmem htime,
          hprotocol.reader _ hreader dumpTask hold hcopy]
        exact Nat.zero_le _
  | writerTake _ _ => exact hsame hother
  | writerSkip => exact hsame hother
  | writerUpdate _ _ =>
      rcases mem_updateTraceDumpTask hprotocol.distinct hother with
        ⟨hold, _⟩ | ⟨dumpTask, hold, _, rfl⟩
      · exact hsame hold
      · rw [assignTask_status, (doWriteRawTrace_status _ _ _).1]
        exact rank_le_writeDone (hprotocol.bounded task hmem)

theorem protocol_reachable {isHm : Bool} {executor : TraceDumpExecutor}
    (hreachable : (traceDumpExecutor isHm).Reachable executor) :
    Protocol executor :=
  (traceDumpExecutor isHm).invariant_of_step (fun _ => protocol_init)
    (fun _ _ _ => protocol_step) hreachable

end TraceDumpExecutor

open TraceDumpExecutor in
/-- The reply protocol of the dump process, for every interleaving, pipe result
and clock. -/
theorem async_reply_protocol {isHm : Bool} {executor : TraceDumpExecutor}
    (hreachable : (traceDumpExecutor isHm).Reachable executor) :
    (∀ time, replyCount .sync time executor.replies ≤ 1 ∧
      replyCount .async time executor.replies ≤ 1) ∧
    (∀ (index : Nat) (reply : Reply),
      executor.replies[index]? = some reply → reply.kind = .async →
        ∃ earlier < index, ∃ first, executor.replies[earlier]? = some first ∧
          first.kind = .sync ∧ first.task.time = reply.task.time) ∧
    ∀ label next, (traceDumpExecutor isHm).step executor label = some next →
      ∀ task ∈ executor.traceDumpTaskVec,
        ((∀ other ∈ next.traceDumpTaskVec, other.time ≠ task.time) →
          ∃ environment, label = .monitorPass environment ∧
            ((∃ reply ∈ next.replies.drop executor.replies.length,
                reply.task.time = task.time ∧ reply.task.status = .writeDone) ∨
              (environment.process task).task.writeRetry ≥ maxWriteRetry)) ∧
        ∀ other ∈ next.traceDumpTaskVec, other.time = task.time →
          task.status.rank ≤ other.status.rank := by
  have hprotocol := protocol_reachable hreachable
  refine ⟨hprotocol.counts, hprotocol.ordered, ?_⟩
  intro label next hstep task hmem
  exact ⟨hprotocol.leaves hstep hmem, fun other hother htime =>
    hprotocol.status_grows hstep hmem hother htime⟩

open TraceDumpExecutor in
/-- A read that takes longer than five seconds: the task is answered in the sync
pipe, written, answered in the async pipe and dropped. -/
theorem async_reply_protocol_timeout :
    ∃ executor : TraceDumpExecutor,
      (traceDumpExecutor true).Reachable executor ∧
      executor.replies.map Reply.kind = [.sync, .async] ∧
      executor.traceDumpTaskVec = [] ∧
      ∀ time, replyCount .sync time executor.replies ≤ 1 ∧
        replyCount .async time executor.replies ≤ 1 := by
  let page : RawPage := ⟨List.replicate 8 0, 0, by decide⟩
  let task : TraceDumpTask :=
    { time := 7, traceEndTime := 100, fileSizeLimit := 100000000 }
  let contents : TraceContents :=
    { is32Bit := false, cpuNums := 1, baseInfo := ⟨[], 0, 0⟩
      eventFmt := .saved none, cmdLines := .kernel none, processes := none
      tgids := .kernel none, headerPage := none, printkFormats := none }
  let late : PassEnvironment := ⟨fun _ => 6000000000, fun _ => .written⟩
  let labels : List Label :=
    [.processNewTask task, .readerTake,
      .readerUpdate false (.hm ⟨⟨true, [page]⟩, [true]⟩) ['a'],
      .monitorPass late, .writerTake,
      .writerUpdate false contents { traceFilePath := [], fdValid := true } 20,
      .monitorPass late]
  have hrun : ((traceDumpExecutor true).run {} labels).map (fun executor =>
      (executor.replies.map Reply.kind, executor.traceDumpTaskVec)) =
        some ([.sync, .async], []) := by
    decide +kernel
  obtain ⟨executor, hexecutor, heq⟩ := Option.map_eq_some_iff.mp hrun
  have hreachable : (traceDumpExecutor true).Reachable executor :=
    ⟨labels, {}, ⟨List.nodup_nil, fun _ hmem => (nomatch hmem), rfl⟩, hexecutor⟩
  exact ⟨executor, hreachable, congrArg Prod.fst heq, congrArg Prod.snd heq,
    (async_reply_protocol hreachable).1⟩

end Hitrace
