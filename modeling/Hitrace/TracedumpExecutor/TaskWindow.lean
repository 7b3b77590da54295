import Hitrace.TracedumpExecutor.ReplyProtocol

namespace Hitrace

open Library

def TraceDumpTask.window (task : TraceDumpTask) : UInt64 × UInt64 :=
  (task.traceStartTime, task.traceEndTime)

namespace TraceDumpExecutor

/-! The time range a task carries from its submission to its replies. -/

/-- Every record of a task: in the queue, in a worker's hands, in a return
pipe. -/
inductive Carries (executor : TraceDumpExecutor) (task : TraceDumpTask) : Prop
  | queued (hmem : task ∈ executor.traceDumpTaskVec)
  | reader (hreader : executor.reader = some task)
  | writer (hwriter : executor.writer = some task)
  | replied {reply : Reply} (hmem : reply ∈ executor.replies)
      (htask : reply.task = task)

/-- A relation between records that every change of a record on its way keeps; a
worked-on copy is written back over the entry of its own id. -/
structure Inherited (same : TraceDumpTask → TraceDumpTask → Prop) : Prop where
  refl : ∀ task, same task task
  monitor : ∀ {task next}, MonitorUpdate task next → same task next
  reply : ∀ task status, same task { task with status }
  read : ∀ ret {copy entry}, entry.time = copy.time →
    same copy (assignTask entry (doReadRawTrace ret copy)) ∨
      same entry (assignTask entry (doReadRawTrace ret copy))
  write : ∀ ret fileSize {copy entry}, entry.time = copy.time →
    same copy (assignTask entry (doWriteRawTrace ret fileSize copy)) ∨
      same entry (assignTask entry (doWriteRawTrace ret fileSize copy))

theorem mem_update_cases {tasks : List TraceDumpTask} {worked next : TraceDumpTask}
    (hmem : next ∈ updateTraceDumpTask tasks worked) :
    (∃ entry ∈ tasks, entry.time = worked.time ∧ next = assignTask entry worked) ∨
      next ∈ tasks := by
  induction tasks with
  | nil => exact absurd hmem List.not_mem_nil
  | cons head rest ih =>
      rw [updateTraceDumpTask] at hmem
      split at hmem
      · next htime =>
          rcases List.mem_cons.mp hmem with rfl | hrest
          · exact .inl ⟨head, List.mem_cons_self, htime, rfl⟩
          · exact .inr (List.mem_cons_of_mem _ hrest)
      · rcases List.mem_cons.mp hmem with rfl | hrest
        · exact .inr List.mem_cons_self
        · rcases ih hrest with ⟨entry, hentry, hassigned⟩ | hold
          · exact .inl ⟨entry, List.mem_cons_of_mem _ hentry, hassigned⟩
          · exact .inr (List.mem_cons_of_mem _ hold)

section Inheritance

variable {same : TraceDumpTask → TraceDumpTask → Prop} (hsame : Inherited same)

include hsame

theorem Inherited.mem_monitorPass {executor : TraceDumpExecutor}
    {environment : PassEnvironment} {next : TraceDumpTask}
    (hmem : next ∈ (executor.monitorPass environment).traceDumpTaskVec) :
    ∃ task ∈ executor.traceDumpTaskVec, same task next := by
  obtain ⟨hprocessed, _⟩ := List.mem_filter.mp hmem
  obtain ⟨task, htask, rfl⟩ := List.mem_map.mp hprocessed
  exact ⟨task, htask, hsame.monitor (process_update environment task)⟩

theorem Inherited.mem_passReplies {environment : PassEnvironment}
    {tasks : List TraceDumpTask} {reply : Reply}
    (hmem : reply ∈ passReplies environment tasks) :
    ∃ task ∈ tasks, same task reply.task := by
  obtain ⟨task, htask, hreply⟩ := List.mem_filterMap.mp hmem
  obtain ⟨status, hsent⟩ := process_reply hreply
  refine ⟨task, htask, ?_⟩
  rw [hsent]
  exact hsame.reply task status

/-- Every record after a step is inherited from an older one, or is the task just
submitted. -/
theorem Inherited.carries_step {isHm : Bool} {executor next : TraceDumpExecutor}
    {label : Label} (hstep : executor.step isHm label = some next)
    {task : TraceDumpTask} (hcarries : next.Carries task) :
    (∃ old, executor.Carries old ∧ same old task) ∨
      (label = .processNewTask task ∧ task.time ∉ executor.submitted) := by
  have hrefl := hsame.refl task
  cases executorStep_of_step hstep with
  | monitorPass environment =>
      refine .inl ?_
      cases hcarries with
      | queued hmem =>
          obtain ⟨old, hold, hkept⟩ := hsame.mem_monitorPass hmem
          exact ⟨old, .queued hold, hkept⟩
      | reader hreader => exact ⟨task, .reader hreader, hrefl⟩
      | writer hwriter => exact ⟨task, .writer hwriter, hrefl⟩
      | replied hmem htask =>
          rcases List.mem_append.mp hmem with hold | hnew
          · exact ⟨task, .replied hold htask, hrefl⟩
          · obtain ⟨old, hold, hkept⟩ := hsame.mem_passReplies hnew
            exact ⟨old, .queued hold, htask ▸ hkept⟩
  | submit hsubmitted hfresh =>
      cases hcarries with
      | queued hmem =>
          rcases List.mem_append.mp hmem with hold | hnew
          · exact .inl ⟨task, .queued hold, hrefl⟩
          · cases List.mem_singleton.mp hnew
            exact .inr ⟨rfl, hfresh⟩
      | reader hreader => exact .inl ⟨task, .reader hreader, hrefl⟩
      | writer hwriter => exact .inl ⟨task, .writer hwriter, hrefl⟩
      | replied hmem htask => exact .inl ⟨task, .replied hmem htask, hrefl⟩
  | readerTake hmem _ =>
      refine .inl ?_
      cases hcarries with
      | queued hmem => exact ⟨task, .queued hmem, hrefl⟩
      | reader hreader =>
          cases hreader
          exact ⟨task, .queued hmem, hrefl⟩
      | writer hwriter => exact ⟨task, .writer hwriter, hrefl⟩
      | replied hmem htask => exact ⟨task, .replied hmem htask, hrefl⟩
  | readerSkip =>
      refine .inl ⟨task, ?_, hrefl⟩
      cases hcarries with
      | queued hmem => exact .queued hmem
      | reader hreader => cases hreader
      | writer hwriter => exact .writer hwriter
      | replied hmem htask => exact .replied hmem htask
  | @readerUpdate copy hreader _ _ ret _ _ =>
      refine .inl ?_
      cases hcarries with
      | queued hmem =>
          rcases mem_update_cases hmem with ⟨entry, hentry, htime, rfl⟩ | hold
          · rw [(doReadRawTrace_status ret copy).2.1] at htime
            rcases hsame.read ret htime with hcopy | hkept
            · exact ⟨copy, .reader hreader, hcopy⟩
            · exact ⟨entry, .queued hentry, hkept⟩
          · exact ⟨task, .queued hold, hrefl⟩
      | reader hgone => cases hgone
      | writer hwriter => exact ⟨task, .writer hwriter, hrefl⟩
      | replied hmem htask => exact ⟨task, .replied hmem htask, hrefl⟩
  | writerTake hmem _ =>
      refine .inl ?_
      cases hcarries with
      | queued hmem => exact ⟨task, .queued hmem, hrefl⟩
      | reader hreader => exact ⟨task, .reader hreader, hrefl⟩
      | writer hwriter =>
          cases hwriter
          exact ⟨task, .queued hmem, hrefl⟩
      | replied hmem htask => exact ⟨task, .replied hmem htask, hrefl⟩
  | writerSkip =>
      refine .inl ⟨task, ?_, hrefl⟩
      cases hcarries with
      | queued hmem => exact .queued hmem
      | reader hreader => exact .reader hreader
      | writer hwriter => cases hwriter
      | replied hmem htask => exact .replied hmem htask
  | @writerUpdate copy hwriter _ _ _ fileSize ret _ _ =>
      refine .inl ?_
      cases hcarries with
      | queued hmem =>
          rcases mem_update_cases hmem with ⟨entry, hentry, htime, rfl⟩ | hold
          · rw [(doWriteRawTrace_status ret fileSize copy).2.1] at htime
            rcases hsame.write ret fileSize htime with hcopy | hkept
            · exact ⟨copy, .writer hwriter, hcopy⟩
            · exact ⟨entry, .queued hentry, hkept⟩
          · exact ⟨task, .queued hold, hrefl⟩
      | reader hreader => exact ⟨task, .reader hreader, hrefl⟩
      | writer hgone => cases hgone
      | replied hmem htask => exact ⟨task, .replied hmem htask, hrefl⟩

end Inheritance

/-- Two records of one task, with one time range. -/
structure SameWindow (first second : TraceDumpTask) : Prop where
  time : first.time = second.time
  window : first.window = second.window

/-- The copy brings its range back with it. -/
theorem inherited_sameWindow : Inherited SameWindow := by
  refine ⟨fun _ => ⟨rfl, rfl⟩, ?_, fun _ _ => ⟨rfl, rfl⟩, ?_, ?_⟩
  · intro task next hupdate
    obtain ⟨_, _, _, rfl⟩ := hupdate.fields
    exact ⟨rfl, rfl⟩
  · intro ret copy entry htime
    refine .inl ⟨htime.symm, ?_⟩
    unfold doReadRawTrace
    dsimp only
    split <;> rfl
  · intro ret fileSize copy entry htime
    refine .inl ⟨htime.symm, ?_⟩
    unfold doWriteRawTrace
    dsimp only
    split <;> rfl

/-- Every record after a step is an older one with the same id and range, or the
task just submitted. -/
theorem carries_step {isHm : Bool} {executor next : TraceDumpExecutor}
    {label : Label} (hstep : executor.step isHm label = some next)
    {task : TraceDumpTask} (hcarries : next.Carries task) :
    (∃ old, executor.Carries old ∧ SameWindow old task) ∨
      (label = .processNewTask task ∧ task.time ∉ executor.submitted) :=
  inherited_sameWindow.carries_step hstep hcarries

theorem submitted_step {isHm : Bool} {executor next : TraceDumpExecutor}
    {label : Label} (hstep : executor.step isHm label = some next) :
    ∀ time ∈ executor.submitted, time ∈ next.submitted := by
  intro time hmem
  cases executorStep_of_step hstep with
  | submit _ _ => exact List.mem_append_left _ hmem
  | monitorPass _ => exact hmem
  | readerTake _ _ => exact hmem
  | readerSkip => exact hmem
  | readerUpdate _ _ => exact hmem
  | writerTake _ _ => exact hmem
  | writerSkip => exact hmem
  | writerUpdate _ _ => exact hmem

theorem submitted_of_processNewTask {isHm : Bool} {executor next : TraceDumpExecutor}
    {task : TraceDumpTask}
    (hstep : executor.step isHm (.processNewTask task) = some next) :
    task.time ∈ next.submitted := by
  cases executorStep_of_step hstep with
  | submit _ _ => exact List.mem_append_right _ List.mem_cons_self

/-- The process starts with no record outside of its queue. -/
theorem queued_of_init {isHm : Bool} {executor : TraceDumpExecutor}
    (hinit : (traceDumpExecutor isHm).init executor) {task : TraceDumpTask}
    (hcarries : executor.Carries task) : task ∈ executor.traceDumpTaskVec := by
  obtain ⟨_, _, heq⟩ := hinit
  cases hcarries with
  | queued hmem => exact hmem
  | reader hreader =>
      rw [heq] at hreader
      cases hreader
  | writer hwriter =>
      rw [heq] at hwriter
      cases hwriter
  | replied hmem _ =>
      rw [heq] at hmem
      cases hmem

/-- Every record is of a submitted task, and the records of one task agree on all
that is inherited. -/
theorem Inherited.agree {same : TraceDumpTask → TraceDumpTask → Prop}
    (hsame : Inherited same) {β : Type} {value : TraceDumpTask → β}
    (htime : ∀ {first second}, same first second → first.time = second.time)
    (hvalue : ∀ {first second}, same first second → value first = value second)
    {isHm : Bool} {executor : TraceDumpExecutor}
    (hreachable : (traceDumpExecutor isHm).Reachable executor) :
    (∀ task, executor.Carries task → task.time ∈ executor.submitted) ∧
      ∀ first second, executor.Carries first → executor.Carries second →
        first.time = second.time → value first = value second := by
  refine (traceDumpExecutor isHm).invariant_of_step
    (motive := fun state => (∀ task, state.Carries task →
      task.time ∈ state.submitted) ∧ ∀ first second, state.Carries first →
        state.Carries second → first.time = second.time →
          value first = value second) ?_ ?_ hreachable
  · intro state hinit
    refine ⟨?_, ?_⟩
    · intro task hcarries
      rw [hinit.2.2]
      exact List.mem_map_of_mem (queued_of_init hinit hcarries)
    · intro first second hfirst hsecond heq
      rw [List.inj_on_of_nodup_map hinit.1 (queued_of_init hinit hfirst)
        (queued_of_init hinit hsecond) heq]
  · rintro state label next ⟨hknown, hagree⟩ hstep
    refine ⟨?_, ?_⟩
    · intro task hcarries
      rcases hsame.carries_step hstep hcarries with ⟨old, hold, hkept⟩ | ⟨rfl, _⟩
      · rw [← htime hkept]
        exact submitted_step hstep _ (hknown old hold)
      · have hsubmit : state.step isHm (.processNewTask task) = some next := hstep
        exact submitted_of_processNewTask hsubmit
    · intro first second hfirst hsecond heq
      rcases hsame.carries_step hstep hfirst with ⟨old, hold, hkept⟩ | ⟨hlabel, hfresh⟩
      · rcases hsame.carries_step hstep hsecond with
          ⟨other, hother, hsecondKept⟩ | ⟨_, hfresh⟩
        · rw [← hvalue hkept, ← hvalue hsecondKept]
          apply hagree old other hold hother
          rw [htime hkept, heq, htime hsecondKept]
        · refine absurd ?_ hfresh
          rw [← heq, ← htime hkept]
          exact hknown old hold
      · rcases hsame.carries_step hstep hsecond with
          ⟨other, hother, hsecondKept⟩ | ⟨hagain, _⟩
        · refine absurd ?_ hfresh
          rw [heq, ← htime hsecondKept]
          exact hknown other hother
        · cases hlabel.symm.trans hagain
          rfl

/-- Every record is of a submitted task, and the records of one task agree on its
range. -/
structure Windows (executor : TraceDumpExecutor) : Prop where
  known : ∀ task, executor.Carries task → task.time ∈ executor.submitted
  agree : ∀ first second, executor.Carries first → executor.Carries second →
    first.time = second.time → first.window = second.window

theorem windows_reachable {isHm : Bool} {executor : TraceDumpExecutor}
    (hreachable : (traceDumpExecutor isHm).Reachable executor) :
    Windows executor := by
  obtain ⟨hknown, hagree⟩ := inherited_sameWindow.agree SameWindow.time
    SameWindow.window hreachable
  exact ⟨hknown, hagree⟩

/-- Whatever is later recorded of a task has the range it is recorded with now. -/
theorem window_kept {isHm : Bool} {before after : TraceDumpExecutor}
    (hreachable : (traceDumpExecutor isHm).Reachable before) {labels : List Label}
    (hrun : (traceDumpExecutor isHm).run before labels = some after)
    {copy task : TraceDumpTask} (hcopy : before.Carries copy)
    (hcarries : after.Carries task) (htime : task.time = copy.time) :
    task.window = copy.window := by
  have hwindows := windows_reachable hreachable
  have hkept : copy.time ∈ after.submitted ∧ ∀ task, after.Carries task →
      task.time = copy.time → task.window = copy.window := by
    refine (traceDumpExecutor isHm).run_induction
      (motive := fun _ state => copy.time ∈ state.submitted ∧
        ∀ task, state.Carries task → task.time = copy.time →
          task.window = copy.window) ?_ ?_ hrun
    · exact ⟨hwindows.known copy hcopy,
        fun task hcarries htime => hwindows.agree task copy hcarries hcopy htime⟩
    · intro _ state label next _ hstate hstep
      refine ⟨submitted_step hstep _ hstate.1, ?_⟩
      intro task hcarries htime
      rcases carries_step hstep hcarries with ⟨old, hold, hsame⟩ | ⟨_, hfresh⟩
      · rw [← hsame.window]
        exact hstate.2 old hold (hsame.time.trans htime)
      · exact absurd (htime ▸ hstate.1) hfresh
  exact hkept.2 task hcarries htime

end TraceDumpExecutor

end Hitrace
