import Hitrace.HitraceDump.LoopControl

namespace Hitrace

open TraceDumpState

namespace LoopControl

/-! Inversion of one step: a loop thread, the call in progress, or a new call. -/

theorem step_cases {control next : LoopControl} {label : Label}
    (hstep : control.step label = some next) :
    (∃ index thread, control.threads[index]? = some thread ∧
      control.threadStep index thread label = some next) ∨
    (∃ call timeout, control.call = some call ∧ label = .callStep timeout ∧
      next = control.callStep timeout call) ∨
    (control.call = none ∧ control.publicCall label = some next) := by
  unfold step at hstep
  cases hthread : label.thread? with
  | some index =>
      rw [hthread] at hstep
      cases hget : control.threads[index]? with
      | none => simp [hget] at hstep
      | some thread =>
          left
          exact ⟨index, thread, hget, by simpa [hget] using hstep⟩
  | none =>
      rw [hthread] at hstep
      right
      cases hcall : control.call with
      | none => exact .inr ⟨rfl, by simpa [hcall] using hstep⟩
      | some call =>
          left
          cases label <;> simp [hcall] at hstep
          exact ⟨call, _, rfl, rfl, hstep.symm⟩

theorem threadStep_cases {control next : LoopControl} {index : Nat}
    {thread : LoopThread} {label : Label}
    (hstep : control.threadStep index thread label = some next) :
    (∃ pc, next = control.setThread index thread pc) ∨
    (∃ other, label = .endLoopDumpSelfStore other ∧
      next = { control with
        state := .idle
        threads := control.threads.eraseIdx index
        returned := none }) := by
  cases label <;> simp only [threadStep, reduceCtorEq] at hstep
  case endLoopDumpSelfStore other =>
    right
    split at hstep
    · exact ⟨other, rfl, (Option.some.inj hstep).symm⟩
    · cases hstep
  all_goals
    left
    split at hstep
    · exact ⟨_, (Option.some.inj hstep).symm⟩
    · cases hstep

/-! The mode byte. -/

def LegalMode (mode : TraceMode) : Prop :=
  mode = TraceMode.modeClose ∨ mode = TraceMode.modeOpen ∨
    mode = TraceMode.modeOpen ||| TraceMode.modeRecord ∨
    mode = TraceMode.modeOpen ||| TraceMode.modeCache

instance (mode : TraceMode) : Decidable (LegalMode mode) :=
  inferInstanceAs (Decidable (_ ∨ _ ∨ _ ∨ _))

theorem legalMode_openTrace {boot : BootTrace} {rootPathEmpty : Bool}
    {overload : OpenTrace} {mode : TraceMode} (hlegal : LegalMode mode) :
    LegalMode (openTrace boot rootPathEmpty overload mode).2 := by
  unfold openTrace
  split
  · exact hlegal
  · repeat' split
    · exact hlegal
    · exact hlegal
    · exact hlegal
    · exact .inr (.inl rfl)

theorem eq_open_record_of_isRecordOn {mode : TraceMode} (hlegal : LegalMode mode)
    (hrecord : isRecordOn mode = true) :
    mode = TraceMode.modeOpen ||| TraceMode.modeRecord := by
  rcases hlegal with rfl | rfl | rfl | rfl
  · exact absurd hrecord (by decide)
  · exact absurd hrecord (by decide)
  · rfl
  · exact absurd hrecord (by decide)

/-- A call that has passed the tests at its entry and taken no step yet. -/
def LoopCall.Fresh (mode : TraceMode) : LoopCall → Prop
  | .loopOn _ _ .preCheck => mode = TraceMode.modeOpen
  | .endLoopDump .recordTraceOff .entered => isRecordOn mode = true
  | .endLoopDump .cacheTraceOff .entered =>
      mode = TraceMode.modeOpen ||| TraceMode.modeCache
  | .endLoopDump (.closeTrace _) .entered => True
  | .getCacheTraceFiles .interrupt => True
  | _ => False

/-- A new call returns at once, having changed nothing but the mode, or it is
entered. -/
theorem publicCall_cases {control next : LoopControl} {label : Label}
    (hpublic : control.publicCall label = some next) :
    (∃ mode onCall code, (LegalMode control.mode → LegalMode mode) ∧
      next = { control with mode }.finish onCall code) ∨
    (∃ call, LoopCall.Fresh control.mode call ∧ next = control.enter call) := by
  have hreturns : ∀ onCall code,
      (∃ mode onCall' code', (LegalMode control.mode → LegalMode mode) ∧
        control.finish onCall code =
          { control with mode }.finish onCall' code') :=
    fun onCall code => ⟨control.mode, onCall, code, id, rfl⟩
  cases label <;>
    simp only [publicCall, reduceCtorEq, Option.some.injEq] at hpublic <;>
    subst hpublic
  case openTrace => exact .inl ⟨_, _, _, legalMode_openTrace, rfl⟩
  case loopOn =>
    unfold loopOn
    split
    · exact .inl (hreturns ..)
    · split
      · exact .inl (hreturns ..)
      · next hmode =>
          refine .inr ⟨_, ?_, rfl⟩
          exact not_not.mp hmode
  case recordTraceOff =>
    unfold recordTraceOff
    split
    · exact .inl (hreturns ..)
    · split
      · exact .inl (hreturns ..)
      · next hmode =>
          refine .inr ⟨_, ?_, rfl⟩
          simpa [LoopCall.Fresh] using hmode
  case cacheTraceOff =>
    unfold cacheTraceOff
    split
    · exact .inl (hreturns ..)
    · split
      · exact .inl (hreturns ..)
      · next hmode =>
          refine .inr ⟨_, ?_, rfl⟩
          exact not_not.mp hmode
  case closeTrace =>
    unfold closeTrace
    split
    · exact .inl (hreturns ..)
    · split
      · exact .inl (hreturns ..)
      · split
        · refine .inr ⟨_, ?_, rfl⟩
          exact trivial
        · exact .inl ⟨_, _, _, fun _ => .inl rfl, rfl⟩
  case dumpTrace =>
    unfold dumpTrace
    split
    · exact .inl (hreturns ..)
    · split
      · exact .inl (hreturns ..)
      · split
        · refine .inr ⟨_, ?_, rfl⟩
          exact trivial
        · exact .inl (hreturns ..)

theorem publicCall_frame {control next : LoopControl} {label : Label}
    (hpublic : control.publicCall label = some next) :
    next.state = control.state ∧ next.starts = control.starts ∧
      next.threads = control.threads := by
  rcases publicCall_cases hpublic with ⟨mode, onCall, code, _, rfl⟩ |
    ⟨call, _, rfl⟩
  · exact ⟨rfl, rfl, rfl⟩
  · exact ⟨rfl, rfl, rfl⟩

theorem stopped_frame (control : LoopControl) (reason : StopCall) :
    (control.stopped reason).state = control.state ∧
      (control.stopped reason).starts = control.starts ∧
      (control.stopped reason).threads = control.threads := by
  cases reason <;> exact ⟨rfl, rfl, rfl⟩

/-- What the tests at the entry of a call have established about the mode. -/
def LoopCall.Entered (mode : TraceMode) : LoopCall → Prop
  | .loopOn _ _ _ => mode = TraceMode.modeOpen
  | .endLoopDump .recordTraceOff _ =>
      mode = TraceMode.modeOpen ||| TraceMode.modeRecord
  | .endLoopDump .cacheTraceOff _ =>
      mode = TraceMode.modeOpen ||| TraceMode.modeCache
  | .endLoopDump (.closeTrace _) _ => LegalMode mode
  | .getCacheTraceFiles _ => LegalMode mode

structure ModeInvariant (control : LoopControl) : Prop where
  legal : LegalMode control.mode
  entered : ∀ call, control.call = some call → LoopCall.Entered control.mode call

theorem modeInvariant_finish {control : LoopControl} {onCall : Option LoopKind}
    {code : TraceErrorCode} {acquired : Bool} (hlegal : LegalMode control.mode) :
    ModeInvariant (control.finish onCall code acquired) :=
  ⟨hlegal, fun _ hcall => nomatch hcall⟩

theorem modeInvariant_enter {control : LoopControl} {call : LoopCall}
    (hlegal : LegalMode control.mode)
    (hentered : LoopCall.Entered control.mode call) :
    ModeInvariant (control.enter call) := by
  refine ⟨hlegal, ?_⟩
  intro other hcall
  cases hcall
  exact hentered

theorem modeInvariant_stopped {control : LoopControl} {reason : StopCall}
    {pc : EndLoopDump}
    (hentered : LoopCall.Entered control.mode (.endLoopDump reason pc)) :
    ModeInvariant (control.stopped reason) := by
  cases reason with
  | recordTraceOff =>
      apply modeInvariant_finish
      change control.mode = TraceMode.modeOpen ||| TraceMode.modeRecord at hentered
      change LegalMode (control.mode &&& ~~~TraceMode.modeRecord)
      rw [hentered]
      decide
  | cacheTraceOff =>
      apply modeInvariant_finish
      change control.mode = TraceMode.modeOpen ||| TraceMode.modeCache at hentered
      change LegalMode (control.mode &&& ~~~TraceMode.modeCache)
      rw [hentered]
      decide
  | closeTrace allTagsEmpty => exact modeInvariant_finish (.inl rfl)

theorem LoopCall.Fresh.entered {mode : TraceMode} {call : LoopCall}
    (hlegal : LegalMode mode) (hfresh : LoopCall.Fresh mode call) :
    LoopCall.Entered mode call := by
  cases call with
  | loopOn kind outputPath stage =>
      cases stage <;> first | exact hfresh | exact hfresh.elim
  | endLoopDump reason pc =>
      cases pc <;> cases reason <;> try exact hfresh.elim
      · exact eq_open_record_of_isRecordOn hlegal hfresh
      · exact hfresh
      · exact hlegal
  | getCacheTraceFiles stage => exact hlegal

theorem modeInvariant_publicCall {control next : LoopControl} {label : Label}
    (hlegal : LegalMode control.mode)
    (hpublic : control.publicCall label = some next) : ModeInvariant next := by
  rcases publicCall_cases hpublic with ⟨mode, onCall, code, hmode, rfl⟩ |
    ⟨call, hfresh, rfl⟩
  · exact modeInvariant_finish (hmode hlegal)
  · exact modeInvariant_enter hlegal (hfresh.entered hlegal)

theorem modeInvariant_callStep {control : LoopControl} {call : LoopCall}
    (timeout : Bool) (hlegal : LegalMode control.mode)
    (hentered : LoopCall.Entered control.mode call) :
    ModeInvariant (control.callStep timeout call) := by
  cases call with
  | loopOn kind outputPath stage =>
      cases stage with
      | preCheck =>
          simp only [callStep]
          split
          · exact modeInvariant_enter hlegal hentered
          · exact modeInvariant_finish hlegal
      | outputPath =>
          simp only [callStep]
          split
          · exact modeInvariant_enter hlegal hentered
          · exact modeInvariant_finish hlegal
      | started =>
          apply modeInvariant_finish
          change control.mode = TraceMode.modeOpen at hentered
          change LegalMode (control.mode ||| kind.mode)
          rw [hentered]
          cases kind <;> decide
  | endLoopDump reason pc =>
      cases pc with
      | entered => exact modeInvariant_enter hlegal (by cases reason <;> exact hentered)
      | loaded before =>
          exact modeInvariant_enter hlegal (by cases reason <;> exact hentered)
      | waiting => exact modeInvariant_enter hlegal (by cases reason <;> exact hentered)
      | returned => exact modeInvariant_stopped hentered
  | getCacheTraceFiles stage =>
      cases stage with
      | interrupt => exact modeInvariant_enter hlegal hlegal
      | resume => exact modeInvariant_finish hlegal

theorem modeInvariant_step {control next : LoopControl} {label : Label}
    (hmode : ModeInvariant control) (hstep : control.step label = some next) :
    ModeInvariant next := by
  rcases step_cases hstep with ⟨index, thread, hget, hthread⟩ |
    ⟨call, timeout, hcall, rfl, rfl⟩ | ⟨hcall, hpublic⟩
  · rcases threadStep_cases hthread with ⟨pc, rfl⟩ | ⟨other, rfl, rfl⟩
    · exact ⟨hmode.legal, hmode.entered⟩
    · exact ⟨hmode.legal, hmode.entered⟩
  · exact modeInvariant_callStep timeout hmode.legal (hmode.entered call hcall)
  · exact modeInvariant_publicCall hmode.legal hpublic

/-! One loop at a time.  While a call stands between its `StartLoopDump` and
the start of its thread, no other thread is left to store IDLE. -/

structure Exclusive (control : LoopControl) : Prop where
  single : control.threads.length ≤ 1
  busy : control.threads ≠ [] → control.state ≠ .idle
  starting : ∀ kind outputPath,
    control.call = some (.loopOn kind outputPath .outputPath) →
      control.threads = [] ∧ control.state ≠ .idle

theorem Exclusive.idle_threads {control : LoopControl}
    (hexclusive : Exclusive control) (hidle : control.state = .idle) :
    control.threads = [] := by
  by_contra hne
  exact hexclusive.busy hne hidle

theorem compareExchange_idle_iff {expected desired state : DumpState}
    (hexpected : expected ≠ .idle) (hdesired : desired ≠ .idle) :
    (compareExchange expected desired state).2 = .idle ↔ state = .idle := by
  unfold compareExchange
  split
  · next heq =>
      subst heq
      exact ⟨fun h => absurd h hdesired, fun h => absurd h hexpected⟩
  · exact Iff.rfl

/-- A step that leaves the threads alone, does not make the word idle and does
not win the token keeps the exclusion. -/
theorem Exclusive.of_frame {control next : LoopControl}
    (hexclusive : Exclusive control) (hthreads : next.threads = control.threads)
    (hidle : next.state = .idle → control.state = .idle)
    (hcall : ∀ kind outputPath,
      next.call ≠ some (.loopOn kind outputPath .outputPath)) :
    Exclusive next where
  single := by
    rw [hthreads]
    exact hexclusive.single
  busy := by
    intro hne hnext
    rw [hthreads] at hne
    exact hexclusive.busy hne (hidle hnext)
  starting := fun kind outputPath hstart =>
    absurd hstart (hcall kind outputPath)

theorem exclusive_threadStep {control next : LoopControl} {index : Nat}
    {thread : LoopThread} {label : Label} (hexclusive : Exclusive control)
    (hget : control.threads[index]? = some thread)
    (hstep : control.threadStep index thread label = some next) :
    Exclusive next := by
  have hne : control.threads ≠ [] := by
    intro hnil
    simp [hnil] at hget
  have hnotStarting : ∀ kind outputPath,
      control.call ≠ some (.loopOn kind outputPath .outputPath) :=
    fun kind outputPath hcall =>
      hne (hexclusive.starting kind outputPath hcall).1
  have hsingle := hexclusive.single
  rcases threadStep_cases hstep with ⟨pc, rfl⟩ | ⟨other, rfl, rfl⟩
  · refine ⟨?_, fun _ => hexclusive.busy hne, ?_⟩
    · simpa [setThread] using hsingle
    · exact fun kind outputPath hcall =>
        absurd hcall (hnotStarting kind outputPath)
  · have hlt : index < control.threads.length :=
      (List.getElem?_eq_some_iff.mp hget).1
    have hempty : control.threads.eraseIdx index = [] := by
      apply List.eq_nil_of_length_eq_zero
      rw [List.length_eraseIdx_of_lt hlt]
      omega
    refine ⟨by simp [hempty], fun h => absurd hempty h, ?_⟩
    exact fun kind outputPath hcall =>
      absurd hcall (hnotStarting kind outputPath)

theorem LoopCall.Fresh.not_starting {mode : TraceMode} {kind : LoopKind}
    {outputPath : List Char} :
    ¬ LoopCall.Fresh mode (.loopOn kind outputPath .outputPath) :=
  id

theorem exclusive_publicCall {control next : LoopControl} {label : Label}
    (hexclusive : Exclusive control)
    (hpublic : control.publicCall label = some next) : Exclusive next := by
  obtain ⟨hstate, _, hthreads⟩ := publicCall_frame hpublic
  refine hexclusive.of_frame hthreads (fun h => hstate ▸ h) ?_
  intro kind outputPath hcall
  rcases publicCall_cases hpublic with ⟨mode, onCall, code, _, rfl⟩ |
    ⟨call, hfresh, rfl⟩
  · exact nomatch hcall
  · cases hcall
    exact hfresh.not_starting

theorem exclusive_callStep {control : LoopControl} {call : LoopCall}
    (timeout : Bool) (hexclusive : Exclusive control)
    (hcall : control.call = some call) :
    Exclusive (control.callStep timeout call) := by
  cases call with
  | loopOn kind outputPath stage =>
      cases stage with
      | preCheck =>
          simp only [callStep]
          split
          · next hwon =>
              have hidle := (startLoopDump_iff _).mp hwon
              have hthreads := hexclusive.idle_threads hidle
              refine ⟨by simp [enter, hthreads], ?_, ?_⟩
              · exact fun hne => absurd hthreads hne
              · intro _ _ _
                refine ⟨hthreads, ?_⟩
                simp [enter, startLoopDump, compareExchange, hidle]
          · exact hexclusive.of_frame rfl id (fun _ _ h => nomatch h)
      | outputPath =>
          obtain ⟨hthreads, hbusy⟩ := hexclusive.starting kind outputPath hcall
          simp only [callStep]
          split
          · refine ⟨by simp [enter, hthreads], fun _ => hbusy, ?_⟩
            intro _ _ h
            simp [enter] at h
          · exact hexclusive.of_frame rfl id (fun _ _ h => nomatch h)
      | started => exact hexclusive.of_frame rfl id (fun _ _ h => nomatch h)
  | endLoopDump reason pc =>
      cases pc with
      | entered => exact hexclusive.of_frame rfl id (by simp [callStep, enter])
      | loaded before =>
          refine hexclusive.of_frame rfl ?_ (by simp [callStep, enter])
          exact fun h => nomatch h
      | waiting => exact hexclusive.of_frame rfl id (by simp [callStep, enter])
      | returned =>
          obtain ⟨hstate, _, hthreads⟩ := stopped_frame control reason
          refine hexclusive.of_frame hthreads (fun h => hstate ▸ h) ?_
          cases reason <;> simp [callStep, stopped, finish]
  | getCacheTraceFiles stage =>
      cases stage with
      | interrupt =>
          refine hexclusive.of_frame rfl ?_ (by simp [callStep, enter])
          exact (compareExchange_idle_iff (by decide) (by decide)).mp
      | resume =>
          refine hexclusive.of_frame rfl ?_ (by simp [callStep, finish])
          exact (compareExchange_idle_iff (by decide) (by decide)).mp

theorem exclusive_step {control next : LoopControl} {label : Label}
    (hexclusive : Exclusive control) (hstep : control.step label = some next) :
    Exclusive next := by
  rcases step_cases hstep with ⟨index, thread, hget, hthread⟩ |
    ⟨call, timeout, hcall, rfl, rfl⟩ | ⟨hcall, hpublic⟩
  · exact exclusive_threadStep hexclusive hget hthread
  · exact exclusive_callStep timeout hexclusive hcall
  · exact exclusive_publicCall hexclusive hpublic

theorem exclusive_init : Exclusive {} :=
  ⟨Nat.zero_le 1, fun hne => absurd rfl hne, fun _ _ h => nomatch h⟩

theorem modeInvariant_init : ModeInvariant {} :=
  ⟨.inl rfl, fun _ h => nomatch h⟩

end LoopControl

/-- Over every sequence of public calls and every interleaving with the loop
threads, at most one loop thread lives and the mode byte is one of the four. -/
theorem loop_exclusion {control : LoopControl}
    (hreach : loopControl.Reachable control) :
    control.threads.length ≤ 1 ∧
      (control.mode = TraceMode.modeClose ∨ control.mode = TraceMode.modeOpen ∨
        control.mode = TraceMode.modeOpen ||| TraceMode.modeRecord ∨
        control.mode = TraceMode.modeOpen ||| TraceMode.modeCache) := by
  have hexclusive : LoopControl.Exclusive control :=
    loopControl.invariant_of_step
      (fun _ hinit => hinit ▸ LoopControl.exclusive_init)
      (fun _ _ _ => LoopControl.exclusive_step) hreach
  have hmode : LoopControl.ModeInvariant control :=
    loopControl.invariant_of_step
      (fun _ hinit => hinit ▸ LoopControl.modeInvariant_init)
      (fun _ _ _ => LoopControl.modeInvariant_step) hreach
  exact ⟨hexclusive.single, hmode.legal⟩

/-- A recording whose stop times out leaves its thread alive, and the next
`RecordTraceOn` is refused. -/
theorem loop_exclusion_stop_timeout :
    ∃ control : LoopControl,
      control.returned = some ⟨some .record, .wrongTraceMode, false⟩ ∧
        control.threads.length = 1 ∧ control.threads.length ≤ 1 ∧
        (control.mode = TraceMode.modeClose ∨
          control.mode = TraceMode.modeOpen ∨
          control.mode = TraceMode.modeOpen ||| TraceMode.modeRecord ∨
          control.mode = TraceMode.modeOpen ||| TraceMode.modeCache) := by
  let boot : BootTrace := ⟨false, false⟩
  let labels : List LoopControl.Label :=
    [.openTrace boot false (.args false true .success),
      .loopOn .record boot [], .callStep false, .callStep false, .callStep false,
      .recordTraceOff boot, .callStep false, .callStep false, .callStep true,
      .callStep false, .loopOn .record boot [], .callStep false]
  refine ⟨(loopControl.run {} labels).getD {}, by decide, by decide,
    loop_exclusion ⟨labels, {}, rfl, ?_⟩⟩
  decide

end Hitrace
