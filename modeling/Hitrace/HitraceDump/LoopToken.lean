import Hitrace.HitraceDump.LoopExclusion

namespace Hitrace

open TraceDumpState

namespace LoopControl

/-! Who owns the token that `StartLoopDump` hands out. -/

/-- A call stands between its `StartLoopDump` and the start of its thread. -/
def StartsLoop (control : LoopControl) : Prop :=
  ∃ kind outputPath, control.call = some (.loopOn kind outputPath .outputPath)

/-- Some loop thread was started for the latest `StartLoopDump` and has not
stored IDLE yet. -/
def HasOwner (control : LoopControl) : Prop :=
  ∃ thread ∈ control.threads, thread.token = control.starts

/-- The two steps that lose the token: the refusal of an output path after
`StartLoopDump` was won, and IDLE stored between the load and the store of
`EndLoopDump`. -/
def KeepsToken (control : LoopControl) : Label → Prop
  | .callStep _ => ∀ kind outputPath,
      control.call = some (.loopOn kind outputPath .outputPath) →
        kind.acceptsPath outputPath = true
  | .endLoopDumpSelfStore _ => ∀ reason before,
      control.call ≠ some (.endLoopDump reason (.loaded before))
  | _ => True

structure Owned (control : LoopControl) : Prop where
  exclusive : Exclusive control
  owner : control.state ≠ .idle → ¬ control.StartsLoop → control.HasOwner
  stopping : ∀ reason before,
    control.call = some (.endLoopDump reason (.loaded before)) → control.HasOwner

theorem HasOwner.setThread {control : LoopControl} {index : Nat}
    {thread : LoopThread} {pc : LoopPc}
    (hget : control.threads[index]? = some thread) (howner : control.HasOwner) :
    (control.setThread index thread pc).HasOwner := by
  obtain ⟨hlt, hthread⟩ := List.getElem?_eq_some_iff.mp hget
  obtain ⟨owner, hmem, htoken⟩ := howner
  obtain ⟨position, hposition, howner⟩ := List.mem_iff_getElem.mp hmem
  by_cases hsame : position = index
  · subst hsame
    refine ⟨{ thread with pc }, List.mem_set hlt _, ?_⟩
    have heq : owner = thread := howner.symm.trans hthread
    exact heq ▸ htoken
  · refine ⟨owner, ?_, htoken⟩
    have hset : (control.threads.set index { thread with pc })[position]? =
        some owner := by
      rw [List.getElem?_set_ne (Ne.symm hsame), ← howner]
      exact List.getElem?_eq_getElem hposition
    exact List.mem_of_getElem? hset

theorem owned_threadStep {control next : LoopControl} {index : Nat}
    {thread : LoopThread} {label : Label} (howned : Owned control)
    (hallowed : KeepsToken control label)
    (hget : control.threads[index]? = some thread)
    (hstep : control.threadStep index thread label = some next) :
    Owned next := by
  refine ⟨exclusive_threadStep howned.exclusive hget hstep, ?_, ?_⟩
  · intro hbusy hnotStarting
    rcases threadStep_cases hstep with ⟨pc, rfl⟩ | ⟨other, rfl, rfl⟩
    · exact HasOwner.setThread hget (howned.owner hbusy hnotStarting)
    · exact absurd rfl hbusy
  · intro reason before hcall
    rcases threadStep_cases hstep with ⟨pc, rfl⟩ | ⟨other, rfl, rfl⟩
    · exact HasOwner.setThread hget (howned.stopping reason before hcall)
    · exact absurd hcall (hallowed reason before)

theorem owned_publicCall {control next : LoopControl} {label : Label}
    (howned : Owned control) (hidle : control.call = none)
    (hpublic : control.publicCall label = some next) : Owned next := by
  obtain ⟨hstate, hstarts, hthreads⟩ := publicCall_frame hpublic
  refine ⟨exclusive_publicCall howned.exclusive hpublic, ?_, ?_⟩
  · intro hbusy _
    have hquiet : ¬ control.StartsLoop := by
      rintro ⟨kind, outputPath, hcall⟩
      simp [hidle] at hcall
    have howner := howned.owner (hstate ▸ hbusy) hquiet
    simpa only [HasOwner, hthreads, hstarts] using howner
  · intro reason before hcall
    rcases publicCall_cases hpublic with ⟨mode, onCall, code, _, rfl⟩ |
      ⟨call, hfresh, rfl⟩
    · exact nomatch hcall
    · cases hcall
      cases reason <;> exact hfresh.elim

/-- A step of the call in progress that leaves threads and token alone. -/
theorem owned_of_frame {control next : LoopControl}
    (hexclusive : Exclusive next) (hthreads : next.threads = control.threads)
    (hstarts : next.starts = control.starts)
    (hbusy : next.state ≠ .idle → control.HasOwner)
    (hcall : ∀ reason before,
      next.call ≠ some (.endLoopDump reason (.loaded before))) :
    Owned next := by
  refine ⟨hexclusive, ?_, fun reason before h => absurd h (hcall reason before)⟩
  intro hnext _
  simpa only [HasOwner, hthreads, hstarts] using hbusy hnext

theorem owned_callStep {control : LoopControl} {call : LoopCall}
    (timeout : Bool) (howned : Owned control)
    (hallowed : KeepsToken control (.callStep timeout))
    (hcall : control.call = some call) :
    Owned (control.callStep timeout call) := by
  have hexclusive := exclusive_callStep timeout howned.exclusive hcall
  cases call with
  | loopOn kind outputPath stage =>
      cases stage with
      | preCheck =>
          have howner : control.state ≠ .idle → control.HasOwner := fun hbusy =>
            howned.owner hbusy (by simp [StartsLoop, hcall])
          simp only [callStep] at hexclusive ⊢
          split at hexclusive
          · next hwon =>
              rw [if_pos hwon]
              refine ⟨hexclusive, ?_, fun _ _ h => by simp [enter] at h⟩
              exact fun _ hnot => absurd ⟨kind, outputPath, rfl⟩ hnot
          · next hlost =>
              rw [if_neg hlost]
              exact owned_of_frame hexclusive rfl rfl howner
                (fun _ _ h => by cases h)
      | outputPath =>
          have haccepts := hallowed kind outputPath hcall
          simp only [callStep, haccepts, if_true] at hexclusive ⊢
          refine ⟨hexclusive, ?_, fun _ _ h => by simp [enter] at h⟩
          intro _ _
          exact ⟨⟨kind, control.starts, .looping⟩, by simp [enter], rfl⟩
      | started =>
          refine owned_of_frame hexclusive rfl rfl ?_ (fun _ _ h => by cases h)
          exact fun hbusy => howned.owner hbusy (by simp [StartsLoop, hcall])
  | endLoopDump reason pc =>
      have hnotStarting : ¬ control.StartsLoop := by simp [StartsLoop, hcall]
      cases pc with
      | entered =>
          refine ⟨hexclusive, ?_, ?_⟩
          · exact fun hbusy _ => howned.owner hbusy hnotStarting
          · intro other before hloaded
            have hbusy : control.state ≠ .idle := by
              intro hidle
              simp [callStep, enter, EndLoopDump.load, hidle] at hloaded
            exact howned.owner hbusy hnotStarting
      | loaded before =>
          refine owned_of_frame hexclusive rfl rfl ?_ (by simp [callStep, enter])
          exact fun _ => howned.stopping reason before hcall
      | waiting =>
          refine owned_of_frame hexclusive rfl rfl
            (fun hbusy => howned.owner hbusy hnotStarting) ?_
          intro other before hloaded
          by_cases hend : control.state = .idle ∨ timeout <;>
            simp [callStep, enter, EndLoopDump.wait, hend] at hloaded
      | returned =>
          obtain ⟨hstate, hstarts, hthreads⟩ := stopped_frame control reason
          refine owned_of_frame hexclusive hthreads hstarts ?_ ?_
          · exact fun hbusy => howned.owner (hstate ▸ hbusy) hnotStarting
          · cases reason <;> simp [callStep, stopped, finish]
  | getCacheTraceFiles stage =>
      have hnotStarting : ¬ control.StartsLoop := by simp [StartsLoop, hcall]
      cases stage with
      | interrupt =>
          refine owned_of_frame hexclusive rfl rfl ?_ (by simp [callStep, enter])
          intro hbusy
          apply howned.owner _ hnotStarting
          exact fun hidle => hbusy
            ((compareExchange_idle_iff (by decide) (by decide)).mpr hidle)
      | resume =>
          refine owned_of_frame hexclusive rfl rfl ?_ (by simp [callStep, finish])
          intro hbusy
          apply howned.owner _ hnotStarting
          exact fun hidle => hbusy
            ((compareExchange_idle_iff (by decide) (by decide)).mpr hidle)

theorem owned_step {control next : LoopControl} {label : Label}
    (howned : Owned control) (hallowed : KeepsToken control label)
    (hstep : control.step label = some next) : Owned next := by
  rcases step_cases hstep with ⟨index, thread, hget, hthread⟩ |
    ⟨call, timeout, hcall, rfl, rfl⟩ | ⟨hcall, hpublic⟩
  · exact owned_threadStep howned hallowed hget hthread
  · exact owned_callStep timeout howned hallowed hcall
  · exact owned_publicCall howned hcall hpublic

theorem owned_init : Owned {} :=
  ⟨exclusive_init, fun h => absurd rfl h, fun _ _ h => nomatch h⟩

/-! Errors returned by `RecordTraceOn` and `CacheTraceOn`. -/

theorem publicCall_not_acquired {control next : LoopControl} {label : Label}
    {result : LoopReturn} (hpublic : control.publicCall label = some next)
    (hreturned : next.returned = some result) : result.acquired = false := by
  rcases publicCall_cases hpublic with ⟨mode, onCall, code, _, rfl⟩ |
    ⟨call, _, rfl⟩
  · cases hreturned
    rfl
  · exact nomatch hreturned

/-- An error return of a call that starts a loop leaves `state_` as it was: the
returning step does not write it, and no earlier step of the call did. -/
theorem error_keeps_state {control next : LoopControl} {label : Label}
    {result : LoopReturn} (hallowed : KeepsToken control label)
    (hstep : control.step label = some next)
    (hreturned : next.returned = some result)
    (honCall : result.onCall.isSome = true) (herror : result.code ≠ .success) :
    next.state = control.state ∧ result.acquired = false := by
  rcases step_cases hstep with ⟨index, thread, hget, hthread⟩ |
    ⟨call, timeout, hcall, rfl, rfl⟩ | ⟨hcall, hpublic⟩
  · rcases threadStep_cases hthread with ⟨pc, rfl⟩ | ⟨other, rfl, rfl⟩
    · simp [setThread] at hreturned
    · simp at hreturned
  · cases call with
    | loopOn kind outputPath stage =>
        cases stage with
        | preCheck =>
            simp only [callStep] at hreturned ⊢
            split at hreturned
            · simp [enter] at hreturned
            · next hlost =>
                rw [if_neg hlost]
                cases hreturned
                exact ⟨rfl, rfl⟩
        | outputPath =>
            have haccepts := hallowed kind outputPath hcall
            simp [callStep, haccepts, enter] at hreturned
        | started =>
            cases hreturned
            exact absurd rfl herror
    | endLoopDump reason pc =>
        cases pc <;> try simp [callStep, enter] at hreturned
        cases reason <;> cases hreturned <;> exact absurd honCall (by simp)
    | getCacheTraceFiles stage =>
        cases stage
        · simp [callStep, enter] at hreturned
        · cases hreturned
          exact absurd honCall (by simp)
  · exact ⟨(publicCall_frame hpublic).1,
      publicCall_not_acquired hpublic hreturned⟩

end LoopControl

/-- In every run that takes neither losing step, a word other than IDLE is owned
by a live loop thread started for it, and a `RecordTraceOn` or `CacheTraceOn`
that returns an error has not changed it. -/
theorem loop_token_owned {control : LoopControl}
    {labels : List LoopControl.Label}
    (hrun : loopControl.run {} labels = some control)
    (hobeys : loopControl.Obeys LoopControl.KeepsToken {} labels) :
    (¬ control.StartsLoop → control.state ≠ .idle →
      ∃ thread ∈ control.threads, thread.token = control.starts) ∧
    ∀ label next result, LoopControl.KeepsToken control label →
      loopControl.step control label = some next →
      next.returned = some result → result.onCall.isSome = true →
      result.code ≠ .success →
      next.state = control.state ∧ result.acquired = false := by
  have howned : LoopControl.Owned control :=
    loopControl.invariant_of_obeys (fun _ _ _ => LoopControl.owned_step)
      LoopControl.owned_init hobeys hrun
  constructor
  · exact fun hnotStarting hbusy => howned.owner hbusy hnotStarting
  · intro label next result hallowed hstep hreturned honCall herror
    exact LoopControl.error_keeps_state hallowed hstep hreturned honCall herror

/-- A recording to a writable path owns the token. -/
theorem loop_token_owned_recording :
    ∃ control : LoopControl,
      control.state = .running ∧
        ∃ thread ∈ control.threads, thread.token = control.starts := by
  let boot : BootTrace := ⟨false, false⟩
  let path : List Char := "/data/local/tmp/a".toList
  let labels : List LoopControl.Label :=
    [.openTrace boot false (.args false true .success),
      .loopOn .record boot path, .callStep false, .callStep false,
      .callStep false]
  let recording : LoopControl :=
    { mode := TraceMode.modeOpen ||| TraceMode.modeRecord
      state := .running
      starts := 1
      threads := [⟨.record, 1, .looping⟩]
      returned := some ⟨some .record, .success, true⟩ }
  have hrun : loopControl.run {} labels = some recording := by decide
  have hobeys : loopControl.Obeys LoopControl.KeepsToken {} labels := by
    refine ⟨trivial, trivial, ?_, ?_, ?_, trivial⟩
    · rintro kind outputPath ⟨⟩
    · rintro kind outputPath ⟨⟩
      decide
    · rintro kind outputPath ⟨⟩
  have hquiet : ¬ recording.StartsLoop := by
    rintro ⟨kind, outputPath, hcall⟩
    exact nomatch hcall
  exact ⟨recording, rfl, (loop_token_owned hrun hobeys).1 hquiet (by decide)⟩

/-- `RecordTraceOn` with an unwritable path returns FILE_ERROR and keeps the
token, with no thread to give it back. -/
theorem record_error_leaks_token :
    ¬ ∀ (control : LoopControl), loopControl.Reachable control →
      ¬ control.StartsLoop → control.state ≠ .idle →
        ∃ thread ∈ control.threads, thread.token = control.starts := by
  intro hclaim
  let boot : BootTrace := ⟨false, false⟩
  let labels : List LoopControl.Label :=
    [.openTrace boot false (.args false true .success),
      .loopOn .record boot "/tmp/a".toList, .callStep false, .callStep false]
  let leaked : LoopControl :=
    { mode := TraceMode.modeOpen
      state := .running
      starts := 1
      returned := some ⟨some .record, .fileError, true⟩ }
  have hreach : loopControl.Reachable leaked := ⟨labels, {}, rfl, by decide⟩
  have hquiet : ¬ leaked.StartsLoop := by
    rintro ⟨kind, outputPath, hcall⟩
    exact nomatch hcall
  obtain ⟨thread, hmem, _⟩ := hclaim leaked hreach hquiet (by decide)
  exact nomatch hmem

end Hitrace
