import Hitrace.HitraceChain.HiTraceChain

namespace Hitrace

open Library HiTraceIdStruct

/-! The chain id of one thread over sequences of calls. -/

inductive ChainCall
  | chainBegin (flags : Int) (source : ChainIdSource)
  | chainEnd (id : Option HiTraceIdStruct)
  | setId (id : Option HiTraceIdStruct)
  | clearId
  | createSpan (deviceId : Int) (tv : Timeval)
  | saveAndSetId (id : Option HiTraceIdStruct)
  | restoreId (id : Option HiTraceIdStruct)

namespace ChainCall

/-- What a call returns, if anything, and the id of the thread behind it. -/
def run (platform : Platform) (thread : HiTraceIdStruct) :
    ChainCall → Option HiTraceIdStruct × HiTraceIdStruct
  | chainBegin flags source =>
      let (id, next) := thread.chainBegin platform flags source
      (some id, next)
  | chainEnd id => (none, thread.chainEnd id)
  | setId id => (none, thread.setId id)
  | clearId => (none, thread.clearId)
  | createSpan deviceId tv => (some (thread.createSpan platform deviceId tv), thread)
  | saveAndSetId id =>
      let (old, next) := thread.saveAndSetId id
      (some old, next)
  | restoreId id => (none, thread.restoreId id)

def Begins (thread : HiTraceIdStruct) (flags : Int) : Prop :=
  thread.isValid = false ∧ hitraceFlagMin ≤ flags ∧ flags ≤ hitraceFlagMax

def Ends (thread : HiTraceIdStruct) (id : Option HiTraceIdStruct) : Prop :=
  ∃ ended, id = some ended ∧ ended.isValid = true ∧ thread.isValid = true ∧
    ended.chainId = thread.chainId

def Spans (thread : HiTraceIdStruct) : Prop :=
  thread.isValid = true ∧ thread.isFlagEnabled hitraceFlagDonotCreateSpan = false

/-- What a call does to the id of the thread and what it returns. -/
def Contract (thread : HiTraceIdStruct) (call : ChainCall)
    (returned : Option HiTraceIdStruct) (next : HiTraceIdStruct) : Prop :=
  match call with
  | chainBegin flags _ =>
      ∃ id, returned = some id ∧
        (¬ Begins thread flags → id.isValid = false ∧ next = thread) ∧
        (Begins thread flags →
          next = id ∧ id.isValid = true ∧ id.spanId = 0 ∧ id.parentSpanId = 0)
  | chainEnd id =>
      (¬ Ends thread id → next = thread) ∧ (Ends thread id → next = {})
  | createSpan _ _ =>
      ∃ id, returned = some id ∧ next = thread ∧ id.chainId = thread.chainId ∧
        id.flags = thread.flags ∧ (Spans thread → id.parentSpanId = thread.spanId) ∧
        (¬ Spans thread → id = thread)
  | _ => True

variable (platform : Platform) (thread : HiTraceIdStruct)

theorem chainBegin_of_not_begins {flags : Int} (hrefused : ¬ Begins thread flags)
    (source : ChainIdSource) :
    thread.chainBegin platform flags source = (initId, thread) := by
  rw [HiTraceIdStruct.chainBegin]
  split
  · rfl
  · split
    · rfl
    · next hflags hvalid =>
        refine absurd ⟨Bool.eq_false_iff.mpr hvalid, ?_⟩ hrefused
        omega

theorem chainBegin_of_begins {flags : Int} (hbegins : Begins thread flags)
    (source : ChainIdSource) :
    ∃ id : HiTraceIdStruct, thread.chainBegin platform flags source = (id, id) ∧
      id.isValid = true ∧ id.spanId = 0 ∧ id.parentSpanId = 0 := by
  obtain ⟨hinvalid, hmin, hmax⟩ := hbegins
  rw [HiTraceIdStruct.chainBegin, if_neg (by omega), hinvalid, if_neg Bool.false_ne_true]
  exact ⟨_, rfl, rfl, rfl, rfl⟩

theorem contract_chainBegin (flags : Int) (source : ChainIdSource) :
    Contract thread (chainBegin flags source)
      (run platform thread (chainBegin flags source)).1
      (run platform thread (chainBegin flags source)).2 := by
  rw [run]
  by_cases hbegins : Begins thread flags
  · obtain ⟨id, hbegin, hid⟩ := chainBegin_of_begins platform thread hbegins source
    rw [hbegin]
    exact ⟨id, rfl, fun hrefused => absurd hbegins hrefused, fun _ => ⟨rfl, hid⟩⟩
  · rw [chainBegin_of_not_begins platform thread hbegins]
    exact ⟨initId, rfl, fun _ => ⟨rfl, rfl⟩, fun hbegun => absurd hbegun hbegins⟩

theorem contract_chainEnd (id : Option HiTraceIdStruct) :
    Contract thread (chainEnd id) (run platform thread (chainEnd id)).1
      (run platform thread (chainEnd id)).2 := by
  constructor
  · intro hkeeps
    rw [run]
    cases id with
    | none => rfl
    | some id =>
        rw [HiTraceIdStruct.chainEnd]
        split
        · rfl
        · split
          · rfl
          · split
            · rfl
            · next hended hthread hchain =>
                rw [Bool.not_eq_true', Bool.not_eq_false] at hended hthread
                rw [getChainId, getChainId, if_pos hended, if_pos hthread, not_not]
                  at hchain
                exact absurd ⟨id, rfl, hended, hthread, hchain⟩ hkeeps
  · rintro ⟨ended, rfl, hended, hthread, hchain⟩
    have hended' : (!ended.isValid) = false := by rw [hended]; rfl
    have hthread' : (!thread.isValid) = false := by rw [hthread]; rfl
    have hsame : ended.getChainId = thread.getChainId := by
      rw [getChainId, getChainId, if_pos hended, if_pos hthread, hchain]
    rw [run, HiTraceIdStruct.chainEnd, hended', hthread', if_neg Bool.false_ne_true,
      if_neg Bool.false_ne_true, if_neg (not_not_intro hsame)]
    rfl

theorem contract_createSpan (deviceId : Int) (tv : Timeval) :
    Contract thread (createSpan deviceId tv)
      (run platform thread (createSpan deviceId tv)).1
      (run platform thread (createSpan deviceId tv)).2 := by
  refine ⟨_, rfl, rfl, ?_⟩
  rw [HiTraceIdStruct.createSpan]
  split
  · next hinvalid =>
      refine ⟨rfl, rfl, ?_, fun _ => rfl⟩
      rintro ⟨hvalid, _⟩
      rw [hvalid] at hinvalid
      cases hinvalid
  · split
    · next hflag =>
        refine ⟨rfl, rfl, ?_, fun _ => rfl⟩
        rintro ⟨_, hcreates⟩
        rw [hcreates] at hflag
        cases hflag
    · next hvalid hflag =>
        rw [Bool.not_eq_true', Bool.not_eq_false] at hvalid
        refine ⟨rfl, rfl, fun _ => rfl, ?_⟩
        intro hspans
        exact absurd ⟨hvalid, Bool.eq_false_iff.mpr hflag⟩ hspans

theorem contract_run (call : ChainCall) :
    Contract thread call (call.run platform thread).1 (call.run platform thread).2 := by
  cases call with
  | chainBegin flags source => exact contract_chainBegin platform thread flags source
  | chainEnd id => exact contract_chainEnd platform thread id
  | createSpan deviceId tv => exact contract_createSpan platform thread deviceId tv
  | setId id => trivial
  | clearId => trivial
  | saveAndSetId id => trivial
  | restoreId id => trivial

end ChainCall

/-- The calls of a sequence, each with the id it found, what it returned and the id it
left. -/
def chainSteps (platform : Platform) :
    HiTraceIdStruct → List ChainCall →
      List (HiTraceIdStruct × ChainCall × Option HiTraceIdStruct × HiTraceIdStruct)
  | _, [] => []
  | thread, call :: rest =>
      let (returned, next) := call.run platform thread
      (thread, call, returned, next) :: chainSteps platform next rest

theorem contract_steps (platform : Platform) (thread : HiTraceIdStruct)
    (calls : List ChainCall) :
    ∀ step ∈ chainSteps platform thread calls,
      ChainCall.Contract step.1 step.2.1 step.2.2.1 step.2.2.2 := by
  induction calls generalizing thread with
  | nil =>
      intro step hmem
      cases hmem
  | cons call rest ih =>
      rw [chainSteps, List.forall_mem_cons]
      exact ⟨ChainCall.contract_run platform thread call, ih _⟩

/-! Blocks. -/

/-- Code in which every save has its restore. -/
inductive ChainCode
  | done
  | call (made : ChainCall) (rest : ChainCode)
  | block (id : Option HiTraceIdStruct) (body rest : ChainCode)

namespace ChainCode

def run (platform : Platform) : ChainCode → HiTraceIdStruct → HiTraceIdStruct
  | .done, thread => thread
  | .call made rest, thread => rest.run platform (made.run platform thread).2
  | .block id body rest, thread =>
      let (old, next) := thread.saveAndSetId id
      rest.run platform ((body.run platform next).restoreId (some old))

/-- Whatever a block holds, it leaves the id as it was. -/
theorem run_block (platform : Platform) (id : Option HiTraceIdStruct)
    (body rest : ChainCode) (thread : HiTraceIdStruct) :
    (block id body rest).run platform thread = rest.run platform thread := by
  cases id with
  | none => rfl
  | some id => rfl

end ChainCode

/-- The calls on the id of a thread keep their contract in every sequence, and every
block leaves the id as it was. -/
theorem chain_state_machine (platform : Platform) (thread : HiTraceIdStruct) :
    (∀ (calls : List ChainCall), ∀ step ∈ chainSteps platform thread calls,
        ChainCall.Contract step.1 step.2.1 step.2.2.1 step.2.2.2) ∧
      ∀ (id : Option HiTraceIdStruct) (body : ChainCode),
        (ChainCode.block id body .done).run platform thread = thread :=
  ⟨contract_steps platform thread,
    fun id body => ChainCode.run_block platform id body .done thread⟩

/-- With `HITRACE_FLAG_DONOT_CREATE_SPAN` the parent span is not the span of the thread. -/
theorem createSpan_without_span :
    (createSpan ⟨.little, true⟩ 1 ⟨0, 0, by decide⟩
      { valid := 1, chainId := 1, flags := 2, spanId := 3, parentSpanId := 4 }).parentSpanId ≠
        3 := by
  decide

end Hitrace
