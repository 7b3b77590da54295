import Hitrace.Library.Accounting
import Hitrace.Library.Transition

namespace Hitrace

open Library

structure BufferBlock where
  cpu : Int
  size : Nat
  data : List UInt8
  fits : data.length ≤ size
deriving Repr, DecidableEq

namespace BufferBlock

def ofSize (cpu : Int) (size : Nat) : BufferBlock :=
  ⟨cpu, size, [], Nat.zero_le size⟩

def usedBytes (block : BufferBlock) : Nat := block.data.length

def freeBytes (block : BufferBlock) : Nat := block.size - block.usedBytes

def append (block : BufferBlock) (src : List UInt8) : Option BufferBlock :=
  if h : block.freeBytes < src.length then none
  else some
    { block with
      data := block.data ++ src
      fits := by
        have hfits := block.fits
        rw [freeBytes, usedBytes] at h
        rw [List.length_append]
        omega }

end BufferBlock

namespace TraceBufferManager

def defaultBlockSz : Nat := 10 * 1024 * 1024

def defaultMaxTotalSz : Nat := 300 * 1024 * 1024

/-- The two sizes the constructor fixes, within a `size_t` of `sizeBits`. -/
structure Limits where
  sizeBits : Nat
  blockSz : Nat
  maxTotalSz : Nat
  fits : maxTotalSz + blockSz < 2 ^ sizeBits

def limits : Limits where
  sizeBits := 64
  blockSz := defaultBlockSz
  maxTotalSz := defaultMaxTotalSz
  fits := by decide

namespace Limits

def add (limits : Limits) (left right : Nat) : Nat :=
  (left + right) % 2 ^ limits.sizeBits

def mul (limits : Limits) (left right : Nat) : Nat :=
  (left * right) % 2 ^ limits.sizeBits

def sub (limits : Limits) (left right : Nat) : Nat :=
  (left + (2 ^ limits.sizeBits - right)) % 2 ^ limits.sizeBits

theorem add_blockSz (limits : Limits) {cur : Nat} (hcur : cur ≤ limits.maxTotalSz) :
    limits.add cur limits.blockSz = cur + limits.blockSz := by
  have hfits := limits.fits
  exact Nat.mod_eq_of_lt (by omega)

theorem mul_eq (limits : Limits) {left right : Nat}
    (hle : left * right ≤ limits.maxTotalSz) :
    limits.mul left right = left * right := by
  have hfits := limits.fits
  exact Nat.mod_eq_of_lt (by omega)

theorem sub_eq (limits : Limits) {left right : Nat}
    (hleft : left ≤ limits.maxTotalSz) (hright : right ≤ left) :
    limits.sub left right = left - right := by
  have hfits := limits.fits
  have hsplit : left + (2 ^ limits.sizeBits - right) =
      2 ^ limits.sizeBits + (left - right) := by omega
  rw [sub, hsplit, Nat.add_mod_left]
  exact Nat.mod_eq_of_lt (by omega)

end Limits

/-- Where a thread stands in `AllocateBlock` or `ReleaseTaskBlocks`; `erased`
counts the blocks the erase under the lock took out of the map. -/
inductive Thread
  | idle
  | sizeTest (taskId : UInt64) (cpu : Int)
  | tryAllocateMemorySpace (taskId : UInt64) (cpu : Int)
  | compareExchange (taskId : UInt64) (cpu : Int) (cur : Nat)
  | pushBack (taskId : UInt64) (cpu : Int)
  | eraseBlocks (taskId : UInt64)
  | fetchSub (erased released : Nat)
deriving Repr, DecidableEq

def Thread.reserved : Thread → Nat
  | .pushBack _ _ => 1
  | _ => 0

def Thread.erased : Thread → Nat
  | .fetchSub erased _ => erased
  | _ => 0

inductive Action
  | allocateBlock (taskId : UInt64) (cpu : Int)
  | releaseTaskBlocks (taskId : UInt64)
  | advance (spurious : Bool)
deriving Repr, DecidableEq

end TraceBufferManager

structure TraceBufferManager (ι : Type) where
  curTotalSz : Nat := 0
  taskBuffers : Multimap UInt64 BufferBlock := ∅
  threads : ι → TraceBufferManager.Thread := fun _ => .idle

namespace TraceBufferManager

variable {ι : Type} [DecidableEq ι]

def goto (manager : TraceBufferManager ι) (index : ι) (thread : Thread) :
    TraceBufferManager ι :=
  { manager with threads := Function.update manager.threads index thread }

@[simp] theorem goto_curTotalSz (manager : TraceBufferManager ι) (index : ι)
    (thread : Thread) :
    (manager.goto index thread).curTotalSz = manager.curTotalSz := rfl

@[simp] theorem goto_taskBuffers (manager : TraceBufferManager ι) (index : ι)
    (thread : Thread) :
    (manager.goto index thread).taskBuffers = manager.taskBuffers := rfl

/-- The test both before the loop and after each failed exchange: give up, or
try to exchange `cur` for `cur + blockSz_`. -/
def attempt (limits : Limits) (manager : TraceBufferManager ι) (index : ι)
    (taskId : UInt64) (cpu : Int) : TraceBufferManager ι :=
  if limits.add manager.curTotalSz limits.blockSz > limits.maxTotalSz then
    manager.goto index .idle
  else manager.goto index (.compareExchange taskId cpu manager.curTotalSz)

def advance (limits : Limits) (manager : TraceBufferManager ι) (index : ι)
    (spurious : Bool) : Thread → Option (TraceBufferManager ι)
  | .idle => none
  | .sizeTest taskId cpu =>
      if limits.add manager.curTotalSz limits.blockSz > limits.maxTotalSz then
        some (manager.goto index .idle)
      else some (manager.goto index (.tryAllocateMemorySpace taskId cpu))
  | .tryAllocateMemorySpace taskId cpu =>
      some (manager.attempt limits index taskId cpu)
  | .compareExchange taskId cpu cur =>
      if manager.curTotalSz = cur ∧ spurious = false then
        some { manager.goto index (.pushBack taskId cpu) with
          curTotalSz := limits.add cur limits.blockSz }
      else some (manager.attempt limits index taskId cpu)
  | .pushBack taskId cpu =>
      some { manager.goto index .idle with
        taskBuffers := manager.taskBuffers.pushBack taskId
          (BufferBlock.ofSize cpu limits.blockSz) }
  | .eraseBlocks taskId =>
      match manager.taskBuffers.lookup taskId with
      | none => some (manager.goto index .idle)
      | some blocks =>
          let released := limits.mul blocks.length limits.blockSz
          some { manager.goto index (.fetchSub blocks.length released) with
            taskBuffers := manager.taskBuffers.erase taskId }
  | .fetchSub _ released =>
      some { manager.goto index .idle with
        curTotalSz := limits.sub manager.curTotalSz released }

def step (limits : Limits) (manager : TraceBufferManager ι) :
    ι × Action → Option (TraceBufferManager ι)
  | (index, .allocateBlock taskId cpu) =>
      if manager.threads index = .idle then
        some (manager.goto index (.sizeTest taskId cpu))
      else none
  | (index, .releaseTaskBlocks taskId) =>
      if manager.threads index = .idle then
        some (manager.goto index (.eraseBlocks taskId))
      else none
  | (index, .advance spurious) =>
      manager.advance limits index spurious (manager.threads index)

end TraceBufferManager

def traceBufferManager (ι : Type) [DecidableEq ι]
    (limits : TraceBufferManager.Limits) :
    Library.Machine (TraceBufferManager ι) (ι × TraceBufferManager.Action) where
  init := fun manager => manager = {}
  step := TraceBufferManager.step limits

namespace TraceBufferManager

def Thread.Sound (limits : Limits) : Thread → Prop
  | .compareExchange _ _ cur => cur + limits.blockSz ≤ limits.maxTotalSz
  | .fetchSub erased released => released = erased * limits.blockSz
  | _ => True

section Accounting

variable {ι : Type} [Fintype ι]

/-- Blocks reserved by a won exchange and not yet in the map. -/
def reserved (manager : TraceBufferManager ι) : Nat :=
  ∑ index, (manager.threads index).reserved

/-- Blocks out of the map and not yet subtracted. -/
def erased (manager : TraceBufferManager ι) : Nat :=
  ∑ index, (manager.threads index).erased

structure Accounted (limits : Limits) (manager : TraceBufferManager ι) : Prop where
  bounded : manager.curTotalSz ≤ limits.maxTotalSz
  balance : manager.curTotalSz =
    limits.blockSz *
      (manager.taskBuffers.total + manager.reserved + manager.erased)
  sound : ∀ index, (manager.threads index).Sound limits

theorem accounted_init (limits : Limits) :
    Accounted limits ({} : TraceBufferManager ι) := by
  refine ⟨Nat.zero_le _, ?_, fun _ => trivial⟩
  simp [reserved, erased, Thread.reserved, Thread.erased]

/-- The blocks a thread has erased are still in the counter. -/
theorem Accounted.erased_le {limits : Limits} {manager : TraceBufferManager ι}
    (haccounted : Accounted limits manager) (index : ι) :
    (manager.threads index).erased * limits.blockSz ≤ manager.curTotalSz := by
  have hle := le_sum_threads Thread.erased manager.threads index
  have hthread : (manager.threads index).erased ≤ manager.erased := hle
  rw [haccounted.balance, Nat.mul_comm]
  exact Nat.mul_le_mul_left _ (by omega)

theorem Accounted.bucket_le {limits : Limits} {manager : TraceBufferManager ι}
    (haccounted : Accounted limits manager) (taskId : UInt64) :
    (manager.taskBuffers.bucket taskId).length * limits.blockSz ≤
      limits.maxTotalSz := by
  have hsplit := Multimap.total_erase_add manager.taskBuffers taskId
  have hbounded := haccounted.bounded
  rw [haccounted.balance] at hbounded
  refine Nat.le_trans ?_ hbounded
  rw [Nat.mul_comm]
  exact Nat.mul_le_mul_left _ (by omega)

variable [DecidableEq ι]

/-- A step of one thread keeps the account when what it adds to the counter is
what it adds to the blocks it answers for. -/
theorem Accounted.change {limits : Limits} {manager : TraceBufferManager ι}
    (haccounted : Accounted limits manager) {index : ι} {thread : Thread}
    {curTotalSz : Nat} {taskBuffers : Multimap UInt64 BufferBlock}
    (hsound : thread.Sound limits) (hbounded : curTotalSz ≤ limits.maxTotalSz)
    (hbalance : curTotalSz + limits.blockSz *
        (manager.taskBuffers.total + (manager.threads index).reserved +
          (manager.threads index).erased) =
      manager.curTotalSz + limits.blockSz *
        (taskBuffers.total + thread.reserved + thread.erased)) :
    Accounted limits
      { curTotalSz, taskBuffers,
        threads := Function.update manager.threads index thread } := by
  refine ⟨hbounded, ?_, ?_⟩
  · have hreserved :=
      sum_update_add Thread.reserved manager.threads index thread
    have herased := sum_update_add Thread.erased manager.threads index thread
    have hold := haccounted.balance
    simp only [reserved, erased] at hold ⊢
    rw [hold, ← Nat.mul_add] at hbalance
    apply Nat.add_right_cancel (m := limits.blockSz *
      (manager.taskBuffers.total + (manager.threads index).reserved +
        (manager.threads index).erased))
    rw [hbalance, ← Nat.mul_add]
    congr 1
    omega
  · intro other
    by_cases hother : other = index
    · subst hother
      simpa only [Function.update_self] using hsound
    · simpa only [Function.update_of_ne hother] using haccounted.sound other

/-- A step that only moves a thread between places that answer for no block. -/
theorem Accounted.goto {limits : Limits} {manager : TraceBufferManager ι}
    (haccounted : Accounted limits manager) {index : ι} {thread : Thread}
    (hsound : thread.Sound limits)
    (hreserved : thread.reserved = (manager.threads index).reserved)
    (herased : thread.erased = (manager.threads index).erased) :
    Accounted limits (manager.goto index thread) := by
  apply haccounted.change hsound haccounted.bounded
  rw [hreserved, herased]

theorem Accounted.attempt {limits : Limits} {manager : TraceBufferManager ι}
    (haccounted : Accounted limits manager) {index : ι} {taskId : UInt64}
    {cpu : Int} (hreserved : (manager.threads index).reserved = 0)
    (herased : (manager.threads index).erased = 0) :
    Accounted limits (manager.attempt limits index taskId cpu) := by
  unfold TraceBufferManager.attempt
  split
  · exact haccounted.goto trivial hreserved.symm herased.symm
  · next hroom =>
      rw [limits.add_blockSz haccounted.bounded] at hroom
      refine haccounted.goto ?_ hreserved.symm herased.symm
      exact Nat.le_of_not_gt hroom

theorem accounted_advance {limits : Limits}
    {manager next : TraceBufferManager ι} {index : ι} {spurious : Bool}
    (haccounted : Accounted limits manager)
    (hstep : manager.advance limits index spurious (manager.threads index) =
      some next) :
    Accounted limits next := by
  have hthread := haccounted.sound index
  have herased := haccounted.erased_le index
  cases hpc : manager.threads index with
  | idle => simp [advance, hpc] at hstep
  | sizeTest taskId cpu =>
      simp only [advance, hpc] at hstep
      split at hstep <;> cases hstep
      · exact haccounted.goto trivial (by rw [hpc]; rfl) (by rw [hpc]; rfl)
      · exact haccounted.goto trivial (by rw [hpc]; rfl) (by rw [hpc]; rfl)
  | tryAllocateMemorySpace taskId cpu =>
      simp only [advance, hpc] at hstep
      cases hstep
      exact haccounted.attempt (by rw [hpc]; rfl) (by rw [hpc]; rfl)
  | compareExchange taskId cpu cur =>
      simp only [advance, hpc] at hstep
      rw [hpc] at hthread
      split at hstep <;> cases hstep
      · next hwon =>
          have hroom : cur + limits.blockSz ≤ limits.maxTotalSz := hthread
          have hcur : cur ≤ limits.maxTotalSz := by omega
          rw [limits.add_blockSz hcur]
          refine haccounted.change trivial hroom ?_
          rw [hpc, hwon.1, goto_taskBuffers]
          simp only [Thread.reserved, Thread.erased, Nat.mul_add]
          omega
      · exact haccounted.attempt (by rw [hpc]; rfl) (by rw [hpc]; rfl)
  | pushBack taskId cpu =>
      simp only [advance, hpc] at hstep
      cases hstep
      refine haccounted.change trivial haccounted.bounded ?_
      rw [hpc, Multimap.total_pushBack, goto_curTotalSz]
      simp only [Thread.reserved, Thread.erased, Nat.add_zero]
  | eraseBlocks taskId =>
      simp only [advance, hpc] at hstep
      split at hstep <;> cases hstep
      · exact haccounted.goto trivial (by rw [hpc]; rfl) (by rw [hpc]; rfl)
      · next blocks hlookup =>
          have hbucket : manager.taskBuffers.bucket taskId = blocks := by
            rw [Multimap.bucket, hlookup]
            rfl
          have hreleased := limits.mul_eq (haccounted.bucket_le taskId)
          rw [hbucket] at hreleased
          refine haccounted.change hreleased haccounted.bounded ?_
          have hsplit := Multimap.total_erase_add manager.taskBuffers taskId
          rw [hpc, ← hsplit, hbucket, goto_curTotalSz]
          simp only [Thread.reserved, Thread.erased, Nat.add_zero]
  | fetchSub erased released =>
      simp only [advance, hpc] at hstep
      cases hstep
      rw [hpc] at hthread herased
      have hreleased : released = erased * limits.blockSz := hthread
      have hle : released ≤ manager.curTotalSz := hreleased ▸ herased
      rw [limits.sub_eq haccounted.bounded hle]
      refine haccounted.change trivial
        (Nat.le_trans (Nat.sub_le _ _) haccounted.bounded) ?_
      rw [hpc, hreleased, goto_taskBuffers]
      simp only [Thread.reserved, Thread.erased, Nat.mul_add]
      rw [Nat.mul_comm limits.blockSz erased]
      omega

theorem accounted_step {limits : Limits} {manager next : TraceBufferManager ι}
    {label : ι × Action} (haccounted : Accounted limits manager)
    (hstep : manager.step limits label = some next) :
    Accounted limits next := by
  obtain ⟨index, action⟩ := label
  cases action with
  | allocateBlock taskId cpu =>
      simp only [step] at hstep
      split at hstep <;> cases hstep
      next hidle =>
        exact haccounted.goto trivial (by rw [hidle]; rfl) (by rw [hidle]; rfl)
  | releaseTaskBlocks taskId =>
      simp only [step] at hstep
      split at hstep <;> cases hstep
      next hidle =>
        exact haccounted.goto trivial (by rw [hidle]; rfl) (by rw [hidle]; rfl)
  | advance spurious => exact accounted_advance haccounted hstep

end Accounting

end TraceBufferManager

/-- The counter accounts for every block of every interleaving: those in the
map, those reserved and not yet inserted, those erased and not yet subtracted. -/
theorem buffer_accounting {ι : Type} [Fintype ι] [DecidableEq ι]
    (limits : TraceBufferManager.Limits) {manager : TraceBufferManager ι}
    (hreachable : (traceBufferManager ι limits).Reachable manager) :
    manager.curTotalSz ≤ limits.maxTotalSz ∧
    (∀ index erased released,
      manager.threads index = .fetchSub erased released →
        released ≤ manager.curTotalSz) ∧
    manager.curTotalSz =
      limits.blockSz *
        (manager.taskBuffers.total + manager.reserved + manager.erased) ∧
    ((∀ index, manager.threads index = .idle) →
      manager.curTotalSz = limits.blockSz * manager.taskBuffers.total) := by
  have haccounted : TraceBufferManager.Accounted limits manager := by
    refine (traceBufferManager ι limits).invariant_of_step ?_
      (fun _ _ _ => TraceBufferManager.accounted_step) hreachable
    intro start hinit
    cases hinit
    exact TraceBufferManager.accounted_init limits
  refine ⟨haccounted.bounded, ?_, haccounted.balance, ?_⟩
  · intro index erased released hpc
    have hsound := haccounted.sound index
    have hle := haccounted.erased_le index
    rw [hpc] at hsound hle
    exact Nat.le_trans (Nat.le_of_eq hsound) hle
  · intro hidle
    have hbalance := haccounted.balance
    simpa [TraceBufferManager.reserved, TraceBufferManager.erased, hidle,
      TraceBufferManager.Thread.reserved, TraceBufferManager.Thread.erased]
      using hbalance

/-- One thread has stored a block of a task, another has erased it and not yet
subtracted it, a third holds a reservation. -/
theorem buffer_accounting_three_threads :
    ∃ manager : TraceBufferManager (Fin 3),
      manager.curTotalSz = 2 * TraceBufferManager.defaultBlockSz ∧
      manager.curTotalSz = TraceBufferManager.limits.blockSz *
        (manager.taskBuffers.total + manager.reserved + manager.erased) := by
  let labels : List (Fin 3 × TraceBufferManager.Action) :=
    [(0, .allocateBlock 7 0), (0, .advance false), (0, .advance false),
      (0, .advance false), (0, .advance false), (2, .allocateBlock 7 1),
      (2, .advance false), (2, .advance false), (2, .advance true),
      (2, .advance false), (1, .releaseTaskBlocks 7), (1, .advance false)]
  let manager : TraceBufferManager (Fin 3) :=
    ((traceBufferManager (Fin 3) TraceBufferManager.limits).run {} labels).get rfl
  have hreachable :
      (traceBufferManager (Fin 3) TraceBufferManager.limits).Reachable manager :=
    ⟨labels, {}, rfl, rfl⟩
  exact ⟨manager, rfl, (buffer_accounting _ hreachable).2.2.1⟩

end Hitrace
