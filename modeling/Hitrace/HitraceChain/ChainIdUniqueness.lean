import Hitrace.HitraceChain.HiTraceChain
import Hitrace.Library.Transition
import Mathlib.Logic.Function.Basic

namespace Hitrace

open Library

/-! The chain ids that the threads of a process create. -/

/-- Where a thread stands in `HiTraceChainCreateChainId`. -/
inductive CreatePoint
  | idle
  | timed (tv : Timeval)
  | found (tv : Timeval)
  | missing (tv : Timeval)
  | chosen (tv : Timeval) (desired : Int)
  | exchanged (tv : Timeval)
  | identified (tv : Timeval) (deviceId : Int)

/-- An id with what the counter and the clock gave for it. -/
structure Creation where
  counter : BitVec 32
  tv : Timeval
  chainId : Nat

structure ChainIdFactory (ι : Type) where
  deviceId : Int := 0
  cpuId : BitVec 32 := 0
  point : ι → CreatePoint
  created : List Creation := []

inductive CreateAction
  | getTimeOfDay (tv : Timeval)
  | loadDeviceId
  | random (desired : Int)
  | compareExchange
  | returnDeviceId
  | fetchAdd

namespace ChainIdFactory

variable {ι : Type} [DecidableEq ι]

def move (factory : ChainIdFactory ι) (thread : ι) (point : CreatePoint) :
    ChainIdFactory ι :=
  { factory with point := Function.update factory.point thread point }

/-- One atomic step of a thread that stands at a point; a device id of zero is drawn
again. -/
def act (order : ByteOrder) (factory : ChainIdFactory ι) (thread : ι) :
    CreateAction → CreatePoint → Option (ChainIdFactory ι)
  | .getTimeOfDay tv, .idle => some (factory.move thread (.timed tv))
  | .loadDeviceId, .timed tv =>
      if factory.deviceId ≠ 0 then some (factory.move thread (.found tv))
      else some (factory.move thread (.missing tv))
  | .random desired, .missing tv =>
      if desired = 0 then some factory
      else some (factory.move thread (.chosen tv desired))
  | .compareExchange, .chosen tv desired =>
      let next : ChainIdFactory ι :=
        { factory with
          deviceId := if factory.deviceId = 0 then desired else factory.deviceId }
      some (next.move thread (.exchanged tv))
  | .returnDeviceId, .found tv =>
      some (factory.move thread (.identified tv factory.deviceId))
  | .returnDeviceId, .exchanged tv =>
      some (factory.move thread (.identified tv factory.deviceId))
  | .fetchAdd, .identified tv deviceId =>
      let chainId := hiTraceChainCreateChainId order
        { tv, deviceId, cpuId := factory.cpuId + 1 }
      let next : ChainIdFactory ι :=
        { factory with
          cpuId := factory.cpuId + 1
          created := factory.created ++ [⟨factory.cpuId, tv, chainId⟩] }
      some (next.move thread .idle)
  | _, _ => none

def step (order : ByteOrder) (factory : ChainIdFactory ι) (label : ι × CreateAction) :
    Option (ChainIdFactory ι) :=
  factory.act order label.1 label.2 (factory.point label.1)

end ChainIdFactory

def CreatePoint.Agrees (deviceId : Int) : CreatePoint → Prop
  | .found _ => deviceId ≠ 0
  | .chosen _ desired => desired ≠ 0
  | .exchanged _ => deviceId ≠ 0
  | .identified _ known => known = deviceId ∧ deviceId ≠ 0
  | _ => True

/-- The device id does not change any more, and the ids were made from it and from the
numbers of their creation. -/
structure ChainIdFactory.Sound {ι : Type} (order : ByteOrder) (factory : ChainIdFactory ι) :
    Prop where
  point : ∀ thread, (factory.point thread).Agrees factory.deviceId
  device : factory.created ≠ [] → factory.deviceId ≠ 0
  cpuId : factory.cpuId = BitVec.ofNat 32 factory.created.length
  created : ∀ index creation, factory.created[index]? = some creation →
    creation.counter = BitVec.ofNat 32 index ∧
      creation.chainId = hiTraceChainCreateChainId order
        ⟨creation.tv, factory.deviceId, creation.counter + 1⟩

namespace ChainIdFactory

variable {ι : Type} {order : ByteOrder} {factory : ChainIdFactory ι}

/-- The first exchange sets the device id; no id was created before. -/
theorem Sound.exchange (hsound : factory.Sound order) {desired : Int} (hdesired : desired ≠ 0) :
    Sound order
      { factory with
        deviceId := if factory.deviceId = 0 then desired else factory.deviceId } := by
  by_cases hunset : factory.deviceId = 0
  · rw [if_pos hunset]
    have hnone : factory.created = [] := by
      by_contra hsome
      exact hsound.device hsome hunset
    refine ⟨?_, fun _ => hdesired, hsound.cpuId, ?_⟩
    · intro thread
      have hagrees := hsound.point thread
      revert hagrees
      cases factory.point thread with
      | found tv => exact fun _ => hdesired
      | exchanged tv => exact fun _ => hdesired
      | chosen tv other => exact id
      | identified tv known => exact fun hagrees => absurd hunset hagrees.2
      | idle => exact id
      | timed tv => exact id
      | missing tv => exact id
    · intro index creation hcreation
      dsimp only at hcreation
      rw [hnone] at hcreation
      cases hcreation
  · rw [if_neg hunset]
    exact hsound

theorem Sound.create (hsound : factory.Sound order) (hset : factory.deviceId ≠ 0)
    (tv : Timeval) :
    Sound order
      { factory with
        cpuId := factory.cpuId + 1
        created := factory.created ++
          [⟨factory.cpuId, tv, hiTraceChainCreateChainId order
            ⟨tv, factory.deviceId, factory.cpuId + 1⟩⟩] } := by
  refine ⟨hsound.point, fun _ => hset, ?_, ?_⟩
  · dsimp only
    rw [hsound.cpuId, List.length_append, List.length_singleton, BitVec.ofNat_add]
    rfl
  · intro index creation hcreation
    dsimp only at hcreation
    rw [List.getElem?_append] at hcreation
    split at hcreation
    · exact hsound.created index creation hcreation
    · next hindex =>
        have hlast : index - factory.created.length = 0 := by
          by_contra hbeyond
          obtain ⟨next, hnext⟩ := Nat.exists_eq_succ_of_ne_zero hbeyond
          rw [hnext] at hcreation
          cases hcreation
        rw [hlast] at hcreation
        cases hcreation
        refine ⟨?_, rfl⟩
        dsimp only
        rw [hsound.cpuId]
        congr 1
        omega

variable [DecidableEq ι]

theorem agrees_update {deviceId : Int} (hpoint : ∀ thread, (factory.point thread).Agrees deviceId)
    (thread : ι) {point : CreatePoint} (hnew : point.Agrees deviceId) :
    ∀ other, (Function.update factory.point thread point other).Agrees deviceId := by
  intro other
  by_cases hother : other = thread
  · rw [hother, Function.update_self]
    exact hnew
  · rw [Function.update_of_ne hother]
    exact hpoint other

theorem Sound.move (hsound : factory.Sound order) (thread : ι) {point : CreatePoint}
    (hnew : point.Agrees factory.deviceId) : (factory.move thread point).Sound order :=
  ⟨agrees_update hsound.point thread hnew, hsound.device, hsound.cpuId, hsound.created⟩

theorem Sound.act (hsound : factory.Sound order) {thread : ι} {action : CreateAction}
    {point : CreatePoint} (hpoint : point.Agrees factory.deviceId)
    {next : ChainIdFactory ι} (hstep : factory.act order thread action point = some next) :
    next.Sound order := by
  cases action with
  | getTimeOfDay tv =>
      cases point with
      | idle =>
          cases hstep
          exact hsound.move thread trivial
      | _ => cases hstep
  | loadDeviceId =>
      cases point with
      | timed tv =>
          rw [ChainIdFactory.act] at hstep
          split at hstep
          · next hset =>
              cases hstep
              exact hsound.move thread hset
          · cases hstep
            exact hsound.move thread trivial
      | _ => cases hstep
  | random desired =>
      cases point with
      | missing tv =>
          rw [ChainIdFactory.act] at hstep
          split at hstep
          · cases hstep
            exact hsound
          · next hdesired =>
              cases hstep
              exact hsound.move thread hdesired
      | _ => cases hstep
  | compareExchange =>
      cases point with
      | chosen tv desired =>
          cases hstep
          refine (hsound.exchange hpoint).move thread ?_
          dsimp only [CreatePoint.Agrees]
          split
          · exact hpoint
          · next hset => exact hset
      | _ => cases hstep
  | returnDeviceId =>
      cases point with
      | found tv =>
          cases hstep
          exact hsound.move thread ⟨rfl, hpoint⟩
      | exchanged tv =>
          cases hstep
          exact hsound.move thread ⟨rfl, hpoint⟩
      | _ => cases hstep
  | fetchAdd =>
      cases point with
      | identified tv deviceId =>
          cases hstep
          obtain ⟨rfl, hset⟩ := hpoint
          exact (hsound.create hset tv).move thread trivial
      | _ => cases hstep

end ChainIdFactory

end Hitrace
