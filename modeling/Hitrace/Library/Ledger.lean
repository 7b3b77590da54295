import Mathlib.Data.List.Nodup
import Mathlib.Logic.Function.Basic

namespace Hitrace.Library

universe u v

variable {κ : Type u} {ν : Type v}

/-- Obligations: those that wait under a key and those that were discharged. -/
@[ext] structure Ledger (κ : Type u) (ν : Type v) where
  pending : κ → Option ν
  done : List ν

namespace Ledger

def Unknown (ledger : Ledger κ ν) (value : ν) : Prop :=
  value ∉ ledger.done ∧ ∀ key, ledger.pending key ≠ some value

/-- Nothing is discharged twice, waits twice, or waits and is discharged. -/
structure Kept (ledger : Ledger κ ν) : Prop where
  nodup : ledger.done.Nodup
  apart : ∀ key value, ledger.pending key = some value → value ∉ ledger.done
  unique : ∀ key other value, ledger.pending key = some value →
    ledger.pending other = some value → key = other

variable {ledger : Ledger κ ν}

theorem nodup_append_toList {done : List ν} {entry : Option ν} (hdone : done.Nodup)
    (hnew : ∀ value, entry = some value → value ∉ done) :
    (done ++ entry.toList).Nodup := by
  cases entry with
  | none => rwa [Option.toList_none, List.append_nil]
  | some value =>
      rw [Option.toList_some, List.nodup_append_comm]
      exact List.nodup_cons.mpr ⟨hnew value rfl, hdone⟩

theorem mem_append_toList {done : List ν} {entry : Option ν} {value : ν} :
    value ∈ done ++ entry.toList ↔ value ∈ done ∨ entry = some value := by
  rw [List.mem_append, Option.mem_toList]

/-! An obligation discharged without waiting. -/

def record (ledger : Ledger κ ν) (entry : Option ν) : Ledger κ ν :=
  { ledger with done := ledger.done ++ entry.toList }

theorem Unknown.record {value : ν} (hunknown : ledger.Unknown value)
    {entry : Option ν} (hentry : entry ≠ some value) :
    (ledger.record entry).Unknown value := by
  refine ⟨?_, hunknown.2⟩
  intro hdone
  rcases mem_append_toList.mp hdone with hold | hnew
  · exact hunknown.1 hold
  · exact hentry hnew

theorem Kept.record (hkept : ledger.Kept) {entry : Option ν}
    (hnew : ∀ value, entry = some value → ledger.Unknown value) :
    (ledger.record entry).Kept := by
  refine ⟨nodup_append_toList hkept.nodup fun value hentry => (hnew value hentry).1,
    ?_, hkept.unique⟩
  intro key value hwaits hdone
  rcases mem_append_toList.mp hdone with hbefore | hentry
  · exact hkept.apart key value hwaits hbefore
  · exact (hnew value hentry).2 key hwaits

/-! Entering an obligation under a key, and discharging the one that waits there. -/

variable [DecidableEq κ]

def enter (ledger : Ledger κ ν) (key : κ) (entry : Option ν) : Ledger κ ν :=
  { ledger with pending := Function.update ledger.pending key entry }

def settle (ledger : Ledger κ ν) (key : κ) : Ledger κ ν :=
  { pending := Function.update ledger.pending key none
    done := ledger.done ++ (ledger.pending key).toList }

/-- What waits after an update is the new entry or waited before. -/
theorem update_eq_some {pending : κ → Option ν} {entry : Option ν} {key other : κ}
    {value : ν} (hwaits : Function.update pending key entry other = some value) :
    (other = key ∧ entry = some value) ∨
      (other ≠ key ∧ pending other = some value) := by
  by_cases hkey : other = key
  · subst hkey
    rw [Function.update_self] at hwaits
    exact .inl ⟨rfl, hwaits⟩
  · rw [Function.update_of_ne hkey] at hwaits
    exact .inr ⟨hkey, hwaits⟩

theorem Unknown.enter {value : ν} (hunknown : ledger.Unknown value) (key : κ)
    {entry : Option ν} (hentry : entry ≠ some value) :
    (ledger.enter key entry).Unknown value := by
  refine ⟨hunknown.1, ?_⟩
  intro other hwaits
  rcases update_eq_some hwaits with ⟨_, hnew⟩ | ⟨_, hold⟩
  · exact hentry hnew
  · exact hunknown.2 other hold

theorem Unknown.settle {value : ν} (hunknown : ledger.Unknown value) (key : κ) :
    (ledger.settle key).Unknown value := by
  refine ⟨?_, ?_⟩
  · intro hdone
    rcases mem_append_toList.mp hdone with hold | hnew
    · exact hunknown.1 hold
    · exact hunknown.2 key hnew
  · intro other hwaits
    rcases update_eq_some hwaits with ⟨_, hnew⟩ | ⟨_, hold⟩
    · exact nomatch hnew
    · exact hunknown.2 other hold

theorem Kept.enter (hkept : ledger.Kept) (key : κ) {entry : Option ν}
    (hnew : ∀ value, entry = some value → ledger.Unknown value) :
    (ledger.enter key entry).Kept := by
  refine ⟨hkept.nodup, ?_, ?_⟩
  · intro other value hwaits
    rcases update_eq_some hwaits with ⟨_, hentry⟩ | ⟨_, hold⟩
    · exact (hnew value hentry).1
    · exact hkept.apart other value hold
  · intro first second value hfirst hsecond
    rcases update_eq_some hfirst with ⟨rfl, hentry⟩ | ⟨_, hold⟩
    · rcases update_eq_some hsecond with ⟨rfl, _⟩ | ⟨_, hother⟩
      · rfl
      · exact absurd hother ((hnew value hentry).2 second)
    · rcases update_eq_some hsecond with ⟨rfl, hentry⟩ | ⟨_, hother⟩
      · exact absurd hold ((hnew value hentry).2 first)
      · exact hkept.unique first second value hold hother

theorem Kept.settle (hkept : ledger.Kept) (key : κ) : (ledger.settle key).Kept := by
  refine ⟨nodup_append_toList hkept.nodup (hkept.apart key), ?_, ?_⟩
  · intro other value hwaits hdone
    rcases update_eq_some hwaits with ⟨_, hentry⟩ | ⟨hne, hold⟩
    · exact nomatch hentry
    · rcases mem_append_toList.mp hdone with hbefore | hmoved
      · exact hkept.apart other value hold hbefore
      · exact hne (hkept.unique other key value hold hmoved)
  · intro first second value hfirst hsecond
    rcases update_eq_some hfirst with ⟨_, hentry⟩ | ⟨_, hold⟩
    · exact nomatch hentry
    · rcases update_eq_some hsecond with ⟨_, hentry⟩ | ⟨_, hother⟩
      · exact nomatch hentry
      · exact hkept.unique first second value hold hother

end Ledger

end Hitrace.Library
