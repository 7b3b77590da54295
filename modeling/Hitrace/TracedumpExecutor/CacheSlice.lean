import Hitrace.TracedumpExecutor.DumpStrategy
import Hitrace.Utils.TraceFileInfo
import Mathlib.Algebra.BigOperators.Ring.Finset
import Mathlib.Algebra.Order.BigOperators.Group.Finset
import Mathlib.Order.Lattice.Nat

namespace Hitrace

open CpuRaw

/-! The core of `CacheTraceDumpStrategy`, which writes one slice of the cache. -/

/-- What one iteration meets: the state of the loop, the boot times around the wait and
the write, and what the write leaves. -/
structure CacheRound where
  running : Bool
  startTime : UInt64
  writes : Bool
  endTime : UInt64
  traceFile : List Char
  status : RawStatus
  interrupted : Bool
deriving Repr, DecidableEq

def CacheRound.timeDiff (round : CacheRound) : UInt64 :=
  (round.endTime - round.startTime) / sToNs

def CacheRound.ret (round : CacheRound) (ret : TraceDumpRet) : TraceDumpRet :=
  { ret with
    code := round.status.dumpStatus
    traceStartTime := round.status.firstPageTimeStamp
    traceEndTime := round.status.lastPageTimeStamp
    outputFile := copyFileName round.traceFile }

/-- `DoCore` with room for so many iterations: its result, `ret`, and how many iterations
have come to their end. -/
def cacheTraceDumpDoCore (request : TraceDumpRequest) (rounds : Nat → CacheRound) :
    Nat → Nat → UInt64 → TraceDumpRet → Option (Bool × TraceDumpRet × Nat)
  | 0, _, _, _ => none
  | turns + 1, index, sliceDuration, ret =>
      let round := rounds index
      if !round.running then some (true, ret, index)
      else if !round.writes then some (false, ret, index)
      else
        let ret := round.ret ret
        let sliceDuration := sliceDuration + round.timeDiff
        if sliceDuration ≥ request.cacheSliceDuration || round.interrupted then
          some (true, ret, index + 1)
        else cacheTraceDumpDoCore request rounds turns (index + 1) sliceDuration ret

/-- The slice ends with the iteration of this number. -/
def SliceEndsAt (request : TraceDumpRequest) (rounds : Nat → CacheRound) (count : Nat) :
    Prop :=
  ∃ turns ret, cacheTraceDumpDoCore request rounds turns 0 0 {} = some (true, ret, count)

/-! The slice in nanoseconds. -/

def CacheRound.duration (round : CacheRound) : Nat :=
  (round.endTime - round.startTime).toNat

def totalDuration (rounds : Nat → CacheRound) (count : Nat) : Nat :=
  ∑ index ∈ Finset.range count, (rounds index).duration

/-- The iterations have lasted for the whole slice. -/
def FillsSlice (request : TraceDumpRequest) (rounds : Nat → CacheRound) : Set Nat :=
  { count | 0 < count ∧
    request.cacheSliceDuration.toNat * 10 ^ 9 ≤ totalDuration rounds count }

namespace CacheSlice

/-- Of two sets of numbers, one in the other, the least ones are the same when the least
one of the larger is in the smaller. -/
theorem isLeast_iff {inner outer : Set Nat} (hsubset : inner ⊆ outer) :
    (∀ count, IsLeast inner count ↔ IsLeast outer count) ↔
      ∀ count, IsLeast outer count → count ∈ inner := by
  constructor
  · intro hsame count hleast
    exact ((hsame count).mpr hleast).1
  · intro hinner count
    constructor
    · intro hleast
      have hfirst : IsLeast outer (sInf outer) :=
        ⟨Nat.sInf_mem ⟨count, hsubset hleast.1⟩, fun _ hother => Nat.sInf_le hother⟩
      refine ⟨hsubset hleast.1, ?_⟩
      intro other hother
      exact (hleast.2 (hinner _ hfirst)).trans (hfirst.2 hother)
    · intro hleast
      exact ⟨hinner count hleast, fun other hother => hleast.2 (hsubset hother)⟩

/-- The seconds the code has counted. -/
def sliceAt (rounds : Nat → CacheRound) : Nat → UInt64
  | 0 => 0
  | index + 1 => sliceAt rounds index + (rounds index).timeDiff

/-- The counted seconds are enough for the slice. -/
def counted (request : TraceDumpRequest) (rounds : Nat → CacheRound) : Set Nat :=
  { count | 0 < count ∧ request.cacheSliceDuration ≤ sliceAt rounds count }

/-- The loop runs, the writes succeed and nothing interrupts. -/
def Undisturbed (rounds : Nat → CacheRound) : Prop :=
  ∀ index, (rounds index).running = true ∧ (rounds index).writes = true ∧
    (rounds index).interrupted = false

section Runs

variable {request : TraceDumpRequest} {rounds : Nat → CacheRound}
  (hundisturbed : Undisturbed rounds)
include hundisturbed

theorem doCore_succ (turns index : Nat) (ret : TraceDumpRet) :
    cacheTraceDumpDoCore request rounds (turns + 1) index (sliceAt rounds index) ret =
      if request.cacheSliceDuration ≤ sliceAt rounds (index + 1) then
        some (true, (rounds index).ret ret, index + 1)
      else
        cacheTraceDumpDoCore request rounds turns (index + 1) (sliceAt rounds (index + 1))
          ((rounds index).ret ret) := by
  obtain ⟨hrunning, hwrites, hinterrupted⟩ := hundisturbed index
  rw [cacheTraceDumpDoCore]
  simp only [hrunning, hwrites, hinterrupted, Bool.not_true, Bool.false_eq_true, if_false,
    Bool.or_false, decide_eq_true_eq, ge_iff_le]
  rfl

theorem doCore_counted {turns index count : Nat} {ret next : TraceDumpRet} {result : Bool}
    (hcore : cacheTraceDumpDoCore request rounds turns index (sliceAt rounds index) ret =
      some (result, next, count)) :
    index < count ∧ request.cacheSliceDuration ≤ sliceAt rounds count ∧
      ∀ other, index < other → other < count →
        ¬ request.cacheSliceDuration ≤ sliceAt rounds other := by
  induction turns generalizing index ret with
  | zero => cases hcore
  | succ turns ih =>
      rw [doCore_succ hundisturbed] at hcore
      split at hcore
      · next henough =>
          cases hcore
          exact ⟨Nat.lt_succ_self index, henough, fun _ _ _ => by omega⟩
      · next henough =>
          obtain ⟨hlt, hcount, hearlier⟩ := ih hcore
          refine ⟨Nat.lt_of_succ_lt hlt, hcount, ?_⟩
          intro other hother hbefore
          rcases Nat.lt_or_ge (index + 1) other with hlater | hhere
          · exact hearlier other hlater hbefore
          · obtain rfl : other = index + 1 := by omega
            exact henough

theorem doCore_of_counted {index count : Nat} (hlt : index < count)
    (hcount : request.cacheSliceDuration ≤ sliceAt rounds count)
    (hearlier : ∀ other, index < other → other < count →
      ¬ request.cacheSliceDuration ≤ sliceAt rounds other) (ret : TraceDumpRet) :
    ∃ turns next,
      cacheTraceDumpDoCore request rounds turns index (sliceAt rounds index) ret =
        some (true, next, count) := by
  obtain ⟨left, hleft⟩ := Nat.exists_eq_add_of_lt hlt
  induction left generalizing index ret with
  | zero =>
      rw [Nat.add_zero] at hleft
      subst hleft
      refine ⟨1, (rounds index).ret ret, ?_⟩
      rw [doCore_succ hundisturbed, if_pos hcount]
  | succ left ih =>
      have hnot := hearlier (index + 1) (Nat.lt_succ_self index) (by omega)
      obtain ⟨turns, next, hturns⟩ := ih (by omega : index + 1 < count)
        (fun other hother => hearlier other (Nat.lt_of_succ_lt hother))
        ((rounds index).ret ret) (by omega)
      refine ⟨turns + 1, next, ?_⟩
      rw [doCore_succ hundisturbed, if_neg hnot]
      exact hturns

theorem sliceEndsAt_iff (count : Nat) :
    SliceEndsAt request rounds count ↔ IsLeast (counted request rounds) count := by
  constructor
  · rintro ⟨turns, ret, hcore⟩
    obtain ⟨hlt, hcount, hearlier⟩ := doCore_counted hundisturbed hcore
    refine ⟨⟨hlt, hcount⟩, ?_⟩
    rintro other ⟨hpos, hother⟩
    by_contra hbefore
    exact hearlier other hpos (Nat.lt_of_not_le hbefore) hother
  · rintro ⟨⟨hpos, hcount⟩, hleast⟩
    exact doCore_of_counted hundisturbed hpos hcount
      (fun other hother hbefore henough =>
        absurd (hleast ⟨hother, henough⟩) (Nat.not_le_of_lt hbefore)) {}

end Runs

/-! The counted seconds beside the nanoseconds. -/

section Durations

variable {request : TraceDumpRequest} {rounds : Nat → CacheRound}

theorem toNat_timeDiff (round : CacheRound) :
    round.timeDiff.toNat = round.duration / 10 ^ 9 := by
  rw [CacheRound.timeDiff, UInt64.toNat_div]
  rfl

theorem toNat_sliceAt (count : Nat) :
    (sliceAt rounds count).toNat =
      (∑ index ∈ Finset.range count, (rounds index).duration / 10 ^ 9) % 2 ^ 64 := by
  induction count with
  | zero => rfl
  | succ count ih =>
      rw [sliceAt, UInt64.toNat_add, ih, toNat_timeDiff, Finset.sum_range_succ, Nat.mod_add_mod]

/-- What is left of each iteration behind its whole seconds is not counted. -/
theorem totalDuration_eq (count : Nat) :
    totalDuration rounds count =
      10 ^ 9 * (∑ index ∈ Finset.range count, (rounds index).duration / 10 ^ 9) +
        ∑ index ∈ Finset.range count, (rounds index).duration % 10 ^ 9 := by
  rw [totalDuration, Finset.mul_sum, ← Finset.sum_add_distrib]
  exact Finset.sum_congr rfl fun index _ => (Nat.div_add_mod _ _).symm

theorem counted_subset_fillsSlice : counted request rounds ⊆ FillsSlice request rounds := by
  rintro count ⟨hpos, hcount⟩
  refine ⟨hpos, ?_⟩
  rw [UInt64.le_iff_toNat_le, toNat_sliceAt] at hcount
  have hseconds := hcount.trans (Nat.mod_le _ _)
  rw [totalDuration_eq]
  omega

theorem totalDuration_succ (count : Nat) :
    totalDuration rounds (count + 1) =
      totalDuration rounds count + (rounds count).duration :=
  Finset.sum_range_succ _ _

/-- In front of the iteration that fills the slice the slice is not full. -/
theorem totalDuration_lt {count : Nat}
    (hleast : IsLeast (FillsSlice request rounds) (count + 1))
    (hpos : 0 < request.cacheSliceDuration.toNat) :
    totalDuration rounds count < request.cacheSliceDuration.toNat * 10 ^ 9 := by
  cases count with
  | zero =>
      have hzero : totalDuration rounds 0 = 0 := rfl
      omega
  | succ count =>
      by_contra hfull
      have hle := hleast.2 ⟨Nat.succ_pos count, Nat.le_of_not_lt hfull⟩
      omega

/-- The iteration that fills the slice is the one with enough counted seconds when the
parts of seconds left out are not more than the slice is too long. -/
theorem mem_counted_iff {count : Nat} (hleast : IsLeast (FillsSlice request rounds) count)
    (hpos : 0 < request.cacheSliceDuration.toNat) :
    count ∈ counted request rounds ↔
      ∑ index ∈ Finset.range count, (rounds index).duration % 10 ^ 9 ≤
          totalDuration rounds count - request.cacheSliceDuration.toNat * 10 ^ 9 ∧
        ∑ index ∈ Finset.range count, (rounds index).duration / 10 ^ 9 < 2 ^ 64 := by
  obtain ⟨hcount, hfull⟩ := hleast.1
  obtain ⟨earlier, rfl⟩ := Nat.exists_eq_succ_of_ne_zero (Nat.pos_iff_ne_zero.mp hcount)
  have hbefore := totalDuration_lt hleast hpos
  have hduration : (rounds earlier).duration < 2 ^ 64 := UInt64.toNat_lt _
  have hslice := request.cacheSliceDuration.toNat_lt
  have htotal := @totalDuration_eq rounds (earlier + 1)
  have hearlier := @totalDuration_eq rounds earlier
  have hseconds := Finset.sum_range_succ
    (fun index => (rounds index).duration / 10 ^ 9) earlier
  have hmember : earlier + 1 ∈ counted request rounds ↔
      request.cacheSliceDuration.toNat ≤
        (∑ index ∈ Finset.range (earlier + 1), (rounds index).duration / 10 ^ 9) % 2 ^ 64 := by
    rw [← toNat_sliceAt, ← UInt64.le_iff_toNat_le]
    exact and_iff_right hcount
  rw [hmember]
  generalize ∑ index ∈ Finset.range (earlier + 1), (rounds index).duration / 10 ^ 9 =
    seconds at *
  generalize ∑ index ∈ Finset.range earlier, (rounds index).duration / 10 ^ 9 = before at *
  generalize ∑ index ∈ Finset.range (earlier + 1), (rounds index).duration % 10 ^ 9 =
    parts at *
  rw [Nat.succ_eq_add_one] at *
  omega

/-- Each iteration is cut to whole seconds before it is counted, so a slice ends in time
only when the parts cut off are not needed. -/
theorem cache_slice_length_iff (hundisturbed : Undisturbed rounds) :
    ((∀ count, SliceEndsAt request rounds count ↔
        IsLeast (FillsSlice request rounds) count) ∧
      ∀ index, SliceEndsAt request rounds (index + 1) →
        totalDuration rounds (index + 1) <
          request.cacheSliceDuration.toNat * 10 ^ 9 + (rounds index).duration) ↔
      0 < request.cacheSliceDuration.toNat ∧
        ∀ count, IsLeast (FillsSlice request rounds) count →
          ∑ index ∈ Finset.range count, (rounds index).duration % 10 ^ 9 ≤
              totalDuration rounds count - request.cacheSliceDuration.toNat * 10 ^ 9 ∧
            ∑ index ∈ Finset.range count, (rounds index).duration / 10 ^ 9 < 2 ^ 64 := by
  simp only [sliceEndsAt_iff hundisturbed]
  rw [isLeast_iff counted_subset_fillsSlice]
  constructor
  · rintro ⟨hends, hlength⟩
    have hpos : 0 < request.cacheSliceDuration.toNat := by
      by_contra hzero
      have hnone : request.cacheSliceDuration.toNat = 0 := Nat.eq_zero_of_not_pos hzero
      have henough : request.cacheSliceDuration ≤ sliceAt rounds 1 := by
        rw [UInt64.le_iff_toNat_le, hnone]
        exact Nat.zero_le _
      have hfirst : IsLeast (counted request rounds) 1 :=
        ⟨⟨Nat.one_pos, henough⟩, fun _ hother => hother.1⟩
      have htotal := hlength 0 hfirst
      have hsum : totalDuration rounds 1 = 0 + (rounds 0).duration := totalDuration_succ 0
      rw [hnone, hsum] at htotal
      omega
    exact ⟨hpos, fun count hleast => (mem_counted_iff hleast hpos).mp (hends count hleast)⟩
  · rintro ⟨hpos, hparts⟩
    have hends : ∀ count, IsLeast (FillsSlice request rounds) count →
        count ∈ counted request rounds :=
      fun count hleast => (mem_counted_iff hleast hpos).mpr (hparts count hleast)
    refine ⟨hends, ?_⟩
    intro index hindex
    have hleast := ((isLeast_iff counted_subset_fillsSlice).mpr hends (index + 1)).mp hindex
    have hbefore := totalDuration_lt hleast hpos
    rw [totalDuration_succ]
    omega

end Durations

/-- An iteration of 1.9 seconds. -/
def longRound : CacheRound where
  running := true
  startTime := 0
  writes := true
  endTime := 1900000000
  traceFile := "/data/log/hitrace/cache_trace_20250101120000@100-5.sys".toList
  status := { dumpStatus := .success, firstPageTimeStamp := 1, lastPageTimeStamp := 2 }
  interrupted := false

def tenSeconds : TraceDumpRequest where
  type := .traceCache
  limitFileSz := true
  cacheSliceDuration := 10

/-- An iteration of two seconds. -/
def wholeRound : CacheRound :=
  { longRound with endTime := 2000000000 }

theorem undisturbed_wholeRound : Undisturbed fun _ => wholeRound :=
  fun _ => ⟨rfl, rfl, rfl⟩

theorem cache_slice_length_iff_whole :
    (∀ count, SliceEndsAt tenSeconds (fun _ => wholeRound) count ↔
        IsLeast (FillsSlice tenSeconds fun _ => wholeRound) count) ∧
      ∀ index, SliceEndsAt tenSeconds (fun _ => wholeRound) (index + 1) →
        totalDuration (fun _ => wholeRound) (index + 1) <
          tenSeconds.cacheSliceDuration.toNat * 10 ^ 9 + wholeRound.duration := by
  refine (cache_slice_length_iff undisturbed_wholeRound).mpr ⟨by decide, ?_⟩
  intro count hleast
  have hduration : wholeRound.duration = 2 * 10 ^ 9 := rfl
  have hfive : 5 ∈ FillsSlice tenSeconds fun _ => wholeRound := by
    refine ⟨by decide, ?_⟩
    rw [totalDuration, Finset.sum_const, Finset.card_range, hduration]
    decide
  have hcount := hleast.2 hfive
  have hparts : ∑ _index ∈ Finset.range count, wholeRound.duration % 10 ^ 9 = 0 :=
    Finset.sum_eq_zero fun _ _ => rfl
  have hseconds : ∑ _index ∈ Finset.range count, wholeRound.duration / 10 ^ 9 = count * 2 := by
    rw [Finset.sum_const, Finset.card_range, hduration]
    rfl
  rw [hparts, hseconds]
  omega

/-- Six iterations fill ten seconds, and four more are added. -/
theorem slice_of_nineteen_seconds :
    SliceEndsAt tenSeconds (fun _ => longRound) 10 ∧
      IsLeast (FillsSlice tenSeconds fun _ => longRound) 6 ∧
      totalDuration (fun _ => longRound) 10 = 19000000000 := by
  have hcounted : ∀ count, totalDuration (fun _ => longRound) count = count * 1900000000 := by
    intro count
    rw [totalDuration, Finset.sum_const, Finset.card_range]
    rfl
  have hslice : tenSeconds.cacheSliceDuration.toNat = 10 := rfl
  refine ⟨⟨10, longRound.ret {}, by decide +kernel⟩, ⟨⟨by decide, ?_⟩, ?_⟩, hcounted 10⟩
  · rw [hcounted, hslice]
    omega
  · rintro count ⟨_, hfull⟩
    rw [hcounted, hslice] at hfull
    omega

end CacheSlice

end Hitrace
