import Mathlib.Algebra.Order.BigOperators.Group.List
import Mathlib.Algebra.Order.Field.Basic
import Mathlib.Algebra.Order.Floor.Ring
import Mathlib.Data.Rat.Floor
import Mathlib.Tactic.FieldSimp
import Mathlib.Tactic.Linarith
import Mathlib.Tactic.Positivity

namespace Hitrace

/-! The buffer sizes of `dynamic_buffer.cpp`, with doubles as rational numbers. -/

namespace DynamicBuffer

def expansionSize : Int := 1024 * 6

def lowThreshold : Int := 400 * 1024

def baseSize : Int := 12 * 1024

def pageKb : Int := 4

structure TraceStatsInfo where
  oldTs : ℚ := 0
  nowTs : ℚ := 0
  bytes : Int := 0

/-- The fields of a `DynamicBuffer` that are computed, and the locals of
`CalculateTraceLoad`. -/
structure LoadState where
  traceLoad : List ℚ := []
  totalAverage : Int := 0
  totalCpusLoad : ℚ := 0
  maxAverage : Int := 0

/-! A division by zero has no result. -/

def quotient (dividend divisor : Int) : Option Int :=
  if divisor = 0 then none else some (dividend.tdiv divisor)

def ratio (dividend divisor : ℚ) : Option ℚ :=
  if divisor = 0 then none else some (dividend / divisor)

/-- One turn of the loop of `CalculateTraceLoad`. -/
def addCpu (state : LoadState) (traceStats : TraceStatsInfo) : Option LoadState :=
  let duration := ⌊traceStats.nowTs - traceStats.oldTs⌋
  if duration = 0 then some { state with traceLoad := state.traceLoad ++ [0] }
  else
    (quotient traceStats.bytes duration).map fun (averageTrace : Int) =>
      let freq : ℚ := (averageTrace : ℚ) ^ 2
      { traceLoad := state.traceLoad ++ [freq]
        totalAverage := state.totalAverage + averageTrace
        totalCpusLoad := state.totalCpusLoad + freq
        maxAverage := if state.maxAverage < averageTrace then averageTrace else state.maxAverage }

/-- The loop is left at the first cpu without statistics. -/
def addCpus (getPerCpuStatsInfo : Nat → Option TraceStatsInfo) :
    List Nat → LoadState → Option (LoadState × Bool)
  | [], state => some (state, true)
  | cpuIndex :: rest, state =>
      match getPerCpuStatsInfo cpuIndex with
      | none => some (state, false)
      | some traceStats => (addCpu state traceStats).bind (addCpus getPerCpuStatsInfo rest)

/-- The average of all cpus is only logged. -/
def calculateTraceLoad (getPerCpuStatsInfo : Nat → Option TraceStatsInfo) (cpuNums : Nat) :
    Option LoadState :=
  (addCpus getPerCpuStatsInfo (List.range cpuNums) {}).bind fun loaded =>
    if loaded.2 then (quotient loaded.1.totalAverage cpuNums).map fun _ => loaded.1
    else some loaded.1

def newSize (totalCpusLoad : ℚ) (totalBonus : Int) (cpuFrequency : ℚ) : Option Int :=
  (ratio cpuFrequency totalCpusLoad).map fun (part : ℚ) =>
    (baseSize + ⌊part * totalBonus⌋).tdiv pageKb * pageKb

def calculateBufferSize (getPerCpuStatsInfo : Nat → Option TraceStatsInfo) (cpuNums : Nat) :
    Option (List Int) :=
  (calculateTraceLoad getPerCpuStatsInfo cpuNums).bind fun state =>
    if state.traceLoad.length ≠ cpuNums then some []
    else if state.maxAverage ≤ lowThreshold then some (List.replicate cpuNums baseSize)
    else state.traceLoad.mapM (newSize state.totalCpusLoad (expansionSize * cpuNums))

/-! The loads. -/

/-- The average of a cpu; one whose duration is less than one has none. -/
def averageTrace (traceStats : TraceStatsInfo) : Int :=
  if ⌊traceStats.nowTs - traceStats.oldTs⌋ = 0 then 0
  else traceStats.bytes.tdiv ⌊traceStats.nowTs - traceStats.oldTs⌋

def load (traceStats : TraceStatsInfo) : ℚ :=
  (averageTrace traceStats : ℚ) ^ 2

/-- Byte count and duration are not negative. -/
structure Measured (traceStats : TraceStatsInfo) : Prop where
  bytes : 0 ≤ traceStats.bytes
  duration : 0 ≤ traceStats.nowTs - traceStats.oldTs

section Loads

variable {traceStats : TraceStatsInfo} {cpus : List TraceStatsInfo} {state : LoadState}

theorem averageTrace_nonneg (hmeasured : Measured traceStats) : 0 ≤ averageTrace traceStats := by
  rw [averageTrace]
  split
  · exact le_refl 0
  · exact Int.tdiv_nonneg hmeasured.bytes (Int.floor_nonneg.mpr hmeasured.duration)

theorem load_nonneg (traceStats : TraceStatsInfo) : 0 ≤ load traceStats :=
  sq_nonneg _

/-- What the loop has summed up so far. -/
structure Summed (cpus : List TraceStatsInfo) (state : LoadState) : Prop where
  traceLoad : state.traceLoad = cpus.map load
  totalCpusLoad : state.totalCpusLoad = (cpus.map load).sum
  maxAverage : state.maxAverage = 0 ∨ ∃ cpu ∈ cpus, state.maxAverage = averageTrace cpu

theorem Summed.add (hsummed : Summed cpus state) (traceStats : TraceStatsInfo) :
    ∃ next, addCpu state traceStats = some next ∧ Summed (cpus ++ [traceStats]) next := by
  by_cases hduration : ⌊traceStats.nowTs - traceStats.oldTs⌋ = 0
  · have haverage : averageTrace traceStats = 0 := if_pos hduration
    have hload : load traceStats = 0 := by
      rw [load, haverage]
      simp
    refine ⟨{ state with traceLoad := state.traceLoad ++ [0] }, if_pos hduration, ?_, ?_, ?_⟩
    · rw [List.map_append, ← hsummed.traceLoad]
      simp [hload]
    · rw [List.map_append, List.sum_append, ← hsummed.totalCpusLoad]
      simp [hload]
    · exact hsummed.maxAverage.imp id fun ⟨cpu, hmem, heq⟩ =>
        ⟨cpu, List.mem_append_left _ hmem, heq⟩
  · have haverage : averageTrace traceStats =
        traceStats.bytes.tdiv ⌊traceStats.nowTs - traceStats.oldTs⌋ := if_neg hduration
    have hadd : addCpu state traceStats = some
        { traceLoad := state.traceLoad ++ [load traceStats]
          totalAverage := state.totalAverage + averageTrace traceStats
          totalCpusLoad := state.totalCpusLoad + load traceStats
          maxAverage :=
            if state.maxAverage < averageTrace traceStats then averageTrace traceStats
            else state.maxAverage } := by
      rw [addCpu]
      dsimp only
      rw [if_neg hduration, quotient, if_neg hduration, ← haverage]
      rfl
    refine ⟨_, hadd, ?_, ?_, ?_⟩
    · dsimp only
      rw [List.map_append, ← hsummed.traceLoad]
      rfl
    · dsimp only
      rw [List.map_append, List.sum_append, ← hsummed.totalCpusLoad]
      simp [load]
    · dsimp only
      split
      · exact .inr ⟨traceStats, List.mem_append_right _ List.mem_cons_self, rfl⟩
      · exact hsummed.maxAverage.imp id fun ⟨cpu, hmem, heq⟩ =>
          ⟨cpu, List.mem_append_left _ hmem, heq⟩

theorem Summed.addCpus {getPerCpuStatsInfo : Nat → Option TraceStatsInfo}
    {all rest : List TraceStatsInfo} (hall : all = cpus ++ rest)
    (hstats : ∀ index, getPerCpuStatsInfo index = all[index]?) (hsummed : Summed cpus state) :
    ∃ final, DynamicBuffer.addCpus getPerCpuStatsInfo (List.range' cpus.length rest.length) state =
      some (final, true) ∧ Summed all final := by
  induction rest generalizing cpus state with
  | nil =>
      rw [hall, List.append_nil]
      exact ⟨state, rfl, hsummed⟩
  | cons traceStats rest ih =>
      obtain ⟨next, hnext, hsummedNext⟩ := hsummed.add traceStats
      have hcurrent : getPerCpuStatsInfo cpus.length = some traceStats := by
        rw [hstats, hall, List.getElem?_append_right (Nat.le_refl _), Nat.sub_self]
        rfl
      obtain ⟨final, hfinal, hsummedFinal⟩ := ih (by rw [hall, List.append_assoc]; rfl)
        hsummedNext
      refine ⟨final, ?_, hsummedFinal⟩
      rw [List.length_append, List.length_singleton] at hfinal
      rw [List.length_cons, List.range'_succ, DynamicBuffer.addCpus, hcurrent]
      dsimp only
      rw [hnext, Option.bind_some, hfinal]

theorem summed_nil : Summed [] {} where
  traceLoad := rfl
  totalCpusLoad := rfl
  maxAverage := .inl rfl

theorem Summed.total_pos (hsummed : Summed cpus state) (hmax : lowThreshold < state.maxAverage) :
    0 < state.totalCpusLoad := by
  rcases hsummed.maxAverage with hzero | ⟨cpu, hmem, heq⟩
  · rw [hzero, lowThreshold] at hmax
    omega
  · have haverage : (0 : ℚ) < averageTrace cpu := by
      rw [heq, lowThreshold] at hmax
      exact_mod_cast (by omega : 0 < averageTrace cpu)
    have hload : 0 < load cpu := by
      rw [load]
      positivity
    have hle : load cpu ≤ (cpus.map load).sum := by
      refine List.single_le_sum (fun part hpart => ?_) _ (List.mem_map_of_mem hmem)
      obtain ⟨other, _, rfl⟩ := List.mem_map.mp hpart
      exact load_nonneg other
    rw [hsummed.totalCpusLoad]
    exact lt_of_lt_of_le hload hle

end Loads

/-! The sizes. -/

/-- The size of a cpu that has a part of the whole load. -/
def sizeOf (totalCpusLoad : ℚ) (totalBonus : Int) (cpuFrequency : ℚ) : Int :=
  (baseSize + ⌊cpuFrequency / totalCpusLoad * totalBonus⌋).tdiv pageKb * pageKb

section Sizes

variable {total : ℚ} {bonus : Int} {part other : ℚ} {loads : List ℚ}

theorem newSize_eq (htotal : 0 < total) (bonus : Int) (part : ℚ) :
    newSize total bonus part = some (sizeOf total bonus part) := by
  rw [newSize, ratio, if_neg htotal.ne']
  rfl

theorem bonus_nonneg (htotal : 0 < total) (hbonus : 0 ≤ bonus) (hpart : 0 ≤ part) :
    0 ≤ ⌊part / total * bonus⌋ := by
  refine Int.floor_nonneg.mpr (mul_nonneg (div_nonneg hpart htotal.le) ?_)
  exact_mod_cast hbonus

theorem sizeOf_eq (htotal : 0 < total) (hbonus : 0 ≤ bonus) (hpart : 0 ≤ part) :
    sizeOf total bonus part = (baseSize + ⌊part / total * bonus⌋) / pageKb * pageKb := by
  have hnonneg := bonus_nonneg htotal hbonus hpart
  rw [sizeOf, Int.tdiv_eq_ediv_of_nonneg (by rw [baseSize]; omega)]

/-- The base size is a multiple of the page size, so it is not rounded away. -/
theorem sizeOf_bounds (htotal : 0 < total) (hbonus : 0 ≤ bonus) (hpart : 0 ≤ part) :
    4 ∣ sizeOf total bonus part ∧ baseSize ≤ sizeOf total bonus part ∧
      sizeOf total bonus part ≤ baseSize + ⌊part / total * bonus⌋ := by
  have hnonneg := bonus_nonneg htotal hbonus hpart
  rw [sizeOf_eq htotal hbonus hpart, baseSize, pageKb]
  omega

theorem sizeOf_le (htotal : 0 < total) (hbonus : 0 ≤ bonus) (hpart : 0 ≤ part)
    (hwhole : part ≤ total) : sizeOf total bonus part ≤ baseSize + bonus := by
  have hratio : part / total ≤ 1 := (div_le_one htotal).mpr hwhole
  have hcast : (0 : ℚ) ≤ bonus := by exact_mod_cast hbonus
  have hfloor : ⌊part / total * bonus⌋ ≤ bonus := by
    have hle : part / total * bonus ≤ bonus := mul_le_of_le_one_left hcast hratio
    exact_mod_cast (Int.floor_le _).trans hle
  have hbounds := (sizeOf_bounds htotal hbonus hpart).2.2
  omega

theorem sizeOf_mono (htotal : 0 < total) (hbonus : 0 ≤ bonus) (hpart : 0 ≤ part)
    (hle : part ≤ other) : sizeOf total bonus part ≤ sizeOf total bonus other := by
  have hcast : (0 : ℚ) ≤ bonus := by exact_mod_cast hbonus
  have hfloor : ⌊part / total * bonus⌋ ≤ ⌊other / total * bonus⌋ :=
    Int.floor_le_floor
      (mul_le_mul_of_nonneg_right (div_le_div_of_nonneg_right hle htotal.le) hcast)
  rw [sizeOf_eq htotal hbonus hpart, sizeOf_eq htotal hbonus (hpart.trans hle), pageKb]
  omega

/-- Neither rounding adds to the sum. -/
theorem sum_sizeOf_le (htotal : 0 < total) (hbonus : 0 ≤ bonus)
    (hloads : ∀ part ∈ loads, 0 ≤ part) :
    (((loads.map (sizeOf total bonus)).sum : Int) : ℚ) ≤
      baseSize * loads.length + loads.sum / total * bonus := by
  induction loads with
  | nil => simp
  | cons part rest ih =>
      obtain ⟨hpart, hrest⟩ := List.forall_mem_cons.mp hloads
      have hsize : (sizeOf total bonus part : ℚ) ≤ baseSize + part / total * bonus := by
        have hbounds := (sizeOf_bounds htotal hbonus hpart).2.2
        have hfloor := Int.floor_le (part / total * bonus)
        have hcast : (sizeOf total bonus part : ℚ) ≤
            baseSize + (⌊part / total * bonus⌋ : Int) := by
          exact_mod_cast hbounds
        linarith
      have hsplit : (part + rest.sum) / total * (bonus : ℚ) =
          part / total * bonus + rest.sum / total * bonus := by
        rw [add_div, add_mul]
      have hinduction := ih hrest
      rw [List.map_cons, List.sum_cons, List.sum_cons, List.length_cons, hsplit, Int.cast_add,
        Nat.cast_succ, mul_add, mul_one]
      linarith

theorem mapM_newSize (htotal : 0 < total) (bonus : Int) (loads : List ℚ) :
    loads.mapM (newSize total bonus) = some (loads.map (sizeOf total bonus)) := by
  induction loads with
  | nil => rfl
  | cons part rest ih =>
      rw [List.mapM_cons, newSize_eq htotal, ih]
      rfl

end Sizes

/-! All cpus. -/

/-- What the sizes are to hold. -/
structure Sized (cpus : List TraceStatsInfo) (sizes : List Int) : Prop where
  length : sizes.length = cpus.length
  page : ∀ size ∈ sizes, 4 ∣ size
  bounds : ∀ size ∈ sizes, 12288 ≤ size ∧ size ≤ 12288 + 6144 * cpus.length
  sum : sizes.sum ≤ cpus.length * (12288 + 6144)
  mono : ∀ (first second : Nat) (firstCpu secondCpu : TraceStatsInfo)
    (firstSize secondSize : Int),
    cpus[first]? = some firstCpu → cpus[second]? = some secondCpu →
      sizes[first]? = some firstSize → sizes[second]? = some secondSize →
        averageTrace firstCpu ≤ averageTrace secondCpu → firstSize ≤ secondSize

section Result

variable {cpus : List TraceStatsInfo} {state : LoadState}

theorem sized_replicate (cpus : List TraceStatsInfo) :
    Sized cpus (List.replicate cpus.length baseSize) where
  length := List.length_replicate
  page size hsize := by
    rw [List.eq_of_mem_replicate hsize]
    decide
  bounds size hsize := by
    rw [List.eq_of_mem_replicate hsize, baseSize]
    omega
  sum := by
    rw [List.sum_replicate, nsmul_eq_mul, baseSize]
    omega
  mono first second firstCpu secondCpu firstSize secondSize _ _ hfirst hsecond _ := by
    rw [List.eq_of_mem_replicate (List.mem_of_getElem? hfirst),
      List.eq_of_mem_replicate (List.mem_of_getElem? hsecond)]

theorem load_mono {first second : TraceStatsInfo} (hmeasured : Measured first)
    (hle : averageTrace first ≤ averageTrace second) : load first ≤ load second := by
  have hnonneg : (0 : ℚ) ≤ averageTrace first := by
    exact_mod_cast averageTrace_nonneg hmeasured
  have hcast : (averageTrace first : ℚ) ≤ averageTrace second := by exact_mod_cast hle
  exact pow_le_pow_left₀ hnonneg hcast 2

theorem sized_map (hmeasured : ∀ cpu ∈ cpus, Measured cpu) {total : ℚ} (htotal : 0 < total)
    (hsum : total = (cpus.map load).sum) :
    Sized cpus ((cpus.map load).map (sizeOf total (expansionSize * cpus.length))) := by
  have hbonus : 0 ≤ expansionSize * (cpus.length : Int) := by
    rw [expansionSize]
    omega
  have hnonneg : ∀ part ∈ cpus.map load, 0 ≤ part := by
    intro part hpart
    obtain ⟨cpu, _, rfl⟩ := List.mem_map.mp hpart
    exact load_nonneg cpu
  refine ⟨by rw [List.length_map, List.length_map], fun size hsize => ?_, fun size hsize => ?_,
    ?_, ?_⟩
  · obtain ⟨part, hpart, rfl⟩ := List.mem_map.mp hsize
    exact (sizeOf_bounds htotal hbonus (hnonneg part hpart)).1
  · obtain ⟨part, hpart, rfl⟩ := List.mem_map.mp hsize
    have hwhole : part ≤ total := hsum ▸ List.single_le_sum hnonneg part hpart
    have hlow := (sizeOf_bounds htotal hbonus (hnonneg part hpart)).2.1
    have hhigh := sizeOf_le htotal hbonus (hnonneg part hpart) hwhole
    rw [baseSize, expansionSize] at hhigh
    rw [baseSize] at hlow
    exact ⟨hlow, hhigh⟩
  · have hle := sum_sizeOf_le htotal hbonus hnonneg
    rw [← hsum, div_self htotal.ne', one_mul, List.length_map, baseSize, expansionSize] at hle
    have hcast : ((cpus.map load).map
        (sizeOf total (expansionSize * cpus.length))).sum ≤
          (12 * 1024 * cpus.length + 1024 * 6 * cpus.length : Int) := by
      exact_mod_cast hle
    omega
  · intro first second firstCpu secondCpu firstSize secondSize hfirst hsecond hfirstSize
      hsecondSize hle
    rw [List.getElem?_map, List.getElem?_map, hfirst] at hfirstSize
    rw [List.getElem?_map, List.getElem?_map, hsecond] at hsecondSize
    cases hfirstSize
    cases hsecondSize
    have hfirstMeasured := hmeasured firstCpu (List.mem_of_getElem? hfirst)
    exact sizeOf_mono htotal hbonus (load_nonneg firstCpu) (load_mono hfirstMeasured hle)

/-- Nothing is divided by zero, and the sizes share out the bonus by load. -/
theorem buffer_sizes_are_shared_out {getPerCpuStatsInfo : Nat → Option TraceStatsInfo}
    (hcpus : 1 ≤ cpus.length) (hmeasured : ∀ cpu ∈ cpus, Measured cpu)
    (hstats : ∀ index, getPerCpuStatsInfo index = cpus[index]?) :
    ∃ sizes, calculateBufferSize getPerCpuStatsInfo cpus.length = some sizes ∧
      Sized cpus sizes := by
  obtain ⟨state, hstate, hsummed⟩ :=
    summed_nil.addCpus (List.nil_append cpus).symm hstats
  have hload : calculateTraceLoad getPerCpuStatsInfo cpus.length = some state := by
    have hnonzero : (cpus.length : Int) ≠ 0 := by omega
    rw [List.length_nil, ← List.range_eq_range'] at hstate
    rw [calculateTraceLoad, hstate, Option.bind_some, if_pos rfl, quotient, if_neg hnonzero]
    rfl
  have hlength : ¬ state.traceLoad.length ≠ cpus.length := by
    rw [hsummed.traceLoad, List.length_map]
    exact fun hne => hne rfl
  rw [calculateBufferSize, hload, Option.bind_some, if_neg hlength]
  split
  · exact ⟨_, rfl, sized_replicate cpus⟩
  · next hmax =>
      have htotal := hsummed.total_pos (Int.not_le.mp hmax)
      rw [mapM_newSize htotal, hsummed.traceLoad]
      exact ⟨_, rfl, sized_map hmeasured htotal hsummed.totalCpusLoad⟩

end Result

/-- An idle cpu, one that was measured for less than one second, and a busy one. -/
def sampleCpus : List TraceStatsInfo :=
  [{ nowTs := 5, bytes := 0 }, { nowTs := 1 / 2, bytes := 4096 }, { nowTs := 2, bytes := 1048576 }]

theorem buffer_sizes_are_shared_out_sample :
    ∃ sizes, calculateBufferSize (fun index => sampleCpus[index]?) sampleCpus.length =
      some sizes ∧ Sized sampleCpus sizes := by
  refine buffer_sizes_are_shared_out (by decide) ?_ fun index => rfl
  simp only [sampleCpus, List.forall_mem_cons]
  refine ⟨⟨?_, ?_⟩, ⟨?_, ?_⟩, ⟨?_, ?_⟩, List.forall_mem_nil _⟩
  all_goals norm_num

end DynamicBuffer

end Hitrace
