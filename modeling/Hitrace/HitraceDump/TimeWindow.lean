import Hitrace.Define

namespace Hitrace

/-! The time window of a dump, from `hitrace_dump.cpp`. -/

namespace TimeWindow

def sToNs : Nat := 1000000000

/-- The wall clock and the boot clock at one instant, in the nanoseconds of a signed
64-bit number.  The machine was booted at least a second after the epoch. -/
structure ClockReading where
  wall : Nat
  boot : Nat
  wall_lt : wall < 2 ^ 63
  boot_lt : boot < 2 ^ 63
  ahead : (boot + (sToNs - 1)) / sToNs + 1 ≤ wall / sToNs

structure TimeInterval where
  traceStartTime : Nat := 0
  traceEndTime : Nat := 2 ^ 64 - 1
deriving Repr, DecidableEq

def maxDuration (inputMaxDuration : UInt64) (traceEndTime : Nat) : Nat :=
  let duration :=
    if inputMaxDuration.toNat > 0 then toUint64 (inputMaxDuration.toNat + 1) else 0
  if duration > traceEndTime / sToNs then 0 else duration

namespace ClockReading

variable (clock : ClockReading)

def utNow : Nat := clock.wall / sToNs

def tvSec : Nat := clock.boot / sToNs

def tvNsec : Nat := clock.boot % sToNs

def btNow : Nat := clock.tvSec + if clock.tvNsec ≠ 0 then 1 else 0

def utBootTime : Nat := toUint64 (clock.utNow - clock.btNow)

/-- An end in the future is not set. -/
def utTraceEndTime (requested : UInt64) : Nat :=
  if requested.toNat ≥ clock.utNow then 0 else requested.toNat

def traceEndTime (requested : UInt64) : Option Nat :=
  if clock.utTraceEndTime requested = 0 then
    some (toUint64 (toUint64 (clock.tvSec * sToNs) + clock.tvNsec))
  else if clock.utTraceEndTime requested > clock.utBootTime then
    some (toUint64
      (toUint64 (toUint64 (clock.utTraceEndTime requested - clock.utBootTime) + 1) * sToNs))
  else none

def setTimeIntervalBoundary (inputMaxDuration requested : UInt64) (interval : TimeInterval) :
    TraceErrorCode × TimeInterval :=
  match clock.traceEndTime requested with
  | none => (.outOfTime, interval)
  | some traceEndTime =>
      if maxDuration inputMaxDuration traceEndTime > 0 then
        (.success,
          { traceStartTime := toUint64 (traceEndTime -
              toUint64 (maxDuration inputMaxDuration traceEndTime * sToNs))
            traceEndTime })
      else (.success, { traceStartTime := 0, traceEndTime })

/-- The subtractions and products of the call, as they come out without a wrap. -/
def operations (inputMaxDuration requested : UInt64) : List Int :=
  (clock.utNow - clock.btNow : Int) ::
    match clock.traceEndTime requested with
    | none => []
    | some traceEndTime =>
        (if clock.utTraceEndTime requested = 0 then [(clock.tvSec * sToNs : Int)]
          else
            [(clock.utTraceEndTime requested - clock.utBootTime : Int),
              (toUint64 (toUint64 (clock.utTraceEndTime requested - clock.utBootTime) + 1) *
                sToNs : Int)]) ++
          if maxDuration inputMaxDuration traceEndTime > 0 then
            [(maxDuration inputMaxDuration traceEndTime * sToNs : Int),
              (traceEndTime -
                toUint64 (maxDuration inputMaxDuration traceEndTime * sToNs) : Int)]
          else []

end ClockReading

def restoreTimeIntervalBoundary (_interval : TimeInterval) : TimeInterval where
  traceStartTime := 0
  traceEndTime := 2 ^ 64 - 1

/-- A public dump call, with what it finds before it reads the trace. -/
structure DumpCall where
  maxDuration : UInt32
  utTraceEndTime : UInt64
  clock : ClockReading
  bootGate : Bool
  statusAccepted : Bool
  cacheOn : Bool

namespace DumpCall

/-- The part of a call that `DumpTrace` and `DumpTraceAsync` share. -/
def dumpInWindow (call : DumpCall) (interval : TimeInterval) : TimeInterval :=
  if !call.statusAccepted then interval
  else if call.cacheOn then interval
  else
    match call.clock.setTimeIntervalBoundary call.maxDuration.toUInt64 call.utTraceEndTime
        interval with
    | (.success, window) => restoreTimeIntervalBoundary window
    | (_, window) => window

def dumpTrace (call : DumpCall) (pathRefused : Bool) (interval : TimeInterval) :
    TimeInterval :=
  if call.bootGate then interval
  else if pathRefused then interval
  else call.dumpInWindow interval

def dumpTraceAsync (call : DumpCall) (interval : TimeInterval) : TimeInterval :=
  if call.bootGate then interval
  else call.dumpInWindow interval

end DumpCall

inductive PublicCall
  | dumpTrace (call : DumpCall) (pathRefused : Bool)
  | dumpTraceAsync (call : DumpCall)

def PublicCall.perform : PublicCall → TimeInterval → TimeInterval
  | .dumpTrace call pathRefused => call.dumpTrace pathRefused
  | .dumpTraceAsync call => call.dumpTraceAsync

/-- The window after the calls, from the start of the process. -/
def windowAfter (calls : List PublicCall) : TimeInterval :=
  calls.foldl (fun interval call => call.perform interval) {}

/-! What the window is for. -/

variable {clock : ClockReading} {inputMaxDuration requested : UInt64}

/-- The wall-clock second of an event with this boot time. -/
def ClockReading.wallSecond (clock : ClockReading) (event : Nat) : Nat :=
  (event + (clock.wall - clock.boot)) / sToNs

/-- Nothing wraps, and the events of the requested seconds lie in the window. -/
structure Covers (clock : ClockReading) (inputMaxDuration requested : UInt64)
    (interval : TimeInterval) : Prop where
  exact : ∀ result ∈ clock.operations inputMaxDuration requested,
    0 ≤ result ∧ result < 2 ^ 64
  ordered : interval.traceStartTime ≤ interval.traceEndTime
  covered : ∀ event : Nat,
    (requested.toNat : Int) - inputMaxDuration.toNat ≤ clock.wallSecond event →
    clock.wallSecond event ≤ requested.toNat →
      interval.traceStartTime ≤ event ∧ event ≤ interval.traceEndTime

theorem toUint64_of_lt (value : Int) (hnonneg : 0 ≤ value) (hlt : value < 2 ^ 64) :
    (toUint64 value : Int) = value := by
  rw [toUint64]
  omega

theorem btNow_eq (clock : ClockReading) :
    clock.btNow = (clock.boot + (sToNs - 1)) / sToNs := by
  rw [ClockReading.btNow, ClockReading.tvNsec, ClockReading.tvSec, sToNs]
  split <;> omega

theorem btNow_lt_utNow (clock : ClockReading) : clock.btNow < clock.utNow := by
  rw [btNow_eq]
  exact clock.ahead

theorem utNow_lt (clock : ClockReading) : clock.utNow < 2 ^ 63 := by
  have hwall := clock.wall_lt
  rw [ClockReading.utNow, sToNs]
  omega

theorem utBootTime_eq (clock : ClockReading) :
    clock.utBootTime = clock.utNow - clock.btNow := by
  have hbefore := btNow_lt_utNow clock
  have hnow := utNow_lt clock
  have hexact := toUint64_of_lt (clock.utNow - clock.btNow) (by omega) (by omega)
  rw [ClockReading.utBootTime]
  omega

theorem utTraceEndTime_eq (hpast : requested.toNat < clock.utNow) :
    clock.utTraceEndTime requested = requested.toNat :=
  if_neg (Nat.not_le_of_lt hpast)

theorem ended_le (hpast : requested.toNat < clock.utNow)
    (hlater : clock.utBootTime < requested.toNat) :
    (requested.toNat - clock.utBootTime + 1) * sToNs ≤ clock.boot + (sToNs - 1) := by
  have hbefore := btNow_lt_utNow clock
  have hbt := btNow_eq clock
  rw [utBootTime_eq] at *
  rw [sToNs] at *
  omega

theorem traceEndTime_eq (hpast : requested.toNat < clock.utNow) {traceEndTime : Nat}
    (hend : clock.traceEndTime requested = some traceEndTime) :
    (requested.toNat = 0 ∧ traceEndTime = clock.boot) ∨
      (requested.toNat ≠ 0 ∧ clock.utBootTime < requested.toNat ∧
        traceEndTime = (requested.toNat - clock.utBootTime + 1) * sToNs) := by
  have hboot := clock.boot_lt
  rw [ClockReading.traceEndTime, utTraceEndTime_eq hpast] at hend
  split at hend
  · next hzero =>
      cases hend
      refine Or.inl ⟨hzero, ?_⟩
      have hproduct := toUint64_of_lt (clock.tvSec * sToNs)
        (by simp only [ClockReading.tvSec, sToNs]; omega)
        (by simp only [ClockReading.tvSec, sToNs]; omega)
      have hsum := toUint64_of_lt (clock.boot) (by omega) (by omega)
      have hsplit : (clock.tvSec * sToNs : Int) + clock.tvNsec = clock.boot := by
        simp only [ClockReading.tvSec, ClockReading.tvNsec, sToNs]
        omega
      rw [hproduct, hsplit]
      omega
  · split at hend
    · next hset hlater =>
        cases hend
        refine Or.inr ⟨hset, hlater, ?_⟩
        have hle := ended_le hpast hlater
        have hrequested := utNow_lt clock
        have hdifference := toUint64_of_lt
          (requested.toNat - clock.utBootTime) (by omega) (by omega)
        rw [hdifference]
        have hsuccessor := toUint64_of_lt
          (requested.toNat - clock.utBootTime + 1) (by omega) (by omega)
        rw [hsuccessor]
        have hproduct := toUint64_of_lt
          ((requested.toNat - clock.utBootTime + 1) * sToNs)
          (by rw [sToNs] at *; omega) (by rw [sToNs] at *; omega)
        rw [sToNs] at *
        omega
    · cases hend

theorem traceEndTime_lt (hpast : requested.toNat < clock.utNow) {traceEndTime : Nat}
    (hend : clock.traceEndTime requested = some traceEndTime) : traceEndTime < 2 ^ 64 := by
  have hboot := clock.boot_lt
  rcases traceEndTime_eq hpast hend with ⟨_, hnow⟩ | ⟨_, hlater, hended⟩
  · omega
  · have hle := ended_le hpast hlater
    rw [sToNs] at *
    omega

theorem maxDuration_pos {traceEndTime : Nat}
    (hpos : 0 < maxDuration inputMaxDuration traceEndTime) :
    0 < inputMaxDuration.toNat ∧
      maxDuration inputMaxDuration traceEndTime = inputMaxDuration.toNat + 1 ∧
      (inputMaxDuration.toNat + 1) * sToNs ≤ traceEndTime := by
  have hlt := inputMaxDuration.toNat_lt
  rw [maxDuration] at hpos ⊢
  by_cases hset : inputMaxDuration.toNat > 0
  · rw [if_pos hset] at hpos ⊢
    split at hpos
    · omega
    · next hfits =>
        rw [if_neg hfits]
        rw [toUint64, sToNs] at *
        omega
  · rw [if_neg hset, ite_self] at hpos
    omega

theorem window_eq {before after : TimeInterval}
    (hset : clock.setTimeIntervalBoundary inputMaxDuration requested before =
      (.success, after))
    (hstart : after.traceStartTime ≠ 0) (hpast : requested.toNat < clock.utNow) :
    clock.traceEndTime requested = some after.traceEndTime ∧
      0 < maxDuration inputMaxDuration after.traceEndTime ∧
      after.traceStartTime =
        after.traceEndTime - (inputMaxDuration.toNat + 1) * sToNs := by
  rw [ClockReading.setTimeIntervalBoundary] at hset
  split at hset
  · cases hset
  · next traceEndTime hend =>
      split at hset
      · next hpos =>
          cases hset
          obtain ⟨_, hduration, hfits⟩ := maxDuration_pos hpos
          have hlt := traceEndTime_lt hpast hend
          refine ⟨hend, hpos, ?_⟩
          dsimp only
          have hproduct := toUint64_of_lt
            ((inputMaxDuration.toNat + 1 : Nat) * sToNs) (by omega)
            (by rw [sToNs] at *; omega)
          rw [hduration, hproduct]
          have hdifference := toUint64_of_lt
            (traceEndTime - (inputMaxDuration.toNat + 1 : Nat) * sToNs)
            (by rw [sToNs] at *; omega) (by rw [sToNs] at *; omega)
          rw [sToNs] at *
          omega
      · cases hset
        exact absurd rfl hstart

theorem operations_exact (hpast : requested.toNat < clock.utNow) :
    ∀ result ∈ clock.operations inputMaxDuration requested,
      0 ≤ result ∧ result < 2 ^ 64 := by
  have hbefore := btNow_lt_utNow clock
  have hnow := utNow_lt clock
  have hboot := clock.boot_lt
  rw [ClockReading.operations, List.forall_mem_cons]
  refine ⟨by omega, ?_⟩
  split
  · intro result hmem
    cases hmem
  · next traceEndTime hend =>
      have hlt := traceEndTime_lt hpast hend
      rw [List.forall_mem_append, utTraceEndTime_eq hpast]
      constructor
      · rcases traceEndTime_eq hpast hend with ⟨hzero, _⟩ | ⟨hset, hlater, hended⟩
        · rw [if_pos hzero, List.forall_mem_singleton]
          simp only [ClockReading.tvSec, sToNs]
          omega
        · have hdifference := toUint64_of_lt
            (requested.toNat - clock.utBootTime) (by omega) (by omega)
          have hsuccessor := toUint64_of_lt
            (requested.toNat - clock.utBootTime + 1) (by omega) (by omega)
          rw [if_neg hset, List.forall_mem_cons, List.forall_mem_singleton, hdifference,
            hsuccessor]
          rw [sToNs] at *
          omega
      · split
        · next hpos =>
            obtain ⟨_, hduration, hfits⟩ := maxDuration_pos hpos
            have hproduct := toUint64_of_lt
              ((inputMaxDuration.toNat + 1 : Nat) * sToNs) (by omega)
              (by rw [sToNs] at *; omega)
            rw [List.forall_mem_cons, List.forall_mem_singleton, hduration, hproduct]
            rw [sToNs] at *
            omega
        · intro result hmem
          cases hmem

theorem covered_end (hlater : clock.utBootTime < requested.toNat) {event : Nat}
    (hevent : clock.wallSecond event ≤ requested.toNat) :
    event ≤ (requested.toNat - clock.utBootTime + 1) * sToNs := by
  have hbefore := btNow_lt_utNow clock
  have hbt := btNow_eq clock
  have hdefinition := utBootTime_eq clock
  rw [ClockReading.wallSecond] at hevent
  rw [ClockReading.utNow] at *
  rw [sToNs] at *
  omega

/-- The fractions of the two clocks that the window loses at its start. -/
def ClockReading.lost (clock : ClockReading) : Nat :=
  clock.wall % sToNs + (sToNs - clock.boot % sToNs) % sToNs

theorem lost_eq (clock : ClockReading) :
    clock.wall - clock.boot = clock.utBootTime * sToNs + clock.lost := by
  have hbefore := btNow_lt_utNow clock
  have hbt := btNow_eq clock
  rw [utBootTime_eq, ClockReading.lost]
  rw [ClockReading.utNow] at *
  rw [sToNs] at *
  omega

theorem lost_eq_zero (clock : ClockReading) :
    clock.lost = 0 ↔ clock.wall % sToNs = 0 ∧ clock.boot % sToNs = 0 := by
  rw [ClockReading.lost, sToNs]
  omega

/-- The window begins where the first requested second begins, but for the fractions. -/
theorem start_eq {traceEndTime traceStartTime : Nat}
    (hended : traceEndTime = (requested.toNat - clock.utBootTime + 1) * sToNs)
    (hfits : (inputMaxDuration.toNat + 1) * sToNs ≤ traceEndTime)
    (hstart : traceStartTime = traceEndTime - (inputMaxDuration.toNat + 1) * sToNs)
    (hnonzero : traceStartTime ≠ 0) :
    inputMaxDuration.toNat + clock.utBootTime < requested.toNat ∧
      traceStartTime =
        (requested.toNat - inputMaxDuration.toNat - clock.utBootTime) * sToNs := by
  rw [sToNs] at *
  omega

theorem covered_start (hlost : clock.lost = 0) {first event : Nat}
    (hfirst : clock.utBootTime < first)
    (hevent : first ≤ clock.wallSecond event) :
    (first - clock.utBootTime) * sToNs ≤ event := by
  have hsplit := lost_eq clock
  rw [ClockReading.wallSecond, hsplit, hlost] at hevent
  rw [sToNs] at *
  omega

theorem missed_start (hlost : clock.lost ≠ 0) (first : Nat)
    (hfirst : clock.utBootTime < first) :
    ∃ event, clock.wallSecond event = first ∧
      event < (first - clock.utBootTime) * sToNs := by
  have hsplit := lost_eq clock
  have hsmall : clock.lost < 2 * sToNs := by
    rw [ClockReading.lost, sToNs]
    omega
  refine ⟨(first - clock.utBootTime) * sToNs - clock.lost, ?_, ?_⟩
  · rw [ClockReading.wallSecond, hsplit]
    rw [sToNs] at *
    omega
  · rw [sToNs] at *
    omega

theorem wallSecond_pos (clock : ClockReading) (event : Nat) : 0 < clock.wallSecond event := by
  have hahead := clock.ahead
  rw [ClockReading.wallSecond]
  rw [sToNs] at *
  omega

theorem covers_of_lost (hexact : requested.toNat = 0 ∨ clock.lost = 0)
    {before after : TimeInterval}
    (hpast : requested.toNat < clock.utNow)
    (hset : clock.setTimeIntervalBoundary inputMaxDuration requested before =
      (.success, after))
    (hnonzero : after.traceStartTime ≠ 0) :
    Covers clock inputMaxDuration requested after := by
  obtain ⟨hend, hpos, hstart⟩ := window_eq hset hnonzero hpast
  refine ⟨operations_exact hpast, by omega, ?_⟩
  intro event hfirst hlast
  obtain ⟨_, _, hfits⟩ := maxDuration_pos hpos
  have hpositive := wallSecond_pos clock event
  rcases traceEndTime_eq hpast hend with ⟨hzero, _⟩ | ⟨hrequested, hlater, hended⟩
  · omega
  · have hlost := hexact.resolve_left hrequested
    obtain ⟨hbefore, hbegin⟩ := start_eq hended hfits hstart hnonzero
    rw [hbegin]
    constructor
    · apply covered_start hlost (by omega)
      omega
    · rw [hended]
      exact covered_end hlater hlast

theorem not_covers_of_lost (hlost : clock.lost ≠ 0) {before after : TimeInterval}
    (hpast : requested.toNat < clock.utNow) (hrequested : requested.toNat ≠ 0)
    (hset : clock.setTimeIntervalBoundary inputMaxDuration requested before =
      (.success, after))
    (hnonzero : after.traceStartTime ≠ 0) :
    ¬ Covers clock inputMaxDuration requested after := by
  intro hcovers
  obtain ⟨hend, hpos, hstart⟩ := window_eq hset hnonzero hpast
  obtain ⟨_, _, hfits⟩ := maxDuration_pos hpos
  rcases traceEndTime_eq hpast hend with ⟨hzero, _⟩ | ⟨_, hlater, hended⟩
  · exact hrequested hzero
  · obtain ⟨hbefore, hbegin⟩ := start_eq hended hfits hstart hnonzero
    obtain ⟨event, hsecond, hmissed⟩ :=
      missed_start hlost (requested.toNat - inputMaxDuration.toNat) (by omega)
    have hcovered := hcovers.covered event (by omega) (by omega)
    rw [hbegin] at hcovered
    omega

theorem set_unchanged {before after : TimeInterval} {code : TraceErrorCode}
    (hset : clock.setTimeIntervalBoundary inputMaxDuration requested before = (code, after))
    (hcode : code ≠ .success) : after = before := by
  rw [ClockReading.setTimeIntervalBoundary] at hset
  split at hset
  · cases hset
    rfl
  · split at hset <;> cases hset <;> exact absurd rfl hcode

theorem dumpInWindow_default (call : DumpCall) : call.dumpInWindow {} = {} := by
  rw [DumpCall.dumpInWindow]
  split
  · rfl
  split
  · rfl
  split
  · rfl
  · next code window hcode hset => exact set_unchanged hset hcode

theorem perform_default (call : PublicCall) : call.perform {} = {} := by
  cases call with
  | dumpTrace call pathRefused =>
      simp only [PublicCall.perform, DumpCall.dumpTrace, dumpInWindow_default, ite_self]
  | dumpTraceAsync call =>
      simp only [PublicCall.perform, DumpCall.dumpTraceAsync, dumpInWindow_default, ite_self]

theorem windowAfter_default (calls : List PublicCall) : windowAfter calls = {} := by
  induction calls with
  | nil => rfl
  | cons call calls ih =>
      rw [windowAfter, List.foldl_cons, perform_default]
      exact ih

end TimeWindow

open TimeWindow in
/-- The window covers the requested seconds exactly when neither clock has a fraction
that the start of the window loses; an end that is not set asks for no seconds. -/
theorem time_window_covers (clock : ClockReading) (inputMaxDuration utTraceEndTime : UInt64)
    (before after : TimeInterval) (code : TraceErrorCode) (calls : List PublicCall) :
    (utTraceEndTime.toNat < clock.utNow →
      clock.setTimeIntervalBoundary inputMaxDuration utTraceEndTime before =
        (.success, after) →
      after.traceStartTime ≠ 0 →
        (Covers clock inputMaxDuration utTraceEndTime after ↔
          utTraceEndTime.toNat = 0 ∨
            (clock.wall % sToNs = 0 ∧ clock.boot % sToNs = 0))) ∧
      (clock.setTimeIntervalBoundary inputMaxDuration utTraceEndTime before =
          (code, after) →
        code ≠ .success → after = before) ∧
      windowAfter calls = { traceStartTime := 0, traceEndTime := 2 ^ 64 - 1 } := by
  refine ⟨?_, set_unchanged, windowAfter_default calls⟩
  intro hpast hset hnonzero
  rw [← lost_eq_zero]
  constructor
  · intro hcovers
    by_contra hnot
    rw [not_or] at hnot
    exact not_covers_of_lost hnot.2 hpast hnot.1 hset hnonzero hcovers
  · intro hexact
    exact covers_of_lost hexact hpast hset hnonzero

namespace TimeWindow

def wholeSeconds : ClockReading where
  wall := 1000 * sToNs
  boot := 100 * sToNs
  wall_lt := by decide
  boot_lt := by decide
  ahead := by decide

def halfSeconds : ClockReading where
  wall := 1000 * sToNs + 500000000
  boot := 100 * sToNs + 500000000
  wall_lt := by decide
  boot_lt := by decide
  ahead := by decide

end TimeWindow

open TimeWindow in
theorem time_window_covers_whole_seconds :
    Covers wholeSeconds 10 950 ⟨40 * sToNs, 51 * sToNs⟩ :=
  ((time_window_covers wholeSeconds 10 950 {} ⟨40 * sToNs, 51 * sToNs⟩ .success []).1
    (by decide) (by decide +kernel) (by decide)).mpr (Or.inr (by decide))

open TimeWindow in
/-- The events of second 940 have the boot times 40 s to 41 s and the window begins at 41 s. -/
theorem time_window_half_second_missed :
    halfSeconds.setTimeIntervalBoundary 10 950 {} =
        (.success, ⟨41 * sToNs, 52 * sToNs⟩) ∧
      halfSeconds.wallSecond (40 * sToNs) = 940 ∧
      ¬ ∀ (clock : ClockReading) (inputMaxDuration utTraceEndTime : UInt64)
        (before after : TimeInterval),
        utTraceEndTime.toNat < clock.utNow →
        clock.setTimeIntervalBoundary inputMaxDuration utTraceEndTime before =
          (.success, after) →
        after.traceStartTime ≠ 0 →
          Covers clock inputMaxDuration utTraceEndTime after := by
  have hset : halfSeconds.setTimeIntervalBoundary 10 950 {} =
      (.success, ⟨41 * sToNs, 52 * sToNs⟩) := by decide +kernel
  refine ⟨hset, by decide, ?_⟩
  intro hall
  have hcovers := hall halfSeconds 10 950 {} ⟨41 * sToNs, 52 * sToNs⟩ (by decide)
    hset (by decide)
  have hevent := hcovers.covered (40 * sToNs) (by decide) (by decide)
  exact absurd hevent.1 (by decide)

end Hitrace
