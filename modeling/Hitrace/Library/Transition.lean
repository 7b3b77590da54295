import Mathlib.Data.List.Induction
import Mathlib.Algebra.Ring.Nat
import Mathlib.Tactic.Common

namespace Hitrace.Library

universe u v

/-! Executable transition systems.  A label carries every choice of the
environment, so a state and a label have at most one successor. -/

structure Machine (σ : Type u) (α : Type v) where
  init : σ → Prop
  step : σ → α → Option σ

namespace Machine

variable {σ : Type u} {α : Type v} (machine : Machine σ α)

def run : σ → List α → Option σ
  | state, [] => some state
  | state, label :: rest =>
      match machine.step state label with
      | none => none
      | some next => run next rest

def Reaches (labels : List α) (final : σ) : Prop :=
  ∃ start, machine.init start ∧ machine.run start labels = some final

def Reachable (final : σ) : Prop :=
  ∃ labels, machine.Reaches labels final

/-- Every step of the run is taken in a state in which `allowed` admits it. -/
def Obeys (allowed : σ → α → Prop) : σ → List α → Prop
  | _, [] => True
  | state, label :: rest =>
      allowed state label ∧
        match machine.step state label with
        | none => True
        | some next => Obeys allowed next rest

instance decidableObeys {allowed : σ → α → Prop}
    [∀ state label, Decidable (allowed state label)] :
    ∀ start labels, Decidable (machine.Obeys allowed start labels)
  | _, [] => isTrue trivial
  | state, label :: rest =>
      match hstep : machine.step state label with
      | none => decidable_of_iff (allowed state label) (by simp [Obeys, hstep])
      | some next =>
          have : Decidable (machine.Obeys allowed next rest) :=
            decidableObeys next rest
          decidable_of_iff (allowed state label ∧ machine.Obeys allowed next rest)
            (by simp [Obeys, hstep])

@[simp] theorem run_nil (state : σ) : machine.run state [] = some state := rfl

theorem run_cons_of_step {state next : σ} {label : α}
    (hstep : machine.step state label = some next) (rest : List α) :
    machine.run state (label :: rest) = machine.run next rest := by
  simp only [run, hstep]

theorem run_append (state : σ) (first second : List α) :
    machine.run state (first ++ second) =
      (machine.run state first).bind fun middle => machine.run middle second := by
  induction first generalizing state with
  | nil => rfl
  | cons label rest ih =>
      cases hstep : machine.step state label with
      | none => simp [run, hstep]
      | some next => simpa [run, hstep] using ih next

theorem run_concat {start final : σ} {labels : List α} {label : α} :
    machine.run start (labels ++ [label]) = some final ↔
      ∃ middle, machine.run start labels = some middle ∧
        machine.step middle label = some final := by
  rw [run_append, Option.bind_eq_some_iff]
  refine exists_congr fun middle => and_congr_right fun _ => ?_
  cases hstep : machine.step middle label with
  | none => simp [run, hstep]
  | some next => simp [run, hstep]

theorem obeys_concat {allowed : σ → α → Prop} {start middle : σ}
    {labels : List α} (label : α)
    (hrun : machine.run start labels = some middle) :
    machine.Obeys allowed start (labels ++ [label]) ↔
      machine.Obeys allowed start labels ∧ allowed middle label := by
  induction labels generalizing start with
  | nil =>
      cases Option.some.inj hrun
      simp only [List.nil_append, Obeys, true_and, and_iff_left_iff_imp]
      intro _
      split <;> trivial
  | cons first rest ih =>
      cases hstep : machine.step start first with
      | none => simp [run, hstep] at hrun
      | some next =>
          have htail : machine.run next rest = some middle := by
            simpa [run, hstep] using hrun
          simp only [List.cons_append, Obeys, hstep, ih htail, and_assoc]

theorem obeys_of_forall {allowed : σ → α → Prop}
    (hall : ∀ state label, allowed state label) (start : σ) (labels : List α) :
    machine.Obeys allowed start labels := by
  induction labels generalizing start with
  | nil => trivial
  | cons label rest ih =>
      refine ⟨hall start label, ?_⟩
      cases machine.step start label with
      | none => trivial
      | some next => exact ih next

theorem obeys_of_mem {allowed : α → Prop} {labels : List α}
    (hall : ∀ label ∈ labels, allowed label) (start : σ) :
    machine.Obeys (fun _ => allowed) start labels := by
  induction labels generalizing start with
  | nil => trivial
  | cons label rest ih =>
      rw [List.forall_mem_cons] at hall
      refine ⟨hall.1, ?_⟩
      cases machine.step start label with
      | none => trivial
      | some next => exact ih hall.2 next

theorem run_induction {start : σ} {motive : List α → σ → Prop}
    (nil : motive [] start)
    (concat : ∀ labels state label next,
      machine.run start labels = some state → motive labels state →
      machine.step state label = some next → motive (labels ++ [label]) next)
    {labels : List α} {final : σ}
    (hrun : machine.run start labels = some final) : motive labels final := by
  induction labels using List.reverseRecOn generalizing final with
  | nil =>
      cases Option.some.inj hrun
      exact nil
  | append_singleton labels label ih =>
      obtain ⟨middle, hprefix, hstep⟩ := machine.run_concat.mp hrun
      exact concat labels middle label final hprefix (ih hprefix) hstep

/-- A property that holds initially and is kept by every step holds in every
reachable state. -/
theorem invariant_of_step {motive : σ → Prop}
    (initial : ∀ state, machine.init state → motive state)
    (preserved : ∀ state label next, motive state →
      machine.step state label = some next → motive next)
    {final : σ} (hreach : machine.Reachable final) : motive final := by
  obtain ⟨labels, start, hinit, hrun⟩ := hreach
  exact machine.run_induction (motive := fun _ state => motive state)
    (initial start hinit)
    (fun _ state label next _ hstate hstep =>
      preserved state label next hstate hstep) hrun

/-- The same rule for the runs all of whose steps are allowed. -/
theorem invariant_of_obeys {allowed : σ → α → Prop} {motive : σ → Prop}
    (preserved : ∀ state label next, motive state → allowed state label →
      machine.step state label = some next → motive next)
    {start final : σ} {labels : List α} (hstart : motive start)
    (hobeys : machine.Obeys allowed start labels)
    (hrun : machine.run start labels = some final) : motive final := by
  refine machine.run_induction
    (motive := fun labels state =>
      machine.Obeys allowed start labels → motive state)
    (fun _ => hstart) ?_ hrun hobeys
  intro labels state label next hprefix hstate hstep hobeys
  have hsplit := (machine.obeys_concat label hprefix).mp hobeys
  exact preserved state label next (hstate hsplit.1) hsplit.2 hstep

/-- Where each step is a run of another machine, seen through `view`, what is reachable
is seen as something reachable. -/
theorem reachable_view {τ : Type*} {β : Type*} {abstract : Machine τ β} {view : σ → τ}
    (initial : ∀ state, machine.init state → abstract.Reachable (view state))
    (simulated : ∀ state label next, machine.step state label = some next →
      ∃ labels, abstract.run (view state) labels = some (view next))
    {final : σ} (hreach : machine.Reachable final) : abstract.Reachable (view final) := by
  refine machine.invariant_of_step (motive := fun state => abstract.Reachable (view state))
    initial ?_ hreach
  rintro state label next ⟨first, start, hinit, hrun⟩ hstep
  obtain ⟨second, hsecond⟩ := simulated state label next hstep
  refine ⟨first ++ second, start, hinit, ?_⟩
  rw [abstract.run_append, hrun]
  exact hsecond

/-- A run of allowed steps, each of which makes the measure smaller, is no longer than
the measure. -/
theorem length_le_of_decreasing {allowed : σ → α → Prop} {motive : σ → Prop}
    {measure : σ → Nat}
    (decreases : ∀ state label next, motive state → allowed state label →
      machine.step state label = some next → motive next ∧ measure next < measure state)
    {start final : σ} {labels : List α} (hstart : motive start)
    (hobeys : machine.Obeys allowed start labels)
    (hrun : machine.run start labels = some final) :
    labels.length + measure final ≤ measure start := by
  induction labels generalizing start with
  | nil =>
      cases Option.some.inj hrun
      rw [List.length_nil, Nat.zero_add]
  | cons label rest ih =>
      cases hstep : machine.step start label with
      | none => simp [run, hstep] at hrun
      | some next =>
          simp only [Obeys, hstep] at hobeys
          obtain ⟨hnext, hless⟩ := decreases start label next hstart hobeys.1 hstep
          have hrest := ih hnext hobeys.2 (by simpa [run, hstep] using hrun)
          rw [List.length_cons]
          omega

/-- The property holds in every state of the run, each with the labels that lead to
it. -/
def Along (holds : List α → σ → Prop) (start : σ) (labels : List α) : Prop :=
  ∀ before after state, labels = before ++ after →
    machine.run start before = some state → holds before state

theorem along_concat {holds : List α → σ → Prop} {start final : σ} {labels : List α}
    {label : α} (hrun : machine.run start (labels ++ [label]) = some final) :
    machine.Along holds start (labels ++ [label]) ↔
      machine.Along holds start labels ∧ holds (labels ++ [label]) final := by
  constructor
  · intro halong
    refine ⟨fun before after state hsplit => ?_, ?_⟩
    · refine halong before (after ++ [label]) state ?_
      rw [hsplit, List.append_assoc]
    · exact halong (labels ++ [label]) [] final (List.append_nil _).symm hrun
  · rintro ⟨halong, hlast⟩ before after state hsplit hstate
    induction after using List.reverseRecOn with
    | nil =>
        rw [List.append_nil] at hsplit
        subst hsplit
        cases hrun.symm.trans hstate
        exact hlast
    | append_singleton after last _ =>
        rw [← List.append_assoc] at hsplit
        exact halong before after state (List.append_inj' hsplit rfl).1 hstate

/-- A property of all states of a run comes down to what its steps may do, if each step
is judged by the state it is taken in. -/
theorem along_iff_obeys {allowed : σ → α → Prop}
    {invariant holds : List α → σ → Prop} {start : σ} (hinit : invariant [] start)
    (hnil : holds [] start)
    (hinvariant : ∀ labels state label next, machine.run start labels = some state →
      invariant labels state → machine.step state label = some next →
        invariant (labels ++ [label]) next)
    (hjudged : ∀ labels state label next, machine.run start labels = some state →
      invariant labels state → holds labels state →
        machine.step state label = some next →
          (holds (labels ++ [label]) next ↔ allowed state label))
    {labels : List α} {final : σ} (hrun : machine.run start labels = some final) :
    machine.Along holds start labels ↔ machine.Obeys allowed start labels := by
  refine (machine.run_induction
    (motive := fun labels state => invariant labels state ∧
      (machine.Along holds start labels ↔ machine.Obeys allowed start labels))
    ⟨hinit, ?_⟩ ?_ hrun).2
  · refine iff_of_true ?_ trivial
    intro before after state hsplit hstate
    obtain ⟨rfl, _⟩ := List.nil_eq_append_iff.mp hsplit
    cases hstate
    exact hnil
  · rintro labels state label next hprefix ⟨hstate, halong⟩ hstep
    refine ⟨hinvariant labels state label next hprefix hstate hstep, ?_⟩
    rw [machine.along_concat (machine.run_concat.mpr ⟨state, hprefix, hstep⟩),
      machine.obeys_concat label hprefix, ← halong]
    refine and_congr_right fun hbefore => ?_
    have hholds := hbefore labels [] state (List.append_nil _).symm hprefix
    exact hjudged labels state label next hprefix hstate hholds hstep

end Machine

end Hitrace.Library
