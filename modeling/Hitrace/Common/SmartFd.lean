import Hitrace.Library.Transition
import Mathlib.Logic.Function.Basic

namespace Hitrace

/-! `SmartFd` of `common/smart_fd.h`: objects that own descriptors, over the table of the
open descriptors with their fdsan tags. -/

structure SmartFd where
  fd : Int := -1
  fdsan : Bool := false
deriving Repr, DecidableEq

/-- `objects` has what is constructed and not destroyed; `table` says of an open descriptor
whether it has the tag of the domain.  `invalid` counts the uses of a descriptor that is not
open or has another tag. -/
structure Descriptors where
  objects : Nat → Option SmartFd := fun _ => none
  table : Int → Option Bool := fun _ => none
  invalid : Nat := 0

namespace Descriptors

/-- `construct` is `SmartFd(open(..), fdsan)`: `open` gives a descriptor that is not open
yet, or none. -/
inductive Label
  | default (place : Nat)
  | construct (place : Nat) (opened : Option Nat) (fdsan : Bool)
  | moveConstruct (place rhs : Nat)
  | moveAssign (place rhs : Nat)
  | reset (place : Nat)
  | destroy (place : Nat)
deriving Repr, DecidableEq

variable (state : Descriptors)

def put (place : Nat) (object : Option SmartFd) : Descriptors :=
  { state with objects := Function.update state.objects place object }

/-- `close`, and `fdsan_close_with_tag` for a descriptor with a tag. -/
def close (fd : Int) (tag : Bool) : Descriptors :=
  if state.table fd = some tag then { state with table := Function.update state.table fd none }
  else { state with invalid := state.invalid + 1 }

/-- `fdsan_exchange_owner_tag`. -/
def exchangeOwnerTag (fd : Int) : Descriptors :=
  if state.table fd = some false then
    { state with table := Function.update state.table fd (some true) }
  else { state with invalid := state.invalid + 1 }

def resetObject (place : Nat) (object : SmartFd) : Descriptors :=
  if object.fd < 0 then state else (state.close object.fd object.fdsan).put place (some {})

/-- The object at `rhs` gives its descriptor away. -/
def take (place rhs : Nat) (object : SmartFd) : Descriptors :=
  (state.put rhs (some {})).put place (some object)

def constructFd (place : Nat) (fd : Int) (fdsan : Bool) : Descriptors :=
  let made := state.put place (some { fd, fdsan })
  if 0 ≤ fd ∧ fdsan = true then made.exchangeOwnerTag fd else made

def step (state : Descriptors) : Label → Option Descriptors
  | .default place =>
      if (state.objects place).isSome then none else some (state.put place (some {}))
  | .construct place opened fdsan =>
      if (state.objects place).isSome then none
      else
        match opened with
        | none => some (state.constructFd place (-1) fdsan)
        | some fd =>
            if (state.table fd).isSome then none
            else
              some ({ state with table := Function.update state.table fd (some false) }.constructFd
                place fd fdsan)
  | .moveConstruct place rhs =>
      if (state.objects place).isSome then none
      else (state.objects rhs).map (state.take place rhs)
  | .moveAssign place rhs =>
      match state.objects place, state.objects rhs with
      | some object, some source =>
          if place = rhs then some state
          else some ((state.resetObject place object).take place rhs source)
      | _, _ => none
  | .reset place => (state.objects place).map (state.resetObject place)
  | .destroy place =>
      (state.objects place).map fun object => (state.resetObject place object).put place none

end Descriptors

def descriptors : Library.Machine Descriptors Descriptors.Label where
  init := fun state => state = {}
  step := Descriptors.step

namespace Descriptors

variable {state next : Descriptors} {place rhs : Nat} {object source : SmartFd}

/-- Every open descriptor belongs to one object. -/
structure Owned (state : Descriptors) : Prop where
  opened : ∀ place object, state.objects place = some object → 0 ≤ object.fd →
    state.table object.fd = some object.fdsan
  apart : ∀ place other object second, state.objects place = some object →
    state.objects other = some second → 0 ≤ object.fd → object.fd = second.fd → place = other
  held : ∀ fd tag, state.table fd = some tag →
    0 ≤ fd ∧ ∃ place object, state.objects place = some object ∧ object.fd = fd
  invalid : state.invalid = 0

theorem owned_start : Owned {} where
  opened := nofun
  apart := nofun
  held := nofun
  invalid := rfl

theorem objects_put (other : Nat) (entry : Option SmartFd) :
    (state.put place entry).objects other = if other = place then entry else state.objects other :=
  Function.update_apply _ _ _ _

/-- An object that owns nothing can appear, change or go away. -/
theorem Owned.put (howned : Owned state) {entry : Option SmartFd}
    (hbefore : ∀ object, state.objects place = some object → object.fd < 0)
    (hafter : ∀ object, entry = some object → object.fd < 0) : Owned (state.put place entry) := by
  have hother : ∀ other object, (state.put place entry).objects other = some object →
      0 ≤ object.fd → state.objects other = some object := by
    intro other object hobject hfd
    rw [objects_put] at hobject
    split at hobject
    · have := hafter object hobject
      omega
    · exact hobject
  refine ⟨?_, ?_, ?_, howned.invalid⟩
  · intro other object hobject hfd
    exact howned.opened other object (hother other object hobject hfd) hfd
  · intro first second object other hfirst hsecond hfd hsame
    exact howned.apart first second object other (hother first object hfirst hfd)
      (hother second other hsecond (hsame ▸ hfd)) hfd hsame
  · intro fd tag htable
    obtain ⟨hfd, other, object, hobject, hsame⟩ := howned.held fd tag htable
    refine ⟨hfd, other, object, ?_, hsame⟩
    rw [objects_put, if_neg]
    · exact hobject
    · rintro rfl
      have := hbefore object hobject
      omega

theorem Owned.resetObject (howned : Owned state) (hobject : state.objects place = some object) :
    Owned (state.resetObject place object) ∧
      ∃ after, (state.resetObject place object).objects place = some after ∧ after.fd < 0 := by
  rw [Descriptors.resetObject]
  split
  · next hclosed => exact ⟨howned, object, hobject, hclosed⟩
  next hopen =>
    have hfd : 0 ≤ object.fd := by omega
    rw [close, if_pos (howned.opened place object hobject hfd)]
    refine ⟨⟨?_, ?_, ?_, howned.invalid⟩, {}, Function.update_self .., by decide⟩
    · intro other second hsecond hsecondFd
      rw [objects_put] at hsecond
      split at hsecond
      · cases hsecond
        exact absurd hsecondFd (by decide)
      next hother =>
        have hne : second.fd ≠ object.fd := fun hsame =>
          hother (howned.apart other place second object hsecond hobject hsecondFd hsame)
        exact (Function.update_of_ne hne ..).trans (howned.opened other second hsecond hsecondFd)
    · intro first second one two hone htwo honeFd hsame
      rw [objects_put] at hone htwo
      split at hone
      · cases hone
        exact absurd honeFd (by decide)
      split at htwo
      · cases htwo
        rw [hsame] at honeFd
        exact absurd honeFd (by decide)
      exact howned.apart first second one two hone htwo honeFd hsame
    · intro fd tag htable
      have hne : fd ≠ object.fd := by
        rintro rfl
        have hnone : Function.update state.table object.fd none object.fd = some tag := htable
        rw [Function.update_self] at hnone
        cases hnone
      obtain ⟨hfdNonneg, other, second, hsecond, hsame⟩ :=
        howned.held fd tag ((Function.update_of_ne hne ..).symm.trans htable)
      refine ⟨hfdNonneg, other, second, ?_, hsame⟩
      rw [objects_put, if_neg]
      · exact hsecond
      · rintro rfl
        cases hsecond.symm.trans hobject
        exact hne hsame.symm

/-- The descriptor changes hands. -/
theorem Owned.take (howned : Owned state) (hne : place ≠ rhs)
    (hbefore : ∀ object, state.objects place = some object → object.fd < 0)
    (hsource : state.objects rhs = some source) : Owned (state.take place rhs source) := by
  have hobjects : ∀ other, (state.take place rhs source).objects other =
      if other = place then some source
      else if other = rhs then some {} else state.objects other := by
    intro other
    rw [Descriptors.take, objects_put, objects_put]
  -- where an object with a descriptor was before
  have horigin : ∀ other object, (state.take place rhs source).objects other = some object →
      0 ≤ object.fd → state.objects (if other = place then rhs else other) = some object ∧
        other ≠ rhs := by
    intro other object hobject hfd
    rw [hobjects] at hobject
    split at hobject
    · next hplace =>
        rw [if_pos hplace, hsource]
        exact ⟨hobject, fun hsame => hne (hplace.symm.trans hsame)⟩
    next hplace =>
      split at hobject
      · cases hobject
        exact absurd hfd (by decide)
      · next hrhs => exact ⟨by rwa [if_neg hplace], hrhs⟩
  refine ⟨?_, ?_, ?_, howned.invalid⟩
  · intro other object hobject hfd
    exact howned.opened _ object (horigin other object hobject hfd).1 hfd
  · intro first second one two hone htwo hfd hsame
    obtain ⟨honeBefore, hfirst⟩ := horigin first one hone hfd
    obtain ⟨htwoBefore, hsecond⟩ := horigin second two htwo (hsame ▸ hfd)
    have hplaces := howned.apart _ _ one two honeBefore htwoBefore hfd hsame
    split at hplaces
    · next hone =>
        split at hplaces
        · next htwo => exact hone.trans htwo.symm
        · exact absurd hplaces.symm hsecond
    · split at hplaces
      · exact absurd hplaces hfirst
      · exact hplaces
  · intro fd tag htable
    obtain ⟨hfd, other, object, hobject, hsame⟩ := howned.held fd tag htable
    refine ⟨hfd, if other = rhs then place else other, object, ?_, hsame⟩
    rw [hobjects]
    split
    · next hrhs =>
        rw [if_pos rfl, ← hsource, ← hrhs]
        exact hobject
    · rw [if_neg]
      · exact hobject
      · rintro rfl
        have := hbefore object hobject
        omega

theorem Owned.constructFd (howned : Owned state) (hplace : state.objects place = none)
    {fd : Nat} (hfree : state.table fd = none) (fdsan : Bool) :
    Owned ({ state with table := Function.update state.table fd (some false) }.constructFd
      place fd fdsan) := by
  have hresult : { state with table := Function.update state.table fd (some false) }.constructFd
      place fd fdsan =
        { state with
          table := Function.update state.table fd (some fdsan)
          objects := Function.update state.objects place (some { fd, fdsan }) } := by
    cases fdsan with
    | false => rfl
    | true =>
        have htag : Function.update state.table (fd : Int) (some false) fd = some false :=
          Function.update_self ..
        rw [Descriptors.constructFd, if_pos ⟨Int.natCast_nonneg fd, rfl⟩, exchangeOwnerTag]
        refine (if_pos htag).trans ?_
        simp only [Descriptors.put, Function.update_idem]
  have hunheld : ∀ other object, state.objects other = some object → 0 ≤ object.fd →
      object.fd ≠ fd := by
    intro other object hobject hfd hsame
    have hopened := howned.opened other object hobject hfd
    rw [hsame, hfree] at hopened
    cases hopened
  rw [hresult]
  refine ⟨?_, ?_, ?_, howned.invalid⟩
  · intro other object hobject hfd
    dsimp only at hobject ⊢
    rw [Function.update_apply] at hobject
    split at hobject
    · cases hobject
      exact Function.update_self ..
    · rw [Function.update_of_ne (hunheld other object hobject hfd)]
      exact howned.opened other object hobject hfd
  · intro first second one two hone htwo hfd hsame
    dsimp only at hone htwo
    rw [Function.update_apply] at hone htwo
    split at hone
    · next hfirst =>
        cases hone
        split at htwo
        · next hsecond => exact hfirst.trans hsecond.symm
        · exact absurd hsame.symm (hunheld second two htwo (hsame ▸ hfd))
    · split at htwo
      · cases htwo
        exact absurd hsame (hunheld first one hone hfd)
      · exact howned.apart first second one two hone htwo hfd hsame
  · intro other tag htable
    dsimp only at htable ⊢
    by_cases hsame : other = fd
    · subst hsame
      exact ⟨Int.natCast_nonneg fd, place, _, Function.update_self .., rfl⟩
    · rw [Function.update_of_ne hsame] at htable
      obtain ⟨hfd, holder, object, hobject, hheld⟩ := howned.held other tag htable
      refine ⟨hfd, holder, object, ?_, hheld⟩
      rw [Function.update_of_ne]
      · exact hobject
      · rintro rfl
        cases hobject.symm.trans hplace

theorem Owned.step (howned : Owned state) {label : Label}
    (hstep : descriptors.step state label = some next) : Owned next := by
  have hnone : ∀ place, ¬ (state.objects place).isSome = true → state.objects place = none :=
    fun place hfree => Option.not_isSome_iff_eq_none.mp hfree
  cases label with
  | default place =>
      obtain ⟨hfree, hnext⟩ := Option.ite_none_left_eq_some.mp hstep
      cases hnext
      refine howned.put (fun object hobject => ?_) fun object hobject => ?_
      · cases (hnone place hfree).symm.trans hobject
      · cases hobject
        decide
  | construct place opened fdsan =>
      obtain ⟨hfree, hnext⟩ := Option.ite_none_left_eq_some.mp hstep
      cases opened with
      | none =>
          cases hnext
          rw [Descriptors.constructFd, if_neg (by omega)]
          refine howned.put (fun object hobject => ?_) fun object hobject => ?_
          · cases (hnone place hfree).symm.trans hobject
          · cases hobject
            exact (by decide : (-1 : Int) < 0)
      | some fd =>
          obtain ⟨hunused, hnext⟩ := Option.ite_none_left_eq_some.mp hnext
          cases hnext
          exact howned.constructFd (hnone place hfree)
            (Option.not_isSome_iff_eq_none.mp hunused) fdsan
  | moveConstruct place rhs =>
      obtain ⟨hfree, hnext⟩ := Option.ite_none_left_eq_some.mp hstep
      obtain ⟨source, hsource, rfl⟩ := Option.map_eq_some_iff.mp hnext
      refine howned.take ?_ (fun object hobject => ?_) hsource
      · rintro rfl
        cases (hnone place hfree).symm.trans hsource
      · cases (hnone place hfree).symm.trans hobject
  | moveAssign place rhs =>
      simp only [descriptors, Descriptors.step] at hstep
      split at hstep
      · next object source hobject hsource =>
          split at hstep
          · cases hstep
            exact howned
          next hne =>
            cases hstep
            obtain ⟨hreset, after, hafter, hclosed⟩ := howned.resetObject hobject
            refine hreset.take hne (fun other hother => ?_) ?_
            · cases hother.symm.trans hafter
              exact hclosed
            · rw [Descriptors.resetObject]
              split
              · exact hsource
              · rw [objects_put, if_neg (Ne.symm hne), close]
                split
                · exact hsource
                · exact hsource
      · cases hstep
  | reset place =>
      obtain ⟨object, hobject, rfl⟩ := Option.map_eq_some_iff.mp hstep
      exact (howned.resetObject hobject).1
  | destroy place =>
      obtain ⟨object, hobject, rfl⟩ := Option.map_eq_some_iff.mp hstep
      obtain ⟨hreset, after, hafter, hclosed⟩ := howned.resetObject hobject
      refine hreset.put (fun other hother => ?_) nofun
      cases hother.symm.trans hafter
      exact hclosed

/-- However the objects are made, moved and destroyed, a descriptor is closed only while
it is open and by the one object that owns it, and none is open when no object is left. -/
theorem smart_fds_close_once (labels : List Label) (final : Descriptors)
    (hrun : descriptors.run {} labels = some final) :
    final.invalid = 0 ∧
      (∀ fd, (final.table fd).isSome = true ↔
        ∃ place, ∃ object, final.objects place = some object ∧ 0 ≤ object.fd ∧
          object.fd = fd ∧ ∀ other second, final.objects other = some second →
            second.fd = fd → other = place) ∧
      ((∀ place, final.objects place = none) → ∀ fd, final.table fd = none) := by
  have howned : Owned final := by
    refine descriptors.invariant_of_step (motive := Owned) ?_ ?_ ⟨labels, _, rfl, hrun⟩
    · rintro start rfl
      exact owned_start
    · intro state label next howned hstep
      exact howned.step hstep
  refine ⟨howned.invalid, fun fd => ⟨fun hopen => ?_, ?_⟩, fun hgone fd => ?_⟩
  · obtain ⟨tag, htable⟩ := Option.isSome_iff_exists.mp hopen
    obtain ⟨hfd, place, object, hobject, rfl⟩ := howned.held fd tag htable
    refine ⟨place, object, hobject, hfd, rfl, fun other second hsecond hsame => ?_⟩
    exact (howned.apart place other object second hobject hsecond hfd hsame.symm).symm
  · rintro ⟨place, object, hobject, hfd, rfl, _⟩
    rw [howned.opened place object hobject hfd]
    rfl
  · cases htable : final.table fd with
    | none => rfl
    | some tag =>
        obtain ⟨_, place, object, hobject, _⟩ := howned.held fd tag htable
        cases (hgone place).symm.trans hobject

/-- A descriptor is moved twice and another one is replaced by it. -/
def movedRun : List Label :=
  [.construct 0 (some 3) true, .moveConstruct 1 0, .construct 2 (some 4) false, .moveAssign 2 1,
    .destroy 0, .destroy 1, .destroy 2]

theorem smart_fds_close_once_moved :
    ∃ final, descriptors.run {} movedRun = some final ∧ final.table 4 = none ∧
      final.invalid = 0 :=
  ⟨_, rfl, rfl, (smart_fds_close_once movedRun _ rfl).1⟩

end Descriptors

end Hitrace
