import Mathlib.Data.List.Basic
import Mathlib.Logic.Function.Basic
import Mathlib.Tactic.Common

namespace Hitrace.Library

/-! One place of a state, and loops that either write one and the same value to it or leave
it alone; a property of a state, and loops
that only add to it; loops that append. -/

section Overwrite

variable {σ α β : Type}

def Overwritten (hit : Prop) (value before after : β) : Prop :=
  (hit ∧ after = value) ∨ (¬ hit ∧ after = before)

variable {hit : Prop} {value before after : β}

theorem Overwritten.of_hit (hover : Overwritten hit value before after) (hhit : hit) :
    after = value := by
  rcases hover with ⟨_, hvalue⟩ | ⟨hmiss, _⟩
  · exact hvalue
  · exact absurd hhit hmiss

theorem Overwritten.of_miss (hover : Overwritten hit value before after) (hmiss : ¬ hit) :
    after = before := by
  rcases hover with ⟨hhit, _⟩ | ⟨_, hbefore⟩
  · exact absurd hhit hmiss
  · exact hbefore

theorem Overwritten.congr {other : Prop} (hover : Overwritten hit value before after)
    (hiff : hit ↔ other) : Overwritten other value before after := by
  rw [Overwritten, ← hiff]
  exact hover

theorem overwritten_update {κ : Type} [DecidableEq κ] (store : κ → β) (key place : κ)
    (value : β) :
    Overwritten (key = place) value (store place) (Function.update store key value place) := by
  by_cases hkey : key = place
  · subst hkey
    exact .inl ⟨rfl, Function.update_self ..⟩
  · exact .inr ⟨hkey, Function.update_of_ne (Ne.symm hkey) _ _⟩

/-- The place is overwritten by the loop if any of its steps does it. -/
theorem overwritten_foldl {step : σ → α → σ} (get : σ → β) {hit : α → Prop}
    (hstep : ∀ state element,
      Overwritten (hit element) value (get state) (get (step state element)))
    (elements : List α) (state : σ) :
    Overwritten (∃ element ∈ elements, hit element) value (get state)
      (get (elements.foldl step state)) := by
  induction elements generalizing state with
  | nil => exact .inr ⟨by simp, rfl⟩
  | cons element rest ih =>
      rw [List.foldl_cons]
      rcases ih (step state element) with ⟨⟨later, hlater, hhit⟩, hvalue⟩ | ⟨hmiss, hbefore⟩
      · exact .inl ⟨⟨later, List.mem_cons_of_mem element hlater, hhit⟩, hvalue⟩
      · rw [hbefore]
        refine (hstep state element).congr ⟨fun hhit => ⟨element, List.mem_cons_self, hhit⟩, ?_⟩
        rintro ⟨other, hother, hhit⟩
        rcases List.mem_cons.mp hother with rfl | hmem
        · exact hhit
        · exact absurd ⟨other, hmem, hhit⟩ hmiss

/-- A property that a step can only add. -/
theorem raised_foldl {step : σ → α → σ} (raised : σ → Prop) {hit : α → Prop}
    (hstep : ∀ state element, raised (step state element) ↔ raised state ∨ hit element)
    (elements : List α) (state : σ) :
    raised (elements.foldl step state) ↔ raised state ∨ ∃ element ∈ elements, hit element := by
  induction elements generalizing state with
  | nil => simp
  | cons element rest ih =>
      rw [List.foldl_cons, ih, hstep, or_assoc]
      simp only [List.mem_cons, exists_eq_or_imp]

/-- A loop that appends what it finds in each element. -/
theorem appended_foldl {step : List β → α → List β} {found : α → Option β}
    (hstep : ∀ results element, step results element = results ++ (found element).toList)
    (elements : List α) (results : List β) :
    elements.foldl step results = results ++ elements.filterMap found := by
  induction elements generalizing results with
  | nil => simp
  | cons element rest ih =>
      rw [List.foldl_cons, ih, hstep, List.append_assoc]
      cases hfound : found element with
      | none => rw [List.filterMap_cons_none hfound, Option.toList_none, List.nil_append]
      | some result =>
          rw [List.filterMap_cons_some hfound, Option.toList_some, List.singleton_append]

end Overwrite

end Hitrace.Library
