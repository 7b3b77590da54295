import Mathlib.Data.List.Basic

namespace Hitrace.Library

universe u

/-! Texts made of fields with a separator between them, and when they can be read in one
way only. -/

namespace Delimited

variable {α : Type u} {separator : α}

/-- A last field that is left out, with its separator, if it is empty. -/
def optional (separator : α) : List α → List α
  | [] => []
  | text => separator :: text

@[simp] theorem optional_nil : optional separator [] = [] := rfl

/-- The first field of a text ends at the first separator. -/
theorem append_cons_inj {left right leftRest rightRest : List α} (hleft : separator ∉ left)
    (hright : separator ∉ right) :
    left ++ separator :: leftRest = right ++ separator :: rightRest ↔
      left = right ∧ leftRest = rightRest := by
  induction left generalizing right with
  | nil =>
      cases right with
      | nil => simp
      | cons head rest =>
          have hhead : separator ≠ head := List.ne_of_not_mem_cons hright
          simp [hhead]
  | cons first front ih =>
      have hfirst : first ≠ separator := (List.ne_of_not_mem_cons hleft).symm
      cases right with
      | nil => simp [hfirst]
      | cons head rest =>
          have hrest := ih (List.not_mem_of_not_mem_cons hleft)
            (List.not_mem_of_not_mem_cons hright)
          rw [List.cons_append, List.cons_append, List.cons.injEq, List.cons.injEq, hrest,
            and_assoc]

theorem append_optional_inj {left right leftRest rightRest : List α}
    (hleft : separator ∉ left) (hright : separator ∉ right) :
    left ++ optional separator leftRest = right ++ optional separator rightRest ↔
      left = right ∧ leftRest = rightRest := by
  cases leftRest with
  | nil =>
      cases rightRest with
      | nil => simp
      | cons head rest =>
          rw [optional_nil, List.append_nil]
          refine iff_of_false (fun heq => ?_) nofun
          exact hleft (heq ▸ List.mem_append_right _ List.mem_cons_self)
  | cons first front =>
      cases rightRest with
      | nil =>
          rw [optional_nil, List.append_nil]
          refine iff_of_false (fun heq => ?_) nofun
          exact hright (heq ▸ List.mem_append_right _ List.mem_cons_self)
      | cons head rest => exact append_cons_inj hleft hright

end Delimited

end Hitrace.Library
