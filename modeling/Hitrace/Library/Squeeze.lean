import Mathlib.Data.List.Basic
import Mathlib.Tactic.Common

namespace Hitrace.Library

/-! Taking out the blanks behind a mark, from the left and up to a number of them. -/

section Squeeze

variable {α : Type} [DecidableEq α] (mark blank : α)

/-- `after` says that the text is behind a mark. -/
def squeeze : Bool → Nat → List α → List α
  | _, _, [] => []
  | after, budget, head :: rest =>
      if head = blank then
        if after = true ∧ 0 < budget then squeeze true (budget - 1) rest
        else blank :: squeeze false budget rest
      else head :: squeeze (decide (head = mark)) budget rest

variable {mark blank : α} {after : Bool} {budget : Nat}

@[simp] theorem squeeze_nil : squeeze mark blank after budget [] = [] := rfl

theorem squeeze_cons {head : α} (hhead : head ≠ blank) (rest : List α) :
    squeeze mark blank after budget (head :: rest) =
      head :: squeeze mark blank (decide (head = mark)) budget rest :=
  if_neg hhead

theorem squeeze_blank (rest : List α) :
    squeeze mark blank false budget (blank :: rest) =
      blank :: squeeze mark blank false budget rest := by
  simp [squeeze]

theorem squeeze_blank_after (rest : List α) :
    squeeze mark blank true (budget + 1) (blank :: rest) =
      squeeze mark blank true budget rest := by
  simp [squeeze]

theorem squeeze_zero (text : List α) : squeeze mark blank after 0 text = text := by
  induction text generalizing after with
  | nil => rfl
  | cons head rest ih =>
      by_cases hhead : head = blank
      · subst hhead
        simp [squeeze, ih]
      · rw [squeeze_cons hhead, ih]

/-- Behind a mark only blanks are special. -/
theorem squeeze_after {text : List α} (htext : text.head? ≠ some blank) :
    squeeze mark blank after budget text = squeeze mark blank false budget text := by
  cases text with
  | nil => rfl
  | cons head rest =>
      have hhead : head ≠ blank := fun heq => htext (congrArg some heq)
      rw [squeeze_cons hhead, squeeze_cons hhead]

theorem squeeze_replicate (count : Nat) (rest : List α) :
    squeeze mark blank false budget (List.replicate count blank ++ rest) =
      List.replicate count blank ++ squeeze mark blank false budget rest := by
  induction count with
  | zero => rfl
  | succ count ih =>
      rw [List.replicate_succ, List.cons_append, squeeze_blank, ih, List.cons_append]

theorem squeeze_replicate_le {count : Nat} (hcount : count ≤ budget) (rest : List α) :
    squeeze mark blank true budget (List.replicate count blank ++ rest) =
      squeeze mark blank true (budget - count) rest := by
  induction count generalizing budget with
  | zero => rfl
  | succ count ih =>
      obtain ⟨left, rfl⟩ := Nat.exists_eq_add_of_le hcount
      rw [List.replicate_succ, List.cons_append, Nat.add_right_comm, squeeze_blank_after,
        ih (Nat.le_add_right count left)]
      congr 1
      omega

theorem squeeze_replicate_gt {count : Nat} (hcount : budget < count) (rest : List α) :
    squeeze mark blank true budget (List.replicate count blank ++ rest) =
      List.replicate (count - budget) blank ++ rest := by
  obtain ⟨left, rfl⟩ := Nat.exists_eq_add_of_lt hcount
  have hsplit : List.replicate (budget + left + 1) blank =
      List.replicate budget blank ++ List.replicate (left + 1) blank := by
    rw [List.replicate_append_replicate, Nat.add_assoc]
  rw [hsplit, List.append_assoc, squeeze_replicate_le (Nat.le_refl budget), Nat.sub_self,
    squeeze_zero]
  congr 2
  omega

/-- A text without the mark is kept. -/
theorem squeeze_free {text : List α} (htext : mark ∉ text) (rest : List α) :
    squeeze mark blank false budget (text ++ rest) =
      text ++ squeeze mark blank false budget rest := by
  induction text with
  | nil => rfl
  | cons head tail ih =>
      have hhead : head ≠ mark := fun heq => htext (heq ▸ List.mem_cons_self)
      have htail := ih fun hmem => htext (List.mem_cons_of_mem head hmem)
      rw [List.cons_append]
      by_cases hblank : head = blank
      · subst hblank
        rw [squeeze_blank, htail, List.cons_append]
      · rw [squeeze_cons hblank, decide_eq_false hhead, htail, List.cons_append]

/-- A text without blanks is kept. -/
theorem squeeze_solid {text : List α} {last : α} (htext : blank ∉ text)
    (hlast : text.getLast? = some last) (rest : List α) :
    squeeze mark blank after budget (text ++ rest) =
      text ++ squeeze mark blank (decide (last = mark)) budget rest := by
  induction text generalizing after with
  | nil => cases hlast
  | cons head tail ih =>
      have hhead : head ≠ blank := fun heq => htext (heq ▸ List.mem_cons_self)
      rw [List.cons_append, squeeze_cons hhead, List.cons_append]
      cases tail with
      | nil =>
          cases hlast
          rfl
      | cons second tail =>
          have htail : (second :: tail).getLast? = some last := by
            rw [← hlast, List.getLast?_cons_cons]
          rw [ih (fun hmem => htext (List.mem_cons_of_mem head hmem)) htail]

theorem mem_of_mem_squeeze {text : List α} {element : α}
    (hmem : element ∈ squeeze mark blank after budget text) : element ∈ text := by
  induction text generalizing after budget with
  | nil => exact hmem
  | cons head rest ih =>
      rw [squeeze] at hmem
      split at hmem
      · next hblank =>
          split at hmem
          · exact List.mem_cons_of_mem head (ih hmem)
          · rcases List.mem_cons.mp hmem with rfl | hrest
            · exact hblank ▸ List.mem_cons_self
            · exact List.mem_cons_of_mem head (ih hrest)
      · rcases List.mem_cons.mp hmem with rfl | hrest
        · exact List.mem_cons_self
        · exact List.mem_cons_of_mem head (ih hrest)

/-- The last of the blanks that a mark is followed by. -/
theorem squeeze_mark_blank (hmark : mark ≠ blank) (rest : List α) :
    squeeze mark blank after (budget + 1) (mark :: blank :: rest) =
      squeeze mark blank after budget (mark :: rest) := by
  rw [squeeze_cons hmark, squeeze_cons hmark, decide_eq_true rfl, squeeze_blank_after]

end Squeeze

end Hitrace.Library
