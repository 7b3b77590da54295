import Mathlib.Data.List.Basic
import Mathlib.Data.List.Count
import Mathlib.Tactic.Common

namespace Hitrace.Library

/-! Items joined by a separator. -/

namespace JoinedText

variable {α β : Type}

/-- Items of one length can be told apart in the joined text. -/
theorem intercalate_map_inj {separator : List α} {left right : β → List α} {items : List β}
    (hlength : ∀ item, (left item).length = (right item).length) :
    separator.intercalate (items.map left) = separator.intercalate (items.map right) ↔
      ∀ item ∈ items, left item = right item := by
  induction items with
  | nil => simp
  | cons item rest ih =>
      cases rest with
      | nil => simp
      | cons second rest =>
          simp only [List.map_cons, List.intercalate_cons_cons, List.append_assoc] at ih ⊢
          rw [List.forall_mem_cons, ← ih]
          constructor
          · intro happend
            obtain ⟨hitem, hrest⟩ := List.append_inj happend (hlength item)
            exact ⟨hitem, List.append_cancel_left hrest⟩
          · rintro ⟨hitem, hrest⟩
            rw [hitem, hrest]

/-- Items without the mark, joined by a separator with one, have one mark less than
there are items. -/
theorem count_intercalate [DecidableEq α] {mark : α} {separator : List α}
    {items : List (List α)} (hseparator : separator.count mark = 1)
    (hitems : ∀ item ∈ items, mark ∉ item) :
    (separator.intercalate items).count mark = items.length - 1 := by
  induction items with
  | nil => rfl
  | cons item rest ih =>
      have hitem := List.count_eq_zero_of_not_mem (hitems item List.mem_cons_self)
      cases rest with
      | nil => simpa using hitem
      | cons second rest =>
          have hrest := ih fun other hmem => hitems other (List.mem_cons_of_mem item hmem)
          rw [List.intercalate_cons_cons, List.count_append, List.count_append, hitem,
            hseparator, hrest]
          simp only [List.length_cons]
          omega

end JoinedText

end Hitrace.Library
