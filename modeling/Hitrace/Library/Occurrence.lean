import Mathlib.Data.List.Basic
import Mathlib.Data.List.Infix
import Mathlib.Data.Nat.Find
import Mathlib.Order.Bounds.Basic
import Mathlib.Tactic.Common

namespace Hitrace.Library

/-! Where a word occurs in a text, and where it is one of the texts between separators. -/

section Occurrence

variable {α : Type}

def Occurs (word text : List α) (position : Nat) : Prop :=
  position ≤ text.length ∧ word <+: text.drop position

/-- The first occurrence from a position on. -/
def FirstFrom (word text : List α) (start position : Nat) : Prop :=
  IsLeast {other | start ≤ other ∧ Occurs word text other} position

/-- The occurrences that are met from the left when none may overlap the one before. -/
inductive Taken (word text : List α) : Nat → Nat → Prop
  | first {start position : Nat} (hfirst : FirstFrom word text start position) :
      Taken word text start position
  | next {start middle position : Nat} (hfirst : FirstFrom word text start middle)
      (hrest : Taken word text (middle + word.length) position) :
      Taken word text start position

/-- The occurrence is bounded by the separator or an end on both sides. -/
def Delimited (separator : α) (word text : List α) (position : Nat) : Prop :=
  (position = 0 ∨ text[position - 1]? = some separator) ∧
    (position + word.length = text.length ∨ text[position + word.length]? = some separator)

variable {word text : List α} {position start : Nat}

theorem occurs_iff : Occurs word text position ↔
    ∃ front back, text = front ++ (word ++ back) ∧ front.length = position := by
  constructor
  · rintro ⟨hle, back, hback⟩
    refine ⟨text.take position, back, ?_, ?_⟩
    · rw [hback, List.take_append_drop]
    · rw [List.length_take]
      omega
  · rintro ⟨front, back, rfl, rfl⟩
    refine ⟨by simp, ?_⟩
    rw [List.drop_left]
    exact List.prefix_append _ _

theorem Occurs.add_length_le (hoccurs : Occurs word text position) :
    position + word.length ≤ text.length := by
  obtain ⟨front, back, rfl, rfl⟩ := occurs_iff.mp hoccurs
  simp only [List.length_append]
  omega

theorem FirstFrom.occurs (hfirst : FirstFrom word text start position) :
    Occurs word text position :=
  hfirst.1.2

theorem FirstFrom.unique {other : Nat} (hfirst : FirstFrom word text start position)
    (hother : FirstFrom word text start other) : position = other :=
  IsLeast.unique hfirst hother

theorem Taken.exists_first (htaken : Taken word text start position) :
    ∃ first, FirstFrom word text start first := by
  cases htaken with
  | first hfirst => exact ⟨_, hfirst⟩
  | next hfirst _ => exact ⟨_, hfirst⟩

theorem Taken.occurs (htaken : Taken word text start position) :
    Occurs word text position := by
  induction htaken with
  | first hfirst => exact hfirst.occurs
  | next _ _ ih => exact ih

/-- The occurrences that are met begin with the first one. -/
theorem taken_iff {first : Nat} (hfirst : FirstFrom word text start first) :
    Taken word text start position ↔
      position = first ∨ Taken word text (first + word.length) position := by
  constructor
  · intro htaken
    cases htaken with
    | first hposition => exact Or.inl (hposition.unique hfirst)
    | next hmiddle hrest =>
        obtain rfl := hmiddle.unique hfirst
        exact Or.inr hrest
  · rintro (rfl | hrest)
    · exact .first hfirst
    · exact .next hfirst hrest

/-! The separator. -/

variable {separator : α}

theorem delimited_append (front back : List α) :
    Delimited separator word (front ++ (word ++ back)) front.length ↔
      (front = [] ∨ front.getLast? = some separator) ∧
        (back = [] ∨ back.head? = some separator) := by
  have hleft : (front.length = 0 ∨
      (front ++ (word ++ back))[front.length - 1]? = some separator) ↔
        (front = [] ∨ front.getLast? = some separator) := by
    cases front with
    | nil => simp
    | cons head tail =>
        rw [List.getElem?_append_left (by simp), List.getLast?_eq_getElem?]
        simp
  have hright : (front ++ (word ++ back))[front.length + word.length]? = back.head? := by
    rw [← List.append_assoc, List.getElem?_append_right (by simp), List.length_append,
      Nat.sub_self, List.head?_eq_getElem?]
  have hend : front.length + word.length = (front ++ (word ++ back)).length ↔ back = [] := by
    rw [← List.length_eq_zero_iff]
    simp only [List.length_append]
    omega
  rw [Delimited, hleft, hright, hend]

theorem exists_firstFrom (hoccurs : Occurs word text position) (hstart : start ≤ position) :
    ∃ first, FirstFrom word text start first := by
  classical
  have hexists : ∃ other, start ≤ other ∧ Occurs word text other := ⟨position, hstart, hoccurs⟩
  exact ⟨Nat.find hexists, Nat.find_spec hexists, fun _ hother => Nat.find_min' hexists hother⟩

theorem Occurs.getElem? (hoccurs : Occurs word text position) {index : Nat}
    (hindex : index < word.length) : text[position + index]? = word[index]? := by
  obtain ⟨front, back, rfl, rfl⟩ := occurs_iff.mp hoccurs
  rw [List.getElem?_append_right (by omega), Nat.add_sub_cancel_left,
    List.getElem?_append_left hindex]

/-- An occurrence that begins behind a separator is not hidden by one before it, since the
word has none inside. -/
theorem taken_of_delimited (hseparator : separator ∉ word)
    (hoccurs : Occurs word text position) (hdelimited : Delimited separator word text position)
    (hword : word ≠ []) (hstart : start ≤ position) : Taken word text start position := by
  have hlength : 0 < word.length := List.length_pos_iff.mpr hword
  induction hdistance : position - start using Nat.strong_induction_on generalizing start with
  | _ distance ih =>
      obtain ⟨first, hfirst⟩ := exists_firstFrom hoccurs hstart
      have hle : first ≤ position := hfirst.2 ⟨hstart, hoccurs⟩
      have hfrom : start ≤ first := hfirst.1.1
      rw [taken_iff hfirst]
      by_cases hsame : position = first
      · exact Or.inl hsame
      · have hbehind : first + word.length ≤ position := by
          by_contra hinside
          have hbefore : text[position - 1]? = some separator :=
            hdelimited.1.resolve_left (by omega)
          have hindex : position - 1 = first + (position - 1 - first) := by omega
          rw [hindex, hfirst.occurs.getElem? (by omega)] at hbefore
          exact hseparator (List.mem_of_getElem? hbefore)
        exact Or.inr (ih _ (by omega) hbehind rfl)

/-! The texts between separators. -/

theorem exists_of_mem_intercalate {names : List (List α)} (hmem : word ∈ names) :
    ∃ front back, [separator].intercalate names = front ++ (word ++ back) ∧
      (front = [] ∨ front.getLast? = some separator) ∧
        (back = [] ∨ back.head? = some separator) := by
  induction names with
  | nil => cases hmem
  | cons name rest ih =>
      cases rest with
      | nil =>
          obtain rfl := List.mem_singleton.mp hmem
          exact ⟨[], [], by simp, Or.inl rfl, Or.inl rfl⟩
      | cons second rest =>
          rw [List.intercalate_cons_cons]
          rcases List.mem_cons.mp hmem with rfl | hrest
          · refine ⟨[], [separator] ++ [separator].intercalate (second :: rest), ?_, Or.inl rfl,
              Or.inr rfl⟩
            simp
          · obtain ⟨front, back, heq, hfront, hback⟩ := ih hrest
            refine ⟨name ++ [separator] ++ front, back, ?_, Or.inr ?_, hback⟩
            · rw [heq]
              simp
            · rcases hfront with rfl | hlast
              · simp
              · rw [List.getLast?_append, hlast]
                rfl

section Split

variable [DecidableEq α]

theorem not_mem_of_mem_splitOn (hmem : word ∈ text.splitOn separator) : separator ∉ word := by
  induction text generalizing word with
  | nil =>
      obtain rfl := List.mem_singleton.mp hmem
      exact List.not_mem_nil
  | cons head tail ih =>
      rw [List.splitOn_cons_eq_if_modifyHead] at hmem
      split at hmem
      · rcases List.mem_cons.mp hmem with rfl | hrest
        · exact List.not_mem_nil
        · exact ih hrest
      · next hother =>
          obtain ⟨first, rest, hsplit⟩ :=
            List.exists_cons_of_ne_nil (List.splitOn_ne_nil separator tail)
          rw [hsplit] at hmem ih
          rcases List.mem_cons.mp hmem with rfl | hrest
          · intro hseparator
            rcases List.mem_cons.mp hseparator with rfl | hfirst
            · exact hother (beq_self_eq_true _)
            · exact ih List.mem_cons_self hfirst
          · exact ih (List.mem_cons_of_mem _ hrest)

theorem mem_splitOn_iff (hseparator : separator ∉ word) :
    word ∈ text.splitOn separator ↔
      ∃ position, Occurs word text position ∧ Delimited separator word text position := by
  constructor
  · intro hmem
    obtain ⟨front, back, heq, hfront, hback⟩ :=
      @exists_of_mem_intercalate _ _ separator _ hmem
    rw [List.intercalate_splitOn] at heq
    refine ⟨front.length, occurs_iff.mpr ⟨front, back, heq, rfl⟩, ?_⟩
    rw [heq, delimited_append]
    exact ⟨hfront, hback⟩
  · rintro ⟨position, hoccurs, hdelimited⟩
    obtain ⟨front, back, rfl, rfl⟩ := occurs_iff.mp hoccurs
    obtain ⟨hfront, hback⟩ := (delimited_append front back).mp hdelimited
    have hrest : word ∈ (word ++ back).splitOn separator := by
      rcases hback with rfl | hhead
      · rw [List.append_nil, List.splitOn_eq_singleton hseparator]
        exact List.mem_singleton_self _
      · obtain ⟨tail, rfl⟩ := List.head?_eq_some_iff.mp hhead
        rw [List.splitOn_append_cons_self_of_not_mem hseparator]
        exact List.mem_cons_self
    rcases hfront with rfl | hlast
    · exact hrest
    · obtain ⟨init, rfl⟩ := List.getLast?_eq_some_iff.mp hlast
      rw [List.append_assoc, List.singleton_append, List.splitOn_append_cons_self]
      exact List.mem_append_right _ hrest

end Split

end Occurrence

end Hitrace.Library
