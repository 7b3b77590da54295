import Mathlib.Tactic.Common

namespace Hitrace.Library

universe u

/-! Words of labelled brackets. -/

inductive Bracket (α : Type u)
  | opening (label : α)
  | closing (label : α)
deriving Repr, DecidableEq

namespace Bracket

variable {α : Type u}

def isOpening : Bracket α → Bool
  | .opening _ => true
  | .closing _ => false

/-- Every closing bracket closes the last open one, which has its label. -/
inductive Balanced : List (Bracket α) → Prop
  | nil : Balanced []
  | enclose (label : α) {inside rest : List (Bracket α)} :
      Balanced inside → Balanced rest →
        Balanced (.opening label :: inside ++ .closing label :: rest)

/-- The opening brackets less the closing ones. -/
def excess (word : List (Bracket α)) : Int :=
  word.countP isOpening - word.countP (fun bracket => !bracket.isOpening)

@[simp] theorem excess_nil : excess ([] : List (Bracket α)) = 0 := rfl

@[simp] theorem excess_append (left right : List (Bracket α)) :
    excess (left ++ right) = excess left + excess right := by
  simp only [excess, List.countP_append]
  omega

@[simp] theorem excess_opening (label : α) (word : List (Bracket α)) :
    excess (.opening label :: word) = excess word + 1 := by
  simp only [excess, List.countP_cons, isOpening]
  simp
  omega

@[simp] theorem excess_closing (label : α) (word : List (Bracket α)) :
    excess (.closing label :: word) = excess word - 1 := by
  simp only [excess, List.countP_cons, isOpening]
  simp
  omega

namespace Balanced

theorem append {left right : List (Bracket α)} (hleft : Balanced left)
    (hright : Balanced right) : Balanced (left ++ right) := by
  induction hleft with
  | nil => exact hright
  | enclose label hinside hrest _ ih =>
      rw [List.append_assoc, List.cons_append]
      exact .enclose label hinside ih

theorem excess_eq_zero {word : List (Bracket α)} (hword : Balanced word) :
    excess word = 0 := by
  induction hword with
  | nil => rfl
  | enclose label _ _ hinside hrest => simp [hinside, hrest]

end Balanced

end Bracket

end Hitrace.Library
