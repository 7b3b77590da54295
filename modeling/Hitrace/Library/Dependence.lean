import Mathlib.Data.Option.Basic

namespace Hitrace.Library

universe u v w x

/-! Two runs of one computation that may fail. -/

section Runs

variable {α : Type u} {β : Type v} {γ : Type w} {δ : Type x}
  {related : α → β → Prop} {results : γ → δ → Prop}
  {first : Option α} {second : Option β}

theorem rel_bind {f : α → Option γ} {g : β → Option δ}
    (hrel : Option.Rel related first second)
    (hnext : ∀ left right, related left right → Option.Rel results (f left) (g right)) :
    Option.Rel results (first.bind f) (second.bind g) := by
  cases hrel with
  | none => exact Option.Rel.none
  | some hrelated => exact hnext _ _ hrelated

/-- A part that both runs share. -/
theorem rel_bind_same {f : α → Option γ} {g : α → Option δ}
    (hnext : ∀ value, first = some value → Option.Rel results (f value) (g value)) :
    Option.Rel results (first.bind f) (first.bind g) := by
  cases first with
  | none => exact Option.Rel.none
  | some value => exact hnext value rfl

theorem rel_map {f : α → γ} {g : β → δ} (hrel : Option.Rel related first second)
    (hnext : ∀ left right, related left right → results (f left) (g right)) :
    Option.Rel results (first.map f) (second.map g) := by
  rw [Option.map_eq_bind, Option.map_eq_bind]
  apply rel_bind hrel
  intro left right hrelated
  exact Option.Rel.some (hnext left right hrelated)

end Runs

/-! Two results that are the same if the runs agree, and of which the second is larger
if they do not. -/

section Results

variable {α : Type u} {β : Type v} {size : α → Nat} {size' : β → Nat}
  {agree agree' : Prop} {value grown : α}

def Grown (size : α → Nat) (agree : Prop) (value grown : α) : Prop :=
  (agree ∧ value = grown) ∨ (¬ agree ∧ size value < size grown)

theorem Grown.refl (hagree : agree) (value : α) : Grown size agree value value :=
  Or.inl ⟨hagree, rfl⟩

theorem Grown.size_le (hgrown : Grown size agree value grown) : size value ≤ size grown := by
  rcases hgrown with ⟨_, rfl⟩ | ⟨_, hsize⟩
  · exact Nat.le_refl _
  · exact Nat.le_of_lt hsize

theorem Grown.map (hgrown : Grown size agree value grown) (f : α → β)
    (hmono : ∀ left right, size left < size right → size' (f left) < size' (f right)) :
    Grown size' agree (f value) (f grown) := by
  rcases hgrown with ⟨hagree, rfl⟩ | ⟨hagree, hsize⟩
  · exact Or.inl ⟨hagree, rfl⟩
  · exact Or.inr ⟨hagree, hmono value grown hsize⟩

theorem Grown.eq_iff (hgrown : Grown size agree value grown) : value = grown ↔ agree := by
  rcases hgrown with ⟨hagree, rfl⟩ | ⟨hagree, hsize⟩
  · exact iff_of_true rfl hagree
  · refine iff_of_false ?_ hagree
    intro hsame
    rw [hsame] at hsize
    exact Nat.lt_irrefl _ hsize

theorem Grown.prepend {α : Type u} {text grown : List α}
    (hgrown : Grown List.length agree text grown) (front : List α) :
    Grown List.length agree (front ++ text) (front ++ grown) := by
  apply hgrown.map (front ++ ·)
  intro left right hlength
  rw [List.length_append, List.length_append]
  omega

theorem Grown.extend {α : Type u} {text grown : List α}
    (hgrown : Grown List.length agree text grown) (back : List α) :
    Grown List.length agree (text ++ back) (grown ++ back) := by
  apply hgrown.map (· ++ back)
  intro left right hlength
  rw [List.length_append, List.length_append]
  omega

theorem Grown.append {α : Type u} {size : List α → Nat}
    (hadd : ∀ left right, size (left ++ right) = size left + size right)
    {value grown value' grown' : List α} (hfirst : Grown size agree value grown)
    (hsecond : Grown size agree' value' grown') :
    Grown size (agree ∧ agree') (value ++ value') (grown ++ grown') := by
  have hfirstSize := hfirst.size_le
  have hsecondSize := hsecond.size_le
  rcases hfirst with ⟨hagree, rfl⟩ | ⟨hagree, hsize⟩
  · rcases hsecond with ⟨hagree', rfl⟩ | ⟨hagree', hsize'⟩
    · exact Or.inl ⟨⟨hagree, hagree'⟩, rfl⟩
    · refine Or.inr ⟨fun hboth => hagree' hboth.2, ?_⟩
      rw [hadd, hadd]
      omega
  · refine Or.inr ⟨fun hboth => hagree hboth.1, ?_⟩
    rw [hadd, hadd]
    omega

end Results

/-- What holds of every item of a list and of the items before it. -/
theorem forall_split_cons {α : Type u} {first : α} {rest : List α}
    {holds : List α → α → Prop} :
    (∀ before item after, first :: rest = before ++ item :: after → holds before item) ↔
      holds [] first ∧
        ∀ before item after, rest = before ++ item :: after →
          holds (first :: before) item := by
  constructor
  · intro hall
    refine ⟨hall [] first rest rfl, ?_⟩
    intro before item after hrest
    exact hall (first :: before) item after (by rw [hrest]; rfl)
  · rintro ⟨hfirst, hothers⟩ before item after hsplit
    cases before with
    | nil =>
        cases hsplit
        exact hfirst
    | cons head tail =>
        cases hsplit
        exact hothers tail item after rfl

end Hitrace.Library
