import Hitrace.Library.Eviction

namespace Hitrace.Library

universe u

/-! Trimming a list to its newest items.  A list that is trimmed after each addition is
left as if it had been trimmed once. -/

variable {α : Type u}

/-- What is kept of a list is kept of any of its newest items that contain it, and `good`
items that are added only push out older ones. -/
structure Trims (good : α → Prop) (trim : List α → List α) : Prop where
  suffix : ∀ items, trim items <:+ items
  inside : ∀ {items newest}, newest <:+ items → trim items <:+ newest →
    trim newest = trim items
  outside : ∀ {items newest}, newest <:+ trim items → trim newest = newest
  grows : ∀ items {added}, (∀ item ∈ added, good item) →
    trim (items ++ added) <:+ trim items ++ added

namespace Trims

variable {good : α → Prop} {trim next : List α → List α}

theorem same (good : α → Prop) : Trims good fun items => items where
  suffix := fun _ => List.suffix_rfl
  inside := fun hnewest hitems => hnewest.eq_of_length_le hitems.length_le
  outside := fun _ => rfl
  grows := fun _ _ _ => List.suffix_rfl

theorem of_firstPrefix {reached : List α → Prop}
    (hmono : ∀ front {added}, (∀ item ∈ added, good item) → reached front →
      reached (added ++ front))
    (hfirst : ∀ items, FirstPrefix reached items.reverse (trim items).reverse) :
    Trims good trim where
  suffix := fun items => List.reverse_prefix.mp (hfirst items).front
  inside := by
    intro items newest hnewest hkept
    have hnewer : FirstPrefix reached newest.reverse (trim items).reverse :=
      { front := List.reverse_prefix.mpr hkept
        stops := by
          rcases (hfirst items).stops with hreached | hall
          · exact Or.inl hreached
          · rw [List.reverse_inj.mp hall] at hkept ⊢
            exact Or.inr (congrArg List.reverse (hkept.eq_of_length_le hnewest.length_le))
        shortest := (hfirst items).shortest }
    exact List.reverse_inj.mp ((hfirst newest).unique hnewer)
  outside := by
    intro items newest hnewest
    have hkept := (hfirst items).of_front (List.reverse_prefix.mpr hnewest)
    exact List.reverse_inj.mp ((hfirst newest).unique hkept)
  grows := by
    intro items added hgood
    have hboth := hfirst (items ++ added)
    apply List.reverse_prefix.mp
    rw [List.reverse_append]
    have hfront : added.reverse ++ (trim items).reverse <+: (items ++ added).reverse := by
      rw [List.reverse_append]
      exact (List.prefix_append_right_inj _).mpr (hfirst items).front
    rcases (hfirst items).stops with hreached | hall
    · rcases List.prefix_or_prefix_of_prefix hboth.front hfront with hle | hle
      · exact hle
      · by_cases heq : added.reverse ++ (trim items).reverse = (trim (items ++ added)).reverse
        · exact heq ▸ List.prefix_rfl
        · refine absurd (hmono _ ?_ hreached) (hboth.shortest _ hle heq)
          intro item hitem
          exact hgood item (List.mem_reverse.mp hitem)
    · rw [hall, ← List.reverse_append]
      exact hboth.front

/-- One after the other. -/
theorem comp (htrim : Trims good trim) (hnext : Trims good next) :
    Trims good fun items => next (trim items) where
  suffix := fun items => (hnext.suffix _).trans (htrim.suffix items)
  inside := by
    intro items newest hnewest hkept
    rcases List.suffix_or_suffix_of_suffix (htrim.suffix items) hnewest with hle | hle
    · rw [htrim.inside hnewest hle]
    · rw [htrim.outside hle]
      exact hnext.inside hle hkept
  outside := by
    intro items newest hnewest
    rw [htrim.outside (hnewest.trans (hnext.suffix _))]
    exact hnext.outside hnewest
  grows := by
    intro items added hgood
    have hboth := htrim.grows items hgood
    have hafter := hnext.grows (trim items) hgood
    rcases List.suffix_or_suffix_of_suffix (hnext.suffix (trim items ++ added)) hboth
      with hle | hle
    · rw [hnext.inside hboth hle]
      exact hafter
    · rw [hnext.outside hle]
      exact hle.trans hafter

theorem once (htrim : Trims good trim) (items : List α) {added : List α}
    (hgood : ∀ item ∈ added, good item) :
    trim (trim items ++ added) = trim (items ++ added) := by
  have hnewest : trim items ++ added <:+ items ++ added :=
    List.suffix_append_self_iff.mpr (htrim.suffix items)
  exact htrim.inside hnewest (htrim.grows items hgood)

end Trims

end Hitrace.Library
