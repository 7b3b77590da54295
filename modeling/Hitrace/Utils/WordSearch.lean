import Hitrace.Library.Occurrence
import Hitrace.Utils.TraceFileInfo

namespace Hitrace

open Library

/-! `std::string::find` gives the first place where a word occurs. -/

/-- `find` from a position on. -/
def findWordFrom (word text : List Char) (pos : Nat) : Option Nat :=
  if pos ≤ text.length then (findWord word (text.drop pos)).map (pos + ·) else none

section Search

variable {word text : List Char} {position index : Nat}

theorem occurs_zero : Occurs word text 0 ↔ word <+: text := by
  simp [Occurs]

theorem occurs_succ {head : Char} :
    Occurs word (head :: text) (position + 1) ↔ Occurs word text position := by
  simp [Occurs]

theorem findWord_eq_none (hnone : findWord word text = none) (position : Nat) :
    ¬ Occurs word text position := by
  induction text generalizing position with
  | nil =>
      rw [findWord] at hnone
      split at hnone
      · cases hnone
      · next hword =>
          rintro ⟨_, hstart⟩
          rw [List.drop_nil, List.prefix_nil] at hstart
          exact hword (List.isEmpty_iff.mpr hstart)
  | cons head tail ih =>
      rw [findWord] at hnone
      split at hnone
      · cases hnone
      · next hstart =>
          cases position with
          | zero =>
              rw [occurs_zero]
              exact mt List.isPrefixOf_iff_prefix.mpr hstart
          | succ position =>
              rw [occurs_succ]
              exact ih (Option.map_eq_none_iff.mp hnone) position

theorem findWord_eq_some (hsome : findWord word text = some index) :
    FirstFrom word text 0 index := by
  induction text generalizing index with
  | nil =>
      rw [findWord] at hsome
      split at hsome
      · next hword =>
          cases hsome
          refine ⟨⟨Nat.le_refl 0, ?_⟩, fun _ _ => Nat.zero_le _⟩
          rw [occurs_zero, List.isEmpty_iff.mp hword]
      · cases hsome
  | cons head tail ih =>
      rw [findWord] at hsome
      split at hsome
      · next hstart =>
          cases hsome
          refine ⟨⟨Nat.le_refl 0, ?_⟩, fun _ _ => Nat.zero_le _⟩
          exact occurs_zero.mpr (List.isPrefixOf_iff_prefix.mp hstart)
      · next hstart =>
          obtain ⟨found, hfound, rfl⟩ := Option.map_eq_some_iff.mp hsome
          obtain ⟨⟨_, hoccurs⟩, hleast⟩ := ih hfound
          refine ⟨⟨Nat.zero_le _, occurs_succ.mpr hoccurs⟩, ?_⟩
          rintro other ⟨_, hother⟩
          cases other with
          | zero => exact absurd (List.isPrefixOf_iff_prefix.mpr (occurs_zero.mp hother)) hstart
          | succ other =>
              exact Nat.succ_le_succ (hleast ⟨Nat.zero_le _, occurs_succ.mp hother⟩)

theorem occurs_drop (hposition : position ≤ text.length) {offset : Nat} :
    Occurs word (text.drop position) offset ↔ Occurs word text (position + offset) := by
  rw [Occurs, Occurs, List.length_drop, List.drop_drop]
  refine and_congr_left fun _ => ?_
  omega

theorem findWordFrom_eq_none (hnone : findWordFrom word text position = none) {other : Nat}
    (hother : position ≤ other) : ¬ Occurs word text other := by
  intro hoccurs
  have hinside : position ≤ text.length := Nat.le_trans hother hoccurs.1
  rw [findWordFrom, if_pos hinside, Option.map_eq_none_iff] at hnone
  have hoffset : position + (other - position) = other := by omega
  rw [← hoffset, ← occurs_drop hinside] at hoccurs
  exact findWord_eq_none hnone _ hoccurs

theorem findWordFrom_eq_some (hsome : findWordFrom word text position = some index) :
    FirstFrom word text position index := by
  rw [findWordFrom] at hsome
  split at hsome
  · next hinside =>
      obtain ⟨offset, hfound, rfl⟩ := Option.map_eq_some_iff.mp hsome
      obtain ⟨⟨_, hoccurs⟩, hleast⟩ := findWord_eq_some hfound
      refine ⟨⟨Nat.le_add_right _ _, (occurs_drop hinside).mp hoccurs⟩, ?_⟩
      rintro other ⟨hfrom, hother⟩
      have hoffset : position + (other - position) = other := by omega
      rw [← hoffset, ← occurs_drop hinside] at hother
      have hle := hleast ⟨Nat.zero_le _, hother⟩
      omega
  · cases hsome

end Search

end Hitrace
