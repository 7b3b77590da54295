import Mathlib.Data.List.Infix
import Mathlib.Data.List.Basic
import Mathlib.Tactic.Common

namespace Hitrace.Library.LexicalPath

/-! Paths resolved by their text alone: the components between the slashes, without
the empty ones and `.`, where `..` takes back the one in front of it. -/

abbrev Component := List Char

/-- One component on top of the ones resolved so far, the innermost first.  The root
has no parent but itself. -/
def enter (resolved : List Component) (component : Component) : List Component :=
  if component = [] ∨ component = ['.'] then resolved
  else if component = ['.', '.'] then resolved.tail
  else component :: resolved

def resolve (path : List Char) : List Component :=
  (path.splitOn '/').foldl enter []

/-- The components of the normal form, from the root on. -/
def normalize (path : List Char) : List Component :=
  (resolve path).reverse

/-- `path` is `directory` or lies below it. -/
def Under (directory : List Component) (path : List Char) : Prop :=
  directory <+: normalize path

instance (directory : List Component) (path : List Char) :
    Decidable (Under directory path) :=
  inferInstanceAs (Decidable (directory <+: normalize path))

theorem resolve_append (front rest : List Char) :
    resolve (front ++ '/' :: rest) =
      (rest.splitOn '/').foldl enter (resolve front) := by
  rw [resolve, List.splitOn_append_cons_self, List.foldl_append]
  rfl

/-! A component with a slash behind it ends in that slash's neighbour. -/

theorem infix_intercalate {separator : Char} {components : List Component}
    {component : Component} (hmem : component ∈ components.dropLast) :
    component ++ [separator] <:+: [separator].intercalate components := by
  induction components with
  | nil => cases hmem
  | cons first rest ih =>
      cases rest with
      | nil => cases hmem
      | cons second others =>
          rw [List.intercalate_cons_cons]
          rw [List.dropLast_cons_cons, List.mem_cons] at hmem
          rcases hmem with rfl | hmem
          · exact ⟨[], _, rfl⟩
          · exact (ih hmem).trans (List.suffix_append _ _).isInfix

theorem infix_of_mem_dropLast {path : List Char} {component : Component}
    (hmem : component ∈ (path.splitOn '/').dropLast) :
    component ++ ['/'] <:+: path := by
  have hinfix := @infix_intercalate '/' _ _ hmem
  rwa [List.intercalate_splitOn] at hinfix

/-- Neither `.` nor `..`, when no dot stands in front of a slash. -/
theorem ne_dots_of_mem_dropLast {path : List Char} (hdots : ¬ ['.', '/'] <:+: path)
    {component : Component} (hmem : component ∈ (path.splitOn '/').dropLast) :
    component ≠ ['.'] ∧ component ≠ ['.', '.'] := by
  have hinfix := infix_of_mem_dropLast hmem
  constructor
  · rintro rfl
    exact hdots hinfix
  · rintro rfl
    have hdot : ['.', '/'] <:+: ['.', '.'] ++ ['/'] := ⟨['.'], [], rfl⟩
    exact hdots (hdot.trans hinfix)

theorem foldl_enter_plain {components : List Component}
    (hplain : ∀ component ∈ components, component ≠ ['.'] ∧ component ≠ ['.', '.'])
    (resolved : List Component) :
    components.foldl enter resolved =
      (components.filter (· ≠ [])).reverse ++ resolved := by
  induction components generalizing resolved with
  | nil => rfl
  | cons component rest ih =>
      have hrest := ih fun other hother => hplain other (List.mem_cons_of_mem _ hother)
      obtain ⟨hdot, hdots⟩ := hplain component List.mem_cons_self
      rw [List.foldl_cons, hrest]
      by_cases hempty : component = []
      · simp [enter, hempty]
      · simp [enter, hempty, hdot, hdots]

/-! What only steps out of its directory is a run of slashes and `..`. -/

theorem intercalate_replicate (count : Nat) (last : Component) :
    ['/'].intercalate (List.replicate count [] ++ [last]) =
      List.replicate count '/' ++ last := by
  induction count with
  | zero => simp [List.intercalate_singleton]
  | succ count ih =>
      have hrest : List.replicate count ([] : Component) ++ [last] ≠ [] := by simp
      obtain ⟨second, others, hsplit⟩ := List.exists_cons_of_ne_nil hrest
      rw [List.replicate_succ, List.cons_append, hsplit, List.intercalate_cons_cons,
        ← hsplit, ih]
      rfl

theorem splitOn_replicate (count : Nat) {last : Component} (hlast : '/' ∉ last) :
    (List.replicate count '/' ++ last).splitOn '/' =
      List.replicate count [] ++ [last] := by
  rw [← intercalate_replicate]
  apply List.splitOn_intercalate
  · intro component hmem
    rcases List.mem_append.mp hmem with hempty | hsame
    · rw [List.eq_of_mem_replicate hempty]
      exact List.not_mem_nil
    · rw [List.mem_singleton.mp hsame]
      exact hlast
  · simp

/-- `..` takes back what was entered before it, and the directory only when that was
nothing. -/
theorem suffix_enter_iff {resolved : List Component} (hresolved : resolved ≠ [])
    (entered : List Component) (component : Component) :
    resolved <:+ enter (entered.reverse ++ resolved) component ↔
      ¬ (entered = [] ∧ component = ['.', '.']) := by
  by_cases hcomponent : component = ['.', '.']
  · subst hcomponent
    change resolved <:+ (entered.reverse ++ resolved).tail ↔ _
    rw [List.tail_append]
    split
    · next hempty =>
        have hshort : ¬ resolved <:+ resolved.tail := by
          intro hsuffix
          have hlength := hsuffix.length_le
          have hpos := List.length_pos_of_ne_nil hresolved
          rw [List.length_tail] at hlength
          omega
        have hnone : entered = [] := by simpa using hempty
        simp [hnone, hshort]
    · next hsome =>
        have hne : entered ≠ [] := by simpa using hsome
        simp [hne]
  · have hsuffix : entered.reverse ++ resolved <:+
        enter (entered.reverse ++ resolved) component := by
      rw [enter, if_neg hcomponent]
      split
      · exact List.suffix_rfl
      · exact List.suffix_cons _ _
    simp only [hcomponent, and_false, not_false_eq_true, iff_true]
    exact (List.suffix_append _ _).trans hsuffix

/-- Only the last component can lead out, and only out of the directory itself. -/
theorem under_iff {front rest : List Char} (hfront : resolve front ≠ [])
    (hdots : ¬ ['.', '/'] <:+: rest) :
    Under (normalize front) (front ++ '/' :: rest) ↔
      ¬ ∃ count, rest = List.replicate count '/' ++ ['.', '.'] := by
  obtain ⟨init, last, hsplit⟩ : ∃ init last, rest.splitOn '/' = init ++ [last] :=
    ⟨_, _, (List.dropLast_append_getLast (List.splitOn_ne_nil '/' rest)).symm⟩
  have hplain : ∀ component ∈ init, component ≠ ['.'] ∧ component ≠ ['.', '.'] := by
    intro component hmem
    apply ne_dots_of_mem_dropLast hdots
    rwa [hsplit, List.dropLast_concat]
  have hresolve : resolve (front ++ '/' :: rest) =
      enter ((init.filter (· ≠ [])).reverse ++ resolve front) last := by
    rw [resolve_append, hsplit, List.foldl_append, foldl_enter_plain hplain]
    rfl
  have houtside : (∃ count, rest = List.replicate count '/' ++ ['.', '.']) ↔
      init.filter (· ≠ []) = [] ∧ last = ['.', '.'] := by
    constructor
    · rintro ⟨count, rfl⟩
      rw [splitOn_replicate count (by decide)] at hsplit
      obtain ⟨rfl, hlast⟩ := List.append_inj' hsplit rfl
      refine ⟨?_, (List.singleton_inj.mp hlast).symm⟩
      simp
    · rintro ⟨hempty, rfl⟩
      have hinit : init = List.replicate init.length [] := by
        apply List.eq_replicate_of_mem
        simpa [List.filter_eq_nil_iff] using hempty
      refine ⟨init.length, ?_⟩
      rw [← intercalate_replicate, ← hinit, ← hsplit, List.intercalate_splitOn]
  rw [Under, normalize, normalize, hresolve, List.reverse_prefix, houtside]
  exact suffix_enter_iff hfront _ _

end Hitrace.Library.LexicalPath
