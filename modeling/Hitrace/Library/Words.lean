import Hitrace.Library.Occurrence
import Mathlib.Data.List.TakeWhile

namespace Hitrace.Library

/-! The words of a text, the longest parts of it without a separator. -/

section Words

variable {α : Type} {isSeparator : α → Bool} {front behind before after word text : List α}
  {separator : α}

def words (isSeparator : α → Bool) (text : List α) : List (List α) :=
  (text.splitOnP isSeparator).filter fun word => !word.isEmpty

/-- There is nothing, or a separator at the end. -/
def EndsApart (isSeparator : α → Bool) (text : List α) : Prop :=
  ∀ last ∈ text.getLast?, isSeparator last = true

def StartsApart (isSeparator : α → Bool) (text : List α) : Prop :=
  ∀ head ∈ text.head?, isSeparator head = true

def Unbroken (isSeparator : α → Bool) (text : List α) : Prop :=
  ∀ element ∈ text, isSeparator element = false

@[simp] theorem words_nil : words isSeparator [] = [] := rfl

theorem words_append_cons (front behind : List α) (hseparator : isSeparator separator = true) :
    words isSeparator (front ++ separator :: behind) =
      words isSeparator front ++ words isSeparator behind := by
  rw [words, List.splitOnP_append_cons front behind hseparator, List.filter_append]
  rfl

theorem words_of_unbroken (hunbroken : Unbroken isSeparator word) (hnonempty : word ≠ []) :
    words isSeparator word = [word] := by
  rw [words, List.splitOnP_eq_singleton hunbroken]
  exact List.filter_cons_of_pos (by simp [hnonempty])

theorem words_startsApart (happart : StartsApart isSeparator after) (front : List α) :
    words isSeparator (front ++ after) = words isSeparator front ++ words isSeparator after := by
  cases after with
  | nil => simp
  | cons separator rest =>
      have hseparator : isSeparator separator = true := happart separator rfl
      have hrest := @words_append_cons α isSeparator separator [] rest hseparator
      rw [words_append_cons front rest hseparator]
      rw [List.nil_append, words_nil, List.nil_append] at hrest
      rw [hrest]

theorem words_endsApart (happart : EndsApart isSeparator before) (behind : List α) :
    words isSeparator (before ++ behind) =
      words isSeparator before ++ words isSeparator behind := by
  induction before using List.reverseRecOn with
  | nil => rfl
  | append_singleton init separator =>
      have hseparator : isSeparator separator = true :=
        happart separator (by rw [List.getLast?_append]; rfl)
      have hinit := words_append_cons init [] hseparator
      rw [words_nil, List.append_nil] at hinit
      rw [List.append_assoc, List.singleton_append, words_append_cons init behind hseparator,
        hinit]

/-- A part that stands apart is one of the words. -/
theorem words_append_word (hbefore : EndsApart isSeparator before)
    (hword : Unbroken isSeparator word) (hnonempty : word ≠ [])
    (hafter : StartsApart isSeparator after) :
    words isSeparator (before ++ (word ++ after)) =
      words isSeparator before ++ word :: words isSeparator after := by
  rw [words_endsApart hbefore, words_startsApart hafter, words_of_unbroken hword hnonempty]
  rfl

theorem splitOnP_parts {first : List α} {rest : List (List α)}
    (hsplit : text.splitOnP isSeparator = first :: rest) :
    first <+: text ∧ ∀ part ∈ rest, part <:+: text := by
  induction text generalizing first rest with
  | nil =>
      rw [List.splitOnP_nil] at hsplit
      cases hsplit
      exact ⟨List.nil_prefix, List.forall_mem_nil _⟩
  | cons head tail ih =>
      obtain ⟨tailFirst, tailRest, htail⟩ :=
        List.exists_cons_of_ne_nil (List.splitOnP_ne_nil isSeparator tail)
      obtain ⟨hfirst, hrest⟩ := ih htail
      rw [List.splitOnP_cons_eq_if_modifyHead, htail] at hsplit
      split at hsplit
      · cases hsplit
        refine ⟨List.nil_prefix, List.forall_mem_cons.mpr ⟨?_, fun part hmem => ?_⟩⟩
        · exact hfirst.isInfix.trans (List.infix_cons List.infix_rfl)
        · exact (hrest part hmem).trans (List.infix_cons List.infix_rfl)
      · cases hsplit
        refine ⟨(List.prefix_cons_inj head).mpr hfirst, fun part hmem => ?_⟩
        exact (hrest part hmem).trans (List.infix_cons List.infix_rfl)

theorem isInfix_of_mem_words (hmem : word ∈ words isSeparator text) : word <:+: text := by
  have hpart := List.mem_of_mem_filter hmem
  obtain ⟨first, rest, hsplit⟩ :=
    List.exists_cons_of_ne_nil (List.splitOnP_ne_nil isSeparator text)
  obtain ⟨hfirst, hrest⟩ := splitOnP_parts hsplit
  rw [hsplit] at hpart
  rcases List.mem_cons.mp hpart with rfl | hpart
  · exact hfirst.isInfix
  · exact hrest word hpart

/-- What occurs nowhere in a text occurs in none of its words. -/
theorem filter_words_eq_nil [DecidableEq α] {key : List α} (hnone : ¬ key <:+: text) :
    (words isSeparator text).filter (fun word => decide (key <:+: word)) = [] := by
  rw [List.filter_eq_nil_iff]
  intro word hmem hkey
  exact hnone ((of_decide_eq_true hkey).trans (isInfix_of_mem_words hmem))

end Words

end Hitrace.Library
