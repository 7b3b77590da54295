import Hitrace.Library.Decimal
import Mathlib.Data.List.TakeWhile

namespace Hitrace.Library

/-! Decimal numerals behind blanks, with an optional sign, and the reader that takes
the longest one at the front of a text. -/

inductive Sign
  | none
  | plus
  | minus
deriving Repr, DecidableEq

namespace Sign

def text : Sign → List Char
  | .none => []
  | .plus => ['+']
  | .minus => ['-']

def apply : Sign → Nat → Int
  | .minus, magnitude => -(magnitude : Int)
  | _, magnitude => magnitude

end Sign

structure Numeral (blank : Char → Bool) where
  blanks : List Char
  sign : Sign
  digits : List Char
  blank_of_mem : ∀ char ∈ blanks, blank char = true
  isDigit_of_mem : ∀ char ∈ digits, char.isDigit = true
  digits_ne_nil : digits ≠ []

/-- What a numeral begins with cannot be taken for a blank. -/
structure Separate (blank : Char → Bool) : Prop where
  digit : ∀ char : Char, char.isDigit = true → blank char = false
  plus : blank '+' = false
  minus : blank '-' = false

namespace Numeral

variable {blank : Char → Bool}

def text (numeral : Numeral blank) : List Char :=
  numeral.blanks ++ (numeral.sign.text ++ numeral.digits)

def magnitude (numeral : Numeral blank) : Nat :=
  Decimal.value numeral.digits

def value (numeral : Numeral blank) : Int :=
  numeral.sign.apply numeral.magnitude

end Numeral

/-- A sign, the digits behind it and what follows them. -/
structure SubjectSequence where
  sign : Sign
  digits : List Char
  rest : List Char
deriving Repr, DecidableEq

def optionalSign : List Char → Sign × List Char
  | '-' :: rest => (.minus, rest)
  | '+' :: rest => (.plus, rest)
  | rest => (.none, rest)

def subjectSequence (blank : Char → Bool) (text : List Char) : SubjectSequence :=
  let (sign, unsigned) := optionalSign (text.dropWhile blank)
  { sign
    digits := unsigned.takeWhile Char.isDigit
    rest := unsigned.dropWhile Char.isDigit }

theorem optionalSign_text (text : List Char) :
    (optionalSign text).1.text ++ (optionalSign text).2 = text := by
  unfold optionalSign
  split <;> rfl

theorem optionalSign_none {text : List Char} (hminus : ∀ char ∈ text.head?, char ≠ '-')
    (hplus : ∀ char ∈ text.head?, char ≠ '+') : optionalSign text = (.none, text) := by
  unfold optionalSign
  split
  · exact absurd rfl (hminus '-' rfl)
  · exact absurd rfl (hplus '+' rfl)
  · rfl

section Reader

variable {blank : Char → Bool}

theorem subjectSequence_append (text : List Char) :
    text.takeWhile blank ++ ((subjectSequence blank text).sign.text ++
      ((subjectSequence blank text).digits ++ (subjectSequence blank text).rest)) = text := by
  simp only [subjectSequence, List.takeWhile_append_dropWhile, optionalSign_text]

theorem isDigit_of_mem_subjectSequence {text : List Char} {char : Char}
    (hmem : char ∈ (subjectSequence blank text).digits) : char.isDigit = true :=
  List.mem_takeWhile_imp hmem

/-- The numeral that a text consists of. -/
def Numeral.ofSubject {text : List Char}
    (hdigits : (subjectSequence blank text).digits ≠ []) : Numeral blank where
  blanks := text.takeWhile blank
  sign := (subjectSequence blank text).sign
  digits := (subjectSequence blank text).digits
  blank_of_mem := fun _ hmem => List.mem_takeWhile_imp hmem
  isDigit_of_mem := fun _ hmem => isDigit_of_mem_subjectSequence hmem
  digits_ne_nil := hdigits

theorem Numeral.text_ofSubject {text : List Char}
    (hdigits : (subjectSequence blank text).digits ≠ [])
    (hrest : (subjectSequence blank text).rest = []) :
    (Numeral.ofSubject hdigits).text = text := by
  have happend := @subjectSequence_append blank text
  rw [hrest, List.append_nil] at happend
  exact happend

theorem mem_of_mem_rest {text : List Char} {char : Char}
    (hmem : char ∈ (subjectSequence blank text).rest) : char ∈ text := by
  rw [← @subjectSequence_append blank text]
  simp [hmem]

namespace Numeral

variable (numeral : Numeral blank)

theorem first_digit : ∃ first others, numeral.digits = first :: others ∧
    first.isDigit = true := by
  obtain ⟨first, others, hdigits⟩ := List.exists_cons_of_ne_nil numeral.digits_ne_nil
  refine ⟨first, others, hdigits, numeral.isDigit_of_mem first ?_⟩
  simp [hdigits]

theorem optionalSign_unblanked :
    optionalSign (numeral.sign.text ++ numeral.digits) = (numeral.sign, numeral.digits) := by
  obtain ⟨first, others, hdigits, hfirst⟩ := numeral.first_digit
  cases numeral.sign with
  | minus => rfl
  | plus => rfl
  | none =>
      apply optionalSign_none
      · intro char hchar hminus
        simp only [Sign.text, hdigits, List.nil_append, List.head?_cons,
          Option.mem_some_iff] at hchar
        rw [hchar, hminus] at hfirst
        exact absurd hfirst (by decide)
      · intro char hchar hplus
        simp only [Sign.text, hdigits, List.nil_append, List.head?_cons,
          Option.mem_some_iff] at hchar
        rw [hchar, hplus] at hfirst
        exact absurd hfirst (by decide)

theorem dropWhile_text (hseparate : Separate blank) :
    numeral.text.dropWhile blank = numeral.sign.text ++ numeral.digits := by
  obtain ⟨first, others, hdigits, hfirst⟩ := numeral.first_digit
  rw [text, List.dropWhile_append_of_pos numeral.blank_of_mem]
  cases numeral.sign with
  | minus => simp [Sign.text, hseparate.minus]
  | plus => simp [Sign.text, hseparate.plus]
  | none => simp [Sign.text, hdigits, hseparate.digit first hfirst]

/-- The reader finds the parts of every numeral. -/
theorem subjectSequence_text (hseparate : Separate blank) :
    subjectSequence blank numeral.text = ⟨numeral.sign, numeral.digits, []⟩ := by
  have htake := List.takeWhile_eq_self_iff.mpr numeral.isDigit_of_mem
  have hdrop := List.dropWhile_eq_nil_iff.mpr numeral.isDigit_of_mem
  simp only [subjectSequence, dropWhile_text numeral hseparate, optionalSign_unblanked,
    htake, hdrop]

theorem sign_eq_of_text_eq (hseparate : Separate blank) {other : Numeral blank}
    (htext : numeral.text = other.text) : numeral.sign = other.sign := by
  have hsubject := subjectSequence_text numeral hseparate
  rw [htext, subjectSequence_text other hseparate] at hsubject
  exact (congrArg SubjectSequence.sign hsubject).symm

theorem magnitude_eq_of_text_eq (hseparate : Separate blank) {other : Numeral blank}
    (htext : numeral.text = other.text) : numeral.magnitude = other.magnitude := by
  have hsubject := subjectSequence_text numeral hseparate
  rw [htext, subjectSequence_text other hseparate] at hsubject
  have hdigits : other.digits = numeral.digits := congrArg SubjectSequence.digits hsubject
  rw [magnitude, magnitude, hdigits]

/-- A text has one value. -/
theorem value_eq_of_text_eq (hseparate : Separate blank) {other : Numeral blank}
    (htext : numeral.text = other.text) : numeral.value = other.value := by
  rw [value, value, numeral.sign_eq_of_text_eq hseparate htext,
    numeral.magnitude_eq_of_text_eq hseparate htext]

theorem head_text (hseparate : Separate blank) :
    numeral.text.head? = some '-' ↔ numeral.blanks = [] ∧ numeral.sign = .minus := by
  obtain ⟨first, others, hdigits, hfirst⟩ := numeral.first_digit
  have hblank := numeral.blank_of_mem
  rw [text]
  cases hblanks : numeral.blanks with
  | cons head tail =>
      have hhead : blank head = true := by
        apply hblank
        simp [hblanks]
      have hne : head ≠ '-' := by
        rintro rfl
        rw [hseparate.minus] at hhead
        exact absurd hhead (by decide)
      simp [hne]
  | nil =>
      have hne : first ≠ '-' := by
        rintro rfl
        exact absurd hfirst (by decide)
      cases numeral.sign <;> simp [Sign.text, hdigits, hne]

end Numeral

end Reader

end Hitrace.Library
