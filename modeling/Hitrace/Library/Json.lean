import Hitrace.Library.Decimal
import Mathlib.Data.List.Basic
import Mathlib.Data.List.TakeWhile
import Mathlib.Tactic.Common

namespace Hitrace.Library

/-! JSON texts, and where the strings of a value stand in its text. -/

inductive Json
  | null
  | bool (value : Bool)
  | number (literal : List Char)
  | string (text : List Char)
  | array (elements : List Json)
  | object (members : List (List Char × Json))
deriving Repr

namespace Json

def isBlank (char : Char) : Bool :=
  char == ' ' || char == '\t' || char == '\n' || char == '\r'

def skip (text : List Char) : List Char :=
  text.dropWhile isBlank

/-! Numbers. -/

def isNumberChar (char : Char) : Bool :=
  char.isDigit || char == '+' || char == '-' || char == '.' || char == 'e' || char == 'E'

def dropSign (signs : List Char) : List Char → List Char
  | [] => []
  | char :: rest => if char ∈ signs then rest else char :: rest

def isExponent : List Char → Bool
  | [] => true
  | char :: rest =>
      let digits := dropSign ['+', '-'] rest
      (char == 'e' || char == 'E') && !digits.isEmpty && digits.all Char.isDigit

def isFraction : List Char → Bool
  | [] => true
  | char :: rest =>
      if char = '.' then
        !(rest.takeWhile Char.isDigit).isEmpty && isExponent (rest.dropWhile Char.isDigit)
      else isExponent (char :: rest)

/-- A number does not start with a zero that could be left out. -/
def isUnsigned (literal : List Char) : Bool :=
  let int := literal.takeWhile Char.isDigit
  (int == ['0'] || !int.isEmpty && int.head? != some '0') &&
    isFraction (literal.dropWhile Char.isDigit)

def isNumber (literal : List Char) : Bool :=
  literal.all isNumberChar && isUnsigned (dropSign ['-'] literal)

/-! Strings. -/

def isHex (char : Char) : Bool :=
  char.isDigit || ('a' ≤ char && char ≤ 'f') || ('A' ≤ char && char ≤ 'F')

def hexDigit (char : Char) : Nat :=
  if char.isDigit then char.toNat - '0'.toNat
  else if 'a' ≤ char then char.toNat - 'a'.toNat + 10
  else char.toNat - 'A'.toNat + 10

def hexValue (digits : List Char) : Nat :=
  digits.foldl (fun value digit => 16 * value + hexDigit digit) 0

/-- What stands behind a backslash, and what it stands for. -/
def escapes : List (Char × Char) :=
  [('"', '"'), ('\\', '\\'), ('/', '/'), ('b', '\x08'), ('f', '\x0c'), ('n', '\n'),
    ('r', '\r'), ('t', '\t')]

def isScalar (code : Nat) : Bool :=
  code < 0xd800 || 0xdfff < code

def isHighSurrogate (code : Nat) : Bool :=
  0xd800 ≤ code && code ≤ 0xdbff

def isLowSurrogate (code : Nat) : Bool :=
  0xdc00 ≤ code && code ≤ 0xdfff

@[irreducible] def pairChar (high low : Nat) : Char :=
  Char.ofNat (0x10000 + (high - 0xd800) * 0x400 + (low - 0xdc00))

structure CodeUnit (digits : List Char) (code : Nat) : Prop where
  length : digits.length = 4
  hex : ∀ digit ∈ digits, isHex digit = true
  value : hexValue digits = code

inductive Escape : List Char → Char → Prop
  | mark {mark char : Char} (hmark : (mark, char) ∈ escapes) : Escape [mark] char
  | unit {digits : List Char} {code : Nat} (hunit : CodeUnit digits code)
      (hscalar : isScalar code = true) : Escape ('u' :: digits) (Char.ofNat code)
  | pair {high low : List Char} {highCode lowCode : Nat} (hhigh : CodeUnit high highCode)
      (hlow : CodeUnit low lowCode) (hhighCode : isHighSurrogate highCode = true)
      (hlowCode : isLowSurrogate lowCode = true) :
      Escape ('u' :: (high ++ '\\' :: 'u' :: low)) (pairChar highCode lowCode)

/-- A character that stands for itself; `raw` are those that a reader takes as they are, in
standard JSON all but the control characters. -/
structure Plain (raw : Char → Bool) (char : Char) : Prop where
  raw : raw char = true
  quote : char ≠ '"'
  escape : char ≠ '\\'

instance (raw : Char → Bool) (char : Char) : Decidable (Plain raw char) :=
  decidable_of_iff (raw char = true ∧ char ≠ '"' ∧ char ≠ '\\')
    ⟨fun h => ⟨h.1, h.2.1, h.2.2⟩, fun h => ⟨h.raw, h.quote, h.escape⟩⟩

def standardRaw (char : Char) : Bool :=
  ' ' ≤ char

/-- The text between two quotes and the string it stands for. -/
inductive Spells (raw : Char → Bool) : List Char → List Char → Prop
  | nil : Spells raw [] []
  | plain {char : Char} {spelling string : List Char} (hplain : Plain raw char)
      (hrest : Spells raw spelling string) : Spells raw (char :: spelling) (char :: string)
  | escape {escape spelling string : List Char} {char : Char} (hescape : Escape escape char)
      (hrest : Spells raw spelling string) :
      Spells raw ('\\' :: (escape ++ spelling)) (char :: string)

/-! Values. -/

/-- What a part of a text is read as. -/
inductive Part
  | value (value : Json)
  | elements (elements : List Json)
  | members (members : List (List Char × Json))

/-- The part at the front of a text, and the rest of the text behind it. -/
inductive Reads (raw : Char → Bool) : Part → List Char → List Char → Prop
  | null {rest : List Char} : Reads raw (.value .null) ("null".toList ++ rest) rest
  | isTrue {rest : List Char} : Reads raw (.value (.bool true)) ("true".toList ++ rest) rest
  | isFalse {rest : List Char} : Reads raw (.value (.bool false)) ("false".toList ++ rest) rest
  | number {literal rest : List Char} (hnumber : isNumber literal = true)
      (hrest : ∀ char ∈ rest.head?, isNumberChar char = false) :
      Reads raw (.value (.number literal)) (literal ++ rest) rest
  | string {spelling text rest : List Char} (hspells : Spells raw spelling text) :
      Reads raw (.value (.string text)) ('"' :: (spelling ++ '"' :: rest)) rest
  | noElements {text rest : List Char} (hclose : skip text = ']' :: rest) :
      Reads raw (.value (.array [])) ('[' :: text) rest
  | array {elements : List Json} {text rest : List Char}
      (helements : Reads raw (.elements elements) text rest) :
      Reads raw (.value (.array elements)) ('[' :: text) rest
  | noMembers {text rest : List Char} (hclose : skip text = '}' :: rest) :
      Reads raw (.value (.object [])) ('{' :: text) rest
  | object {members : List (List Char × Json)} {text rest : List Char}
      (hmembers : Reads raw (.members members) text rest) :
      Reads raw (.value (.object members)) ('{' :: text) rest
  | lastElement {value : Json} {text behind rest : List Char}
      (hvalue : Reads raw (.value value) (skip text) behind)
      (hclose : skip behind = ']' :: rest) : Reads raw (.elements [value]) text rest
  | element {value : Json} {elements : List Json} {text behind more rest : List Char}
      (hvalue : Reads raw (.value value) (skip text) behind)
      (hcomma : skip behind = ',' :: more)
      (helements : Reads raw (.elements elements) more rest) :
      Reads raw (.elements (value :: elements)) text rest
  | lastMember {value : Json} {text spelling key behindKey front behind rest : List Char}
      (hquote : skip text = '"' :: (spelling ++ '"' :: behindKey))
      (hkey : Spells raw spelling key) (hcolon : skip behindKey = ':' :: front)
      (hvalue : Reads raw (.value value) (skip front) behind)
      (hclose : skip behind = '}' :: rest) : Reads raw (.members [(key, value)]) text rest
  | member {value : Json} {members : List (List Char × Json)}
      {text spelling key behindKey front behind more rest : List Char}
      (hquote : skip text = '"' :: (spelling ++ '"' :: behindKey))
      (hkey : Spells raw spelling key) (hcolon : skip behindKey = ':' :: front)
      (hvalue : Reads raw (.value value) (skip front) behind)
      (hcomma : skip behind = ',' :: more)
      (hmembers : Reads raw (.members members) more rest) :
      Reads raw (.members ((key, value) :: members)) text rest

/-- The whole text is one value. -/
def Document (raw : Char → Bool) (text : List Char) (value : Json) : Prop :=
  ∃ rest, Reads raw (.value value) (skip text) rest ∧ skip rest = []

/-- A value is the other one or stands in it. -/
inductive Within : Json → Json → Prop
  | self {value : Json} : Within value value
  | element {value whole : Json} {elements : List Json} (hmem : whole ∈ elements)
      (hwithin : Within value whole) : Within value (.array elements)
  | member {value whole : Json} {key : List Char} {members : List (List Char × Json)}
      (hmem : (key, whole) ∈ members) (hwithin : Within value whole) :
      Within value (.object members)

theorem within_trans {first second third : Json} (hfirst : Within first second)
    (hsecond : Within second third) : Within first third := by
  induction hsecond with
  | self => exact hfirst
  | element hmem hwithin ih => exact .element hmem ih
  | member hmem hwithin ih => exact .member hmem ih

/-- The last character that is no blank and no control character. -/
def lastMark (text : List Char) : Option Char :=
  text.reverse.find? fun char => ' ' < char

/-- The string stands in quotes in the text, and the mark before it. -/
def StandsBehind (raw : Char → Bool) (mark : Char) (text string : List Char) : Prop :=
  ∃ front spelling behind, text = front ++ '"' :: (spelling ++ '"' :: behind) ∧
    lastMark front = some mark ∧ Spells raw spelling string

/-- The strings of the arrays and objects in the value stand in the text. -/
structure Quoted (raw : Char → Bool) (text : List Char) (value : Json) : Prop where
  element : ∀ {elements string}, Within (.array elements) value → .string string ∈ elements →
    StandsBehind raw '[' text string ∨ StandsBehind raw ',' text string
  member : ∀ {members key string}, Within (.object members) value →
    (key, .string string) ∈ members → StandsBehind raw ':' text string

/-! Decimal numbers. -/

theorem head_text_ne {number : Nat} (hpositive : 0 < number) :
    (Decimal.text number).head? ≠ some '0' := by
  induction number using Nat.strong_induction_on with
  | _ number ih =>
      rw [Decimal.text_eq, Nat.toDigits_eq_if (by decide)]
      split
      · next hsmall =>
          have hall : ∀ digit < 10, 0 < digit →
              [Nat.digitChar digit].head? ≠ some '0' := by
            decide
          exact hall number hsmall hpositive
      · next hlarge =>
          have hnext := ih (number / 10) (by omega) (by omega)
          rw [Decimal.text_eq] at hnext
          rw [List.head?_append]
          cases hhead : (Nat.toDigits 10 (number / 10)).head? with
          | none => exact absurd (List.head?_eq_none_iff.mp hhead) Nat.toDigits_ne_nil
          | some char =>
              rw [hhead] at hnext
              exact hnext

theorem isUnsigned_text (number : Nat) : isUnsigned (Decimal.text number) = true := by
  have hdigits : ∀ char ∈ Decimal.text number, char.isDigit = true :=
    fun char hchar => Decimal.isDigit_of_mem_text hchar
  rw [isUnsigned, List.takeWhile_eq_self_iff.mpr hdigits, List.dropWhile_eq_nil_iff.mpr hdigits]
  cases number with
  | zero => rfl
  | succ number =>
      have hhead := head_text_ne (Nat.succ_pos number)
      have hnonempty := Decimal.text_ne_nil (number + 1)
      simp [isFraction, hhead, hnonempty]

theorem isNumberChar_of_isDigit {char : Char} (hdigit : char.isDigit = true) :
    isNumberChar char = true := by
  rw [isNumberChar, hdigit]
  rfl

theorem dropSign_text (number : Nat) :
    dropSign ['-'] (Decimal.text number) = Decimal.text number := by
  cases htext : Decimal.text number with
  | nil => rfl
  | cons char rest =>
      have hdigit : char.isDigit = true :=
        Decimal.isDigit_of_mem_text (htext ▸ List.mem_cons_self : char ∈ Decimal.text number)
      have hsign : char ∉ ['-'] := by
        rw [List.mem_singleton]
        rintro rfl
        cases hdigit
      exact if_neg hsign

theorem isNumber_text (number : Nat) : isNumber (Decimal.text number) = true := by
  rw [isNumber, dropSign_text, isUnsigned_text, Bool.and_true, List.all_eq_true]
  exact fun char hchar => isNumberChar_of_isDigit (Decimal.isDigit_of_mem_text hchar)

theorem isNumber_neg_text (number : Nat) : isNumber ('-' :: Decimal.text number) = true := by
  have hunsigned : dropSign ['-'] ('-' :: Decimal.text number) = Decimal.text number := rfl
  rw [isNumber, hunsigned, isUnsigned_text, Bool.and_true, List.all_eq_true]
  refine List.forall_mem_cons.mpr ⟨rfl, ?_⟩
  exact fun char hchar => isNumberChar_of_isDigit (Decimal.isDigit_of_mem_text hchar)

section Standing

variable {raw : Char → Bool} {mark : Char} {text rest string : List Char}

/-- The rest is shorter. -/
structure Follows (rest text : List Char) : Prop where
  suffix : rest <:+ text
  shorter : rest.length < text.length

theorem Follows.trans {middle : List Char} (hrest : Follows rest middle)
    (hmiddle : middle <:+ text) : Follows rest text :=
  ⟨hrest.suffix.trans hmiddle, lt_of_lt_of_le hrest.shorter hmiddle.length_le⟩

theorem follows_append {front : List Char} (hfront : front ≠ []) :
    Follows rest (front ++ rest) := by
  refine ⟨List.suffix_append front rest, ?_⟩
  have hpositive := List.length_pos_of_ne_nil hfront
  rw [List.length_append]
  omega

theorem follows_cons {char : Char} : Follows rest (char :: rest) :=
  @follows_append rest [char] (List.cons_ne_nil _ _)

theorem skip_suffix (text : List Char) : skip text <:+ text :=
  List.dropWhile_suffix isBlank

theorem follows_of_skip {char : Char} (hskip : skip text = char :: rest) : Follows rest text := by
  have hsuffix := skip_suffix text
  rw [hskip] at hsuffix
  exact follows_cons.trans hsuffix

theorem follows_of_quoted {spelling : List Char} :
    Follows rest ('"' :: (spelling ++ '"' :: rest)) := by
  have hfollows := @follows_append rest ('"' :: (spelling ++ ['"'])) (List.cons_ne_nil _ _)
  rw [List.cons_append, List.append_assoc] at hfollows
  exact hfollows

theorem number_ne_nil {literal : List Char} (hnumber : isNumber literal = true) :
    literal ≠ [] := by
  rintro rfl
  cases hnumber

theorem head_isNumberChar {literal : List Char} (hnumber : isNumber literal = true) :
    ∃ char digits, literal = char :: digits ∧ isNumberChar char = true := by
  cases literal with
  | nil => cases hnumber
  | cons char digits =>
      refine ⟨char, digits, rfl, ?_⟩
      rw [isNumber, Bool.and_eq_true, List.all_eq_true] at hnumber
      exact hnumber.1 char List.mem_cons_self

theorem ne_of_isNumberChar {char other : Char} (hchar : isNumberChar char = true)
    (hother : isNumberChar other = false) : char ≠ other := by
  rintro rfl
  rw [hchar] at hother
  cases hother

theorem isBlank_eq_false {char : Char} (hchar : isNumberChar char = true) :
    isBlank char = false := by
  simp [isBlank, @ne_of_isNumberChar char ' ' hchar rfl, @ne_of_isNumberChar char '\t' hchar rfl,
    @ne_of_isNumberChar char '\n' hchar rfl, @ne_of_isNumberChar char '\r' hchar rfl]

/-- No value starts with a blank or a closing bracket. -/
theorem Reads.head {value : Json} (hreads : Reads raw (.value value) text rest) :
    ∃ char behind, text = char :: behind ∧ char ≠ ']' ∧ char ≠ '}' ∧ isBlank char = false := by
  cases hreads with
  | null => exact ⟨'n', _, rfl, by decide, by decide, rfl⟩
  | isTrue => exact ⟨'t', _, rfl, by decide, by decide, rfl⟩
  | isFalse => exact ⟨'f', _, rfl, by decide, by decide, rfl⟩
  | number hnumber hrest =>
      obtain ⟨char, digits, rfl, hchar⟩ := head_isNumberChar hnumber
      exact ⟨char, digits ++ rest, rfl, ne_of_isNumberChar hchar rfl,
        ne_of_isNumberChar hchar rfl, isBlank_eq_false hchar⟩
  | string hspells => exact ⟨'"', _, rfl, by decide, by decide, rfl⟩
  | noElements hclose => exact ⟨'[', _, rfl, by decide, by decide, rfl⟩
  | array helements => exact ⟨'[', _, rfl, by decide, by decide, rfl⟩
  | noMembers hclose => exact ⟨'{', _, rfl, by decide, by decide, rfl⟩
  | object hmembers => exact ⟨'{', _, rfl, by decide, by decide, rfl⟩

theorem skip_blanks {blanks : List Char} {char : Char}
    (hblanks : ∀ blank ∈ blanks, isBlank blank = true) (hchar : isBlank char = false) :
    skip (blanks ++ char :: rest) = char :: rest := by
  rw [skip, List.dropWhile_append_of_pos hblanks, List.dropWhile_cons_of_neg (by simp [hchar])]

/-- Blanks before a value. -/
theorem Reads.skip {value : Json} {blanks : List Char}
    (hreads : Reads raw (.value value) text rest)
    (hblanks : ∀ blank ∈ blanks, isBlank blank = true) : Json.skip (blanks ++ text) = text := by
  obtain ⟨char, behind, rfl, _, _, hchar⟩ := hreads.head
  exact skip_blanks hblanks hchar

theorem Reads.follows {part : Part} (hreads : Reads raw part text rest) :
    Follows rest text := by
  induction hreads with
  | null => exact follows_append (List.cons_ne_nil _ _)
  | isTrue => exact follows_append (List.cons_ne_nil _ _)
  | isFalse => exact follows_append (List.cons_ne_nil _ _)
  | number hnumber hrest => exact follows_append (number_ne_nil hnumber)
  | string hspells => exact follows_of_quoted
  | noElements hclose => exact (follows_of_skip hclose).trans (List.suffix_cons _ _)
  | array helements ih => exact ih.trans (List.suffix_cons _ _)
  | noMembers hclose => exact (follows_of_skip hclose).trans (List.suffix_cons _ _)
  | object hmembers ih => exact ih.trans (List.suffix_cons _ _)
  | lastElement hvalue hclose ih =>
      exact (follows_of_skip hclose).trans (ih.suffix.trans (skip_suffix _))
  | element hvalue hcomma helements ihvalue ih =>
      have hmore := (follows_of_skip hcomma).trans (ihvalue.suffix.trans (skip_suffix _))
      exact ih.trans hmore.suffix
  | lastMember hquote hkey hcolon hvalue hclose ih =>
      have hkeyed := follows_of_quoted.trans (hquote ▸ skip_suffix _)
      have hfront := (follows_of_skip hcolon).trans hkeyed.suffix
      have hbehind := ih.trans ((skip_suffix _).trans hfront.suffix)
      exact (follows_of_skip hclose).trans hbehind.suffix
  | member hquote hkey hcolon hvalue hcomma hmembers ihvalue ih =>
      have hkeyed := follows_of_quoted.trans (hquote ▸ skip_suffix _)
      have hfront := (follows_of_skip hcolon).trans hkeyed.suffix
      have hbehind := ihvalue.trans ((skip_suffix _).trans hfront.suffix)
      exact ih.trans ((follows_of_skip hcomma).trans hbehind.suffix).suffix

theorem lastMark_append {front : List Char} {mark : Char} (hmark : lastMark text = some mark) :
    lastMark (front ++ text) = some mark := by
  rw [lastMark, List.reverse_append, List.find?_append]
  rw [lastMark] at hmark
  rw [hmark]
  rfl

theorem StandsBehind.mono {mark : Char} {whole : List Char}
    (hstands : StandsBehind raw mark text string) (hsuffix : text <:+ whole) :
    StandsBehind raw mark whole string := by
  obtain ⟨front, spelling, behind, rfl, hmark, hspells⟩ := hstands
  obtain ⟨before, rfl⟩ := hsuffix
  exact ⟨before ++ front, spelling, behind, (List.append_assoc ..).symm,
    lastMark_append hmark, hspells⟩

theorem Quoted.mono {value : Json} {whole : List Char} (hquoted : Quoted raw text value)
    (hsuffix : text <:+ whole) : Quoted raw whole value where
  element hwithin hmem :=
    (hquoted.element hwithin hmem).imp (fun h => h.mono hsuffix) (fun h => h.mono hsuffix)
  member hwithin hmem := (hquoted.member hwithin hmem).mono hsuffix

/-- What is read at the front of the text brings its strings from there. -/
def Brings (raw : Char → Bool) (text : List Char) : Part → Prop
  | .value value => Quoted raw text value ∧
      ∀ string, value = .string string → ∃ spelling behind,
        text = '"' :: (spelling ++ '"' :: behind) ∧ Spells raw spelling string
  | .elements elements => ∀ mark, mark = '[' ∨ mark = ',' → ∀ value ∈ elements,
      Quoted raw (mark :: text) value ∧ ∀ string, value = .string string →
        StandsBehind raw '[' (mark :: text) string ∨ StandsBehind raw ',' (mark :: text) string
  | .members members => ∀ key value, (key, value) ∈ members →
      Quoted raw text value ∧ ∀ string, value = .string string →
        StandsBehind raw ':' text string

theorem quoted_leaf {value : Json} (harray : ∀ elements, value ≠ .array elements)
    (hobject : ∀ members, value ≠ .object members) : Quoted raw text value where
  element hwithin hmem := by
    cases hwithin with
    | self => exact absurd rfl (harray _)
    | element hinner hdeep => exact absurd rfl (harray _)
    | member hinner hdeep => exact absurd rfl (hobject _)
  member hwithin hmem := by
    cases hwithin with
    | self => exact absurd rfl (hobject _)
    | element hinner hdeep => exact absurd rfl (harray _)
    | member hinner hdeep => exact absurd rfl (hobject _)

/-- A value without strings has none to bring. -/
theorem brings_leaf {value : Json} (harray : ∀ elements, value ≠ .array elements)
    (hobject : ∀ members, value ≠ .object members) (hstring : ∀ string, value ≠ .string string) :
    Brings raw text (.value value) := by
  refine ⟨quoted_leaf harray hobject, ?_⟩
  intro string hvalue
  exact absurd hvalue (hstring string)

theorem quoted_array {elements : List Json}
    (helements : ∀ value ∈ elements, Quoted raw text value ∧ ∀ string, value = .string string →
      StandsBehind raw '[' text string ∨ StandsBehind raw ',' text string) :
    Quoted raw text (.array elements) where
  element hwithin hmem := by
    cases hwithin with
    | self => exact (helements _ hmem).2 _ rfl
    | element hinner hdeep => exact (helements _ hinner).1.element hdeep hmem
  member hwithin hmem := by
    cases hwithin with
    | element hinner hdeep => exact (helements _ hinner).1.member hdeep hmem

theorem quoted_object {members : List (List Char × Json)}
    (hmembers : ∀ key value, (key, value) ∈ members → Quoted raw text value ∧
      ∀ string, value = .string string → StandsBehind raw ':' text string) :
    Quoted raw text (.object members) where
  element hwithin hmem := by
    cases hwithin with
    | member hinner hdeep => exact (hmembers _ _ hinner).1.element hdeep hmem
  member hwithin hmem := by
    cases hwithin with
    | self => exact (hmembers _ _ hmem).2 _ rfl
    | member hinner hdeep => exact (hmembers _ _ hinner).1.member hdeep hmem

theorem lastMark_blanks {blanks : List Char} (hmark : ' ' < mark)
    (hblanks : ∀ char ∈ blanks, isBlank char = true) :
    lastMark (mark :: blanks) = some mark := by
  have hnone : blanks.reverse.find? (fun char => decide (' ' < char)) = none := by
    rw [List.find?_eq_none]
    intro char hchar
    have hblank := hblanks char (List.mem_reverse.mp hchar)
    simp only [isBlank, Bool.or_eq_true, beq_iff_eq] at hblank
    rcases hblank with ((rfl | rfl) | rfl) | rfl
    · decide
    · decide
    · decide
    · decide
  rw [lastMark, List.reverse_cons, List.find?_append, hnone, Option.none_or,
    List.find?_singleton, if_pos (decide_eq_true hmark)]

theorem standsBehind_skip {spelling behind : List Char} (hmark : ' ' < mark)
    (hquote : skip text = '"' :: (spelling ++ '"' :: behind))
    (hspells : Spells raw spelling string) : StandsBehind raw mark (mark :: text) string := by
  refine ⟨mark :: text.takeWhile isBlank, spelling, behind, ?_, ?_, hspells⟩
  · rw [← hquote, List.cons_append, skip, List.takeWhile_append_dropWhile]
  · exact lastMark_blanks hmark fun char hchar => List.mem_takeWhile_imp hchar

/-- A value behind a mark. -/
theorem Brings.behind {value : Json} (hbrings : Brings raw (skip text) (.value value))
    (hmark : ' ' < mark) : Quoted raw (mark :: text) value ∧
      ∀ string, value = .string string → StandsBehind raw mark (mark :: text) string := by
  obtain ⟨hquoted, hstring⟩ := hbrings
  refine ⟨hquoted.mono ((skip_suffix text).trans (List.suffix_cons _ _)), ?_⟩
  intro string hvalue
  obtain ⟨spelling, behind, hquote, hspells⟩ := hstring string hvalue
  exact standsBehind_skip hmark hquote hspells

theorem Brings.element {value : Json} (hbrings : Brings raw (skip text) (.value value))
    (hmark : mark = '[' ∨ mark = ',') : Quoted raw (mark :: text) value ∧
      ∀ string, value = .string string →
        StandsBehind raw '[' (mark :: text) string ∨
          StandsBehind raw ',' (mark :: text) string := by
  rcases hmark with rfl | rfl
  · have hbehind := hbrings.behind (by decide : ' ' < '[')
    exact ⟨hbehind.1, fun string hvalue => .inl (hbehind.2 string hvalue)⟩
  · have hbehind := hbrings.behind (by decide : ' ' < ',')
    exact ⟨hbehind.1, fun string hvalue => .inr (hbehind.2 string hvalue)⟩

/-- A value with its colon. -/
theorem Brings.member {value : Json} {behindKey front : List Char}
    (hbrings : Brings raw (skip front) (.value value))
    (hcolon : skip behindKey = ':' :: front) (hkeyed : behindKey <:+ text) :
    Quoted raw text value ∧
      ∀ string, value = .string string → StandsBehind raw ':' text string := by
  have hbehind := hbrings.behind (by decide : ' ' < ':')
  have hsuffix : ':' :: front <:+ text := hcolon ▸ (skip_suffix behindKey).trans hkeyed
  exact ⟨hbehind.1.mono hsuffix, fun string hvalue => (hbehind.2 string hvalue).mono hsuffix⟩

theorem Brings.mono_elements {elements : List Json} {more : List Char}
    (hbrings : Brings raw more (.elements elements)) (hsuffix : ',' :: more <:+ text) :
    ∀ value ∈ elements, Quoted raw text value ∧ ∀ string, value = .string string →
      StandsBehind raw '[' text string ∨ StandsBehind raw ',' text string := by
  intro value hmem
  obtain ⟨hquoted, hstring⟩ := hbrings ',' (.inr rfl) value hmem
  refine ⟨hquoted.mono hsuffix, fun string hvalue => ?_⟩
  exact (hstring string hvalue).imp (fun h => h.mono hsuffix) (fun h => h.mono hsuffix)

theorem Reads.brings {part : Part} (hreads : Reads raw part text rest) :
    Brings raw text part := by
  induction hreads with
  | null =>
      exact brings_leaf nofun nofun nofun
  | isTrue =>
      exact brings_leaf nofun nofun nofun
  | isFalse =>
      exact brings_leaf nofun nofun nofun
  | number hnumber hrest =>
      exact brings_leaf nofun nofun nofun
  | string hspells =>
      refine ⟨quoted_leaf (by intro _ h; cases h) (by intro _ h; cases h), ?_⟩
      rintro string ⟨⟩
      exact ⟨_, _, rfl, hspells⟩
  | noElements hclose =>
      exact ⟨quoted_array fun value hmem => absurd hmem List.not_mem_nil, by intro _ h; cases h⟩
  | array helements ih =>
      exact ⟨quoted_array fun value hmem => ih '[' (.inl rfl) value hmem, by intro _ h; cases h⟩
  | noMembers hclose =>
      exact ⟨quoted_object fun key value hmem => absurd hmem List.not_mem_nil,
        by intro _ h; cases h⟩
  | object hmembers ih =>
      refine ⟨quoted_object fun key value hmem => ?_, by intro _ h; cases h⟩
      obtain ⟨hquoted, hstring⟩ := ih key value hmem
      exact ⟨hquoted.mono (List.suffix_cons _ _),
        fun string hvalue => (hstring string hvalue).mono (List.suffix_cons _ _)⟩
  | lastElement hvalue hclose ih =>
      intro mark hmark value hmem
      rw [List.mem_singleton] at hmem
      subst hmem
      exact ih.element hmark
  | element hvalue hcomma helements ihvalue ih =>
      intro mark hmark value hmem
      rcases List.mem_cons.mp hmem with rfl | hmem
      · exact ihvalue.element hmark
      · have hsuffix := hvalue.follows.suffix.trans ((skip_suffix _).trans
          (List.suffix_cons mark _))
        exact ih.mono_elements (hcomma ▸ (skip_suffix _).trans hsuffix) value hmem
  | lastMember hquote hkey hcolon hvalue hclose ih =>
      intro key value hmem
      rw [List.mem_singleton] at hmem
      cases hmem
      exact ih.member hcolon (follows_of_quoted.trans (hquote ▸ skip_suffix _)).suffix
  | member hquote hkey hcolon hvalue hcomma hmembers ihvalue ih =>
      intro key value hmem
      have hkeyed := (follows_of_quoted.trans (hquote ▸ skip_suffix _)).suffix
      rcases List.mem_cons.mp hmem with heq | hmem
      · cases heq
        exact ihvalue.member hcolon hkeyed
      · obtain ⟨hquoted, hstring⟩ := ih key value hmem
        have hfront := (follows_of_skip hcolon).suffix.trans hkeyed
        have hbehind := hvalue.follows.suffix.trans ((skip_suffix _).trans hfront)
        have hsuffix := (follows_of_skip hcomma).suffix.trans hbehind
        exact ⟨hquoted.mono hsuffix, fun string hvalue => (hstring string hvalue).mono hsuffix⟩

/-- In a JSON text every string stands behind a bracket, a comma or a colon. -/
theorem Document.quoted {value : Json} (hdocument : Document raw text value) :
    Quoted raw text value := by
  obtain ⟨rest, hreads, _⟩ := hdocument
  exact hreads.brings.1.mono (skip_suffix text)

end Standing

end Json

end Hitrace.Library
