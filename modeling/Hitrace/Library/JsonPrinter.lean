import Hitrace.Library.QuotedText

namespace Hitrace.Library

/-! A printer of JSON values, and that its texts are those of the values. -/

namespace Json

def hexChar (digit : Nat) : Char :=
  if digit < 10 then Char.ofNat ('0'.toNat + digit) else Char.ofNat ('a'.toNat + (digit - 10))

def spellChar (char : Char) : List Char :=
  if char = '"' ∨ char = '\\' then ['\\', char]
  else if ' ' ≤ char then [char]
  else ['\\', 'u', '0', '0', hexChar (char.toNat / 16), hexChar (char.toNat % 16)]

def spell (string : List Char) : List Char :=
  string.flatMap spellChar

mutual

/-- The text of the value before the rest. -/
def print : Json → List Char → List Char
  | .null, rest => "null".toList ++ rest
  | .bool true, rest => "true".toList ++ rest
  | .bool false, rest => "false".toList ++ rest
  | .number literal, rest => literal ++ rest
  | .string text, rest => '"' :: (spell text ++ '"' :: rest)
  | .array elements, rest => '[' :: printElements elements rest
  | .object members, rest => '{' :: printMembers members rest

def printElements : List Json → List Char → List Char
  | [], rest => ']' :: rest
  | [value], rest => print value (']' :: rest)
  | value :: next :: others, rest => print value (',' :: printElements (next :: others) rest)

def printMembers : List (List Char × Json) → List Char → List Char
  | [], rest => '}' :: rest
  | [(key, value)], rest => '"' :: (spell key ++ '"' :: ':' :: print value ('}' :: rest))
  | (key, value) :: next :: others, rest =>
      '"' :: (spell key ++ '"' :: ':' ::
        print value (',' :: printMembers (next :: others) rest))

end

/-- The numbers in the value are numbers. -/
def Numeric (value : Json) : Prop :=
  ∀ literal, Within (.number literal) value → isNumber literal = true

section Printing

variable {raw : Char → Bool}

theorem numeric_element {elements : List Json} {value : Json}
    (hnumeric : Numeric (.array elements)) (hmem : value ∈ elements) : Numeric value :=
  fun literal hwithin => hnumeric literal (.element hmem hwithin)

theorem numeric_member {members : List (List Char × Json)} {key : List Char} {value : Json}
    (hnumeric : Numeric (.object members)) (hmem : (key, value) ∈ members) : Numeric value :=
  fun literal hwithin => hnumeric literal (.member hmem hwithin)

theorem codeUnit_of_control {code : Nat} (hcontrol : code < 32) :
    CodeUnit ['0', '0', hexChar (code / 16), hexChar (code % 16)] code := by
  have hvalue : ∀ code < 32, hexValue ['0', '0', hexChar (code / 16), hexChar (code % 16)] =
      code := by
    decide
  have hhex : ∀ code < 32, ∀ digit ∈ ['0', '0', hexChar (code / 16), hexChar (code % 16)],
      isHex digit = true := by
    simp only [← List.all_eq_true]
    decide
  exact ⟨rfl, hhex code hcontrol, hvalue code hcontrol⟩

theorem spells_spell (hraw : ∀ char, ' ' ≤ char → raw char = true) (string : List Char) :
    Spells raw (spell string) string := by
  induction string with
  | nil => exact .nil
  | cons char rest ih =>
      rw [spell, List.flatMap_cons, ← spell, spellChar]
      split
      · next hspecial =>
          have hlisted : (char, char) ∈ escapes := by
            rcases hspecial with rfl | rfl
            · decide
            · decide
          exact .escape (.mark hlisted) ih
      · next hplain =>
          obtain ⟨hquote, hback⟩ := not_or.mp hplain
          split
          · next hprintable => exact .plain ⟨hraw char hprintable, hquote, hback⟩ ih
          · next hcontrol =>
              have hsmall : char.toNat < 32 := Nat.not_le.mp hcontrol
              have hscalar : isScalar char.toNat = true := by
                simp only [isScalar, Bool.or_eq_true, decide_eq_true_eq]
                omega
              have hescape := Escape.unit (codeUnit_of_control hsmall) hscalar
              rw [Char.ofNat_toNat] at hescape
              exact .escape hescape ih

theorem reads_here {value : Json} {text behind : List Char}
    (hreads : Reads raw (.value value) text behind) :
    Reads raw (.value value) (skip text) behind := by
  have hskip : skip ([] ++ text) = text := hreads.skip fun blank hblank => by cases hblank
  rw [List.nil_append] at hskip
  rw [hskip]
  exact hreads

mutual

theorem reads_print (hraw : ∀ char, ' ' ≤ char → raw char = true) :
    ∀ (value : Json) (rest : List Char), Numeric value →
      (∀ char ∈ rest.head?, isNumberChar char = false) →
        Reads raw (.value value) (print value rest) rest
  | .null, rest, _, _ => by
      rw [print]
      exact .null
  | .bool true, rest, _, _ => by
      rw [print]
      exact .isTrue
  | .bool false, rest, _, _ => by
      rw [print]
      exact .isFalse
  | .number literal, rest, hnumeric, hrest => by
      rw [print]
      exact .number (hnumeric literal .self) hrest
  | .string text, rest, _, _ => by
      rw [print]
      exact .string (spells_spell hraw text)
  | .array [], rest, _, _ => by
      rw [print, printElements]
      exact .noElements rfl
  | .array (value :: others), rest, hnumeric, _ => by
      rw [print]
      exact .array (reads_elements hraw (value :: others) rest (List.cons_ne_nil _ _)
        fun element hmem => numeric_element hnumeric hmem)
  | .object [], rest, _, _ => by
      rw [print, printMembers]
      exact .noMembers rfl
  | .object (member :: others), rest, hnumeric, _ => by
      rw [print]
      exact .object (reads_members hraw (member :: others) rest (List.cons_ne_nil _ _)
        fun key element hmem => numeric_member hnumeric hmem)

theorem reads_elements (hraw : ∀ char, ' ' ≤ char → raw char = true) :
    ∀ (elements : List Json) (rest : List Char), elements ≠ [] →
      (∀ value ∈ elements, Numeric value) →
        Reads raw (.elements elements) (printElements elements rest) rest
  | [], rest, hnonempty, _ => absurd rfl hnonempty
  | [value], rest, _, hnumeric => by
      rw [printElements]
      have hvalue := reads_print hraw value (']' :: rest) (hnumeric value List.mem_cons_self)
        (by intro char hchar; cases hchar; rfl)
      exact .lastElement (reads_here hvalue) rfl
  | value :: next :: others, rest, _, hnumeric => by
      rw [printElements]
      obtain ⟨hfirst, hothers⟩ := List.forall_mem_cons.mp hnumeric
      have hvalue := reads_print hraw value (',' :: printElements (next :: others) rest) hfirst
        (by intro char hchar; cases hchar; rfl)
      exact .element (reads_here hvalue) rfl
        (reads_elements hraw (next :: others) rest (List.cons_ne_nil _ _) hothers)

theorem reads_members (hraw : ∀ char, ' ' ≤ char → raw char = true) :
    ∀ (members : List (List Char × Json)) (rest : List Char), members ≠ [] →
      (∀ key value, (key, value) ∈ members → Numeric value) →
        Reads raw (.members members) (printMembers members rest) rest
  | [], rest, hnonempty, _ => absurd rfl hnonempty
  | [(key, value)], rest, _, hnumeric => by
      rw [printMembers]
      have hvalue := reads_print hraw value ('}' :: rest)
        (hnumeric key value List.mem_cons_self) (by intro char hchar; cases hchar; rfl)
      exact .lastMember rfl (spells_spell hraw key) rfl (reads_here hvalue) rfl
  | (key, value) :: next :: others, rest, _, hnumeric => by
      rw [printMembers]
      have hvalue := reads_print hraw value (',' :: printMembers (next :: others) rest)
        (hnumeric key value List.mem_cons_self) (by intro char hchar; cases hchar; rfl)
      exact .member rfl (spells_spell hraw key) rfl (reads_here hvalue) rfl
        (reads_members hraw (next :: others) rest (List.cons_ne_nil _ _)
          fun other element hmem => hnumeric other element (List.mem_cons_of_mem _ hmem))

end

theorem document_print (hraw : ∀ char, ' ' ≤ char → raw char = true) {value : Json}
    (hnumeric : Numeric value) : Document raw (print value []) value := by
  have hreads := reads_print hraw value [] hnumeric (by intro char hchar; cases hchar)
  exact ⟨[], reads_here hreads, rfl⟩

/-! A JSON text has no NUL. -/

theorem Spells.nul_not_mem (hnul : raw '\x00' = false) {spelling string : List Char}
    (hspells : Spells raw spelling string) : '\x00' ∉ spelling := by
  have hends : EndsNoEscape '\x00' :=
    endsNoEscape_of_ne rfl (by decide) (by decide) (by simp [escapes])
  induction hspells with
  | nil => exact List.not_mem_nil
  | plain hplain hrest ih =>
      intro hmem
      rcases List.mem_cons.mp hmem with heq | hmem
      · rw [heq, hplain.raw] at hnul
        cases hnul
      · exact ih hmem
  | escape hescape hrest ih =>
      refine List.not_mem_cons_of_ne_of_not_mem (by decide) ?_
      exact List.not_mem_append (hends.notMem hescape) ih

theorem nul_not_mem_of_skip {text : List Char} (hskip : '\x00' ∉ skip text) :
    '\x00' ∉ text := by
  intro hmem
  rw [← @List.takeWhile_append_dropWhile _ isBlank text] at hmem
  rcases List.mem_append.mp hmem with hblank | hrest
  · have hnul := List.mem_takeWhile_imp hblank
    cases hnul
  · exact hskip hrest

theorem nul_not_mem_of_skip_eq {text rest : List Char} {char : Char}
    (hskip : skip text = char :: rest) (hchar : '\x00' ≠ char) (hrest : '\x00' ∉ rest) :
    '\x00' ∉ text := by
  refine nul_not_mem_of_skip ?_
  rw [hskip]
  exact List.not_mem_cons_of_ne_of_not_mem hchar hrest

theorem nul_not_mem_quoted (hnul : raw '\x00' = false) {text spelling string rest : List Char}
    (hquote : skip text = '"' :: (spelling ++ '"' :: rest)) (hspells : Spells raw spelling string)
    (hrest : '\x00' ∉ rest) : '\x00' ∉ text := by
  refine nul_not_mem_of_skip_eq hquote (by decide) ?_
  exact List.not_mem_append (hspells.nul_not_mem hnul)
    (List.not_mem_cons_of_ne_of_not_mem (by decide) hrest)

theorem Reads.nul_not_mem (hnul : raw '\x00' = false) {part : Part} {text rest : List Char}
    (hreads : Reads raw part text rest) (hrest : '\x00' ∉ rest) : '\x00' ∉ text := by
  induction hreads with
  | null => exact List.not_mem_append (by decide) hrest
  | isTrue => exact List.not_mem_append (by decide) hrest
  | isFalse => exact List.not_mem_append (by decide) hrest
  | number hnumber hstop =>
      refine List.not_mem_append (fun hmem => ?_) hrest
      rw [isNumber, Bool.and_eq_true, List.all_eq_true] at hnumber
      have hchar := hnumber.1 _ hmem
      cases hchar
  | string hspells =>
      refine List.not_mem_cons_of_ne_of_not_mem (by decide) ?_
      exact List.not_mem_append (hspells.nul_not_mem hnul)
        (List.not_mem_cons_of_ne_of_not_mem (by decide) hrest)
  | noElements hclose =>
      exact List.not_mem_cons_of_ne_of_not_mem (by decide)
        (nul_not_mem_of_skip_eq hclose (by decide) hrest)
  | array helements ih => exact List.not_mem_cons_of_ne_of_not_mem (by decide) (ih hrest)
  | noMembers hclose =>
      exact List.not_mem_cons_of_ne_of_not_mem (by decide)
        (nul_not_mem_of_skip_eq hclose (by decide) hrest)
  | object hmembers ih => exact List.not_mem_cons_of_ne_of_not_mem (by decide) (ih hrest)
  | lastElement hvalue hclose ih =>
      exact nul_not_mem_of_skip (ih (nul_not_mem_of_skip_eq hclose (by decide) hrest))
  | element hvalue hcomma helements ihvalue ih =>
      exact nul_not_mem_of_skip (ihvalue (nul_not_mem_of_skip_eq hcomma (by decide) (ih hrest)))
  | lastMember hquote hkey hcolon hvalue hclose ih =>
      have hbehind := nul_not_mem_of_skip_eq hclose (by decide) hrest
      exact nul_not_mem_quoted hnul hquote hkey
        (nul_not_mem_of_skip_eq hcolon (by decide) (nul_not_mem_of_skip (ih hbehind)))
  | member hquote hkey hcolon hvalue hcomma hmembers ihvalue ih =>
      have hbehind := nul_not_mem_of_skip_eq hcomma (by decide) (ih hrest)
      exact nul_not_mem_quoted hnul hquote hkey
        (nul_not_mem_of_skip_eq hcolon (by decide) (nul_not_mem_of_skip (ihvalue hbehind)))

theorem nul_not_mem_print (hraw : ∀ char, ' ' ≤ char → raw char = true)
    (hnul : raw '\x00' = false) {value : Json} (hnumeric : Numeric value) :
    '\x00' ∉ print value [] :=
  (reads_print hraw value [] hnumeric (by intro char hchar; cases hchar)).nul_not_mem hnul
    List.not_mem_nil

end Printing

end Json

end Hitrace.Library
