import Hitrace.Library.Json

namespace Hitrace.Library

/-! A reader of JSON texts: it reads exactly the texts of `Json.Document`. -/

namespace Json

/-! Strings. -/

def readUnit (text : List Char) : Option (Nat × List Char) :=
  let digits := text.take 4
  if digits.length = 4 ∧ digits.all isHex = true then some (hexValue digits, text.drop 4)
  else none

/-- The second unit of a pair, with its escape. -/
def readLow (high : Nat) (text : List Char) : Option (Char × List Char) :=
  if text.take 2 = ['\\', 'u'] then do
    let (low, rest) ← readUnit (text.drop 2)
    if isLowSurrogate low then some (pairChar high low, rest) else none
  else none

/-- What stands behind the `u` of an escape. -/
def readCode (text : List Char) : Option (Char × List Char) := do
  let (code, rest) ← readUnit text
  if isScalar code then some (Char.ofNat code, rest)
  else if isHighSurrogate code then readLow code rest
  else none

def readEscape : List Char → Option (Char × List Char)
  | [] => none
  | mark :: rest =>
      if mark = 'u' then readCode rest
      else (escapes.lookup mark).map fun char => (char, rest)

/-- From behind the opening quote. -/
def readString (raw : Char → Bool) : Nat → List Char → Option (List Char × List Char)
  | 0, _ => none
  | _ + 1, [] => none
  | fuel + 1, char :: rest =>
      if char = '"' then some ([], rest)
      else if char = '\\' then do
        let (char, rest) ← readEscape rest
        let (chars, rest) ← readString raw fuel rest
        some (char :: chars, rest)
      else if raw char then do
        let (chars, rest) ← readString raw fuel rest
        some (char :: chars, rest)
      else none

/-! Values. -/

def readMark (mark : Char) (text : List Char) : Option (List Char) :=
  match skip text with
  | [] => none
  | char :: rest => if char = mark then some rest else none

def readLeaf (text : List Char) : Option (Json × List Char) :=
  if text.take 4 = "null".toList then some (.null, text.drop 4)
  else if text.take 4 = "true".toList then some (.bool true, text.drop 4)
  else if text.take 5 = "false".toList then some (.bool false, text.drop 5)
  else
    let literal := text.takeWhile isNumberChar
    if isNumber literal then some (.number literal, text.dropWhile isNumberChar) else none

/-- A key and its colon. -/
def readKey (raw : Char → Bool) (text : List Char) : Option (List Char × List Char) := do
  let quoted ← readMark '"' text
  let (key, behindKey) ← readString raw (quoted.length + 1) quoted
  let front ← readMark ':' behindKey
  some (key, front)

mutual

def readValue (raw : Char → Bool) : Nat → List Char → Option (Json × List Char)
  | 0, _ => none
  | _ + 1, [] => none
  | fuel + 1, char :: rest =>
      if char = '"' then do
        let (chars, rest) ← readString raw (rest.length + 1) rest
        some (.string chars, rest)
      else if char = '[' then
        match readMark ']' rest with
        | some rest => some (.array [], rest)
        | none => do
            let (elements, rest) ← readElements raw fuel rest
            some (.array elements, rest)
      else if char = '{' then
        match readMark '}' rest with
        | some rest => some (.object [], rest)
        | none => do
            let (members, rest) ← readMembers raw fuel rest
            some (.object members, rest)
      else readLeaf (char :: rest)

def readElements (raw : Char → Bool) : Nat → List Char → Option (List Json × List Char)
  | 0, _ => none
  | fuel + 1, text => do
      let (value, behind) ← readValue raw fuel (skip text)
      match readMark ']' behind with
      | some rest => some ([value], rest)
      | none => do
          let more ← readMark ',' behind
          let (elements, rest) ← readElements raw fuel more
          some (value :: elements, rest)

def readMembers (raw : Char → Bool) :
    Nat → List Char → Option (List (List Char × Json) × List Char)
  | 0, _ => none
  | fuel + 1, text => do
      let (key, front) ← readKey raw text
      let (value, behind) ← readValue raw fuel (skip front)
      match readMark '}' behind with
      | some rest => some ([(key, value)], rest)
      | none => do
          let more ← readMark ',' behind
          let (members, rest) ← readMembers raw fuel more
          some ((key, value) :: members, rest)

end

def read (raw : Char → Bool) (text : List Char) : Option Json := do
  let (value, rest) ← readValue raw (2 * (skip text).length) (skip text)
  if skip rest = [] then some value else none

section Reader

variable {raw : Char → Bool} {text rest string spelling : List Char}

theorem readUnit_eq_some {code : Nat} :
    readUnit text = some (code, rest) ↔ ∃ digits, CodeUnit digits code ∧ text = digits ++ rest := by
  rw [readUnit]
  constructor
  · intro hread
    split at hread
    · next hdigits =>
        cases hread
        exact ⟨text.take 4, ⟨hdigits.1, List.all_eq_true.mp hdigits.2, rfl⟩,
          (List.take_append_drop 4 text).symm⟩
    · cases hread
  · rintro ⟨digits, ⟨hlength, hhex, hvalue⟩, rfl⟩
    rw [← hlength, List.take_left, List.drop_left]
    rw [if_pos ⟨rfl, List.all_eq_true.mpr hhex⟩, hvalue]

theorem readLow_sound {high : Nat} {char : Char}
    (hread : readLow high text = some (char, rest)) :
    ∃ low code, CodeUnit low code ∧ isLowSurrogate code = true ∧ char = pairChar high code ∧
      text = '\\' :: 'u' :: (low ++ rest) := by
  rw [readLow] at hread
  split at hread
  · next hfront =>
      obtain ⟨⟨code, behind⟩, hunit, hscanned⟩ := Option.bind_eq_some_iff.mp hread
      clear hread
      dsimp only at hscanned
      obtain ⟨low, hlow, hbehind⟩ := readUnit_eq_some.mp hunit
      split at hscanned
      · next hcode =>
          cases hscanned
          refine ⟨low, code, hlow, hcode, rfl, ?_⟩
          rw [← List.take_append_drop 2 text, hfront, hbehind]
          rfl
      · cases hscanned
  · cases hread

theorem readCode_sound {char : Char} (hread : readCode text = some (char, rest)) :
    ∃ escape, Escape ('u' :: escape) char ∧ text = escape ++ rest := by
  obtain ⟨⟨code, behind⟩, hunit, hscanned⟩ := Option.bind_eq_some_iff.mp hread
  clear hread
  dsimp only at hscanned
  obtain ⟨digits, hdigits, rfl⟩ := readUnit_eq_some.mp hunit
  split at hscanned
  · next hscalar =>
      cases hscanned
      exact ⟨digits, .unit hdigits hscalar, rfl⟩
  · split at hscanned
    · next hhigh =>
        obtain ⟨low, lowCode, hlow, hlowCode, rfl, rfl⟩ := readLow_sound hscanned
        refine ⟨digits ++ '\\' :: 'u' :: low, .pair hdigits hlow hhigh hlowCode, ?_⟩
        rw [List.append_assoc]
        rfl
    · cases hscanned

theorem readEscape_sound {char : Char} (hread : readEscape text = some (char, rest)) :
    ∃ escape, Escape escape char ∧ text = escape ++ rest := by
  cases text with
  | nil => cases hread
  | cons mark behind =>
      rw [readEscape] at hread
      split at hread
      · next hmark =>
          obtain ⟨escape, hescape, rfl⟩ := readCode_sound hread
          exact ⟨'u' :: escape, hescape, by rw [hmark, List.cons_append]⟩
      · obtain ⟨found, hfound, hpair⟩ := Option.map_eq_some_iff.mp hread
        cases hpair
        refine ⟨[mark], .mark ?_, rfl⟩
        obtain ⟨front, later, hescapes, _⟩ := List.lookup_eq_some_iff.mp hfound
        rw [hescapes]
        exact List.mem_append_right front List.mem_cons_self

theorem isScalar_of_isHighSurrogate {code : Nat} (hhigh : isHighSurrogate code = true) :
    isScalar code = false := by
  simp only [isHighSurrogate, Bool.and_eq_true, decide_eq_true_eq] at hhigh
  simp only [isScalar, Bool.or_eq_false_iff, decide_eq_false_iff_not]
  omega

theorem readCode_complete {escape : List Char} {char : Char}
    (hescape : Escape ('u' :: escape) char) : readCode (escape ++ rest) = some (char, rest) := by
  cases hescape with
  | mark hmark => exact absurd hmark (by simp [escapes])
  | unit hunit hscalar =>
      have hread := readUnit_eq_some.mpr ⟨escape, hunit, @rfl _ (escape ++ rest)⟩
      rw [readCode, hread]
      exact if_pos hscalar
  | @pair high low highCode lowCode hhigh hlow hhighCode hlowCode =>
      have htext : (high ++ '\\' :: 'u' :: low) ++ rest = high ++ '\\' :: 'u' :: (low ++ rest) := by
        simp
      have hread := readUnit_eq_some.mpr ⟨high, hhigh, htext⟩
      have hlowRead := readUnit_eq_some.mpr ⟨low, hlow, @rfl _ (low ++ rest)⟩
      rw [readCode, hread, Option.bind_eq_bind, Option.bind_some]
      dsimp only
      rw [isScalar_of_isHighSurrogate hhighCode, if_neg Bool.false_ne_true,
        if_pos hhighCode, readLow]
      change (if ['\\', 'u'] = ['\\', 'u'] then (readUnit (low ++ rest)).bind _ else none) = _
      rw [if_pos rfl]
      rw [hlowRead, Option.bind_some]
      exact if_pos hlowCode

theorem readEscape_complete {escape : List Char} {char : Char} (hescape : Escape escape char) :
    readEscape (escape ++ rest) = some (char, rest) := by
  cases hescape with
  | @mark mark char hmark =>
      have hne : mark ≠ 'u' := by
        rintro rfl
        exact absurd hmark (by simp [escapes])
      have hlookup : escapes.lookup mark = some char := by
        simp only [escapes, List.mem_cons, Prod.mk.injEq, List.not_mem_nil, or_false] at hmark
        rcases hmark with h | h | h | h | h | h | h | h
        all_goals
          obtain ⟨rfl, rfl⟩ := h
          rfl
      rw [List.singleton_append, readEscape, if_neg hne, hlookup]
      rfl
  | unit hunit hscalar =>
      rw [List.cons_append, readEscape, if_pos rfl]
      exact readCode_complete (.unit hunit hscalar)
  | pair hhigh hlow hhighCode hlowCode =>
      rw [List.cons_append, readEscape, if_pos rfl]
      exact readCode_complete (.pair hhigh hlow hhighCode hlowCode)

theorem readString_sound {fuel : Nat} (hread : readString raw fuel text = some (string, rest)) :
    ∃ spelling, text = spelling ++ '"' :: rest ∧ Spells raw spelling string := by
  induction fuel generalizing text string with
  | zero => cases hread
  | succ fuel ih =>
      cases text with
      | nil => cases hread
      | cons char behind =>
          rw [readString] at hread
          split at hread
          · next hquote =>
              cases hread
              exact ⟨[], by rw [hquote, List.nil_append], .nil⟩
          · next hquote =>
              split at hread
              · next hback =>
                  obtain ⟨⟨escaped, more⟩, hescaped, hread⟩ := Option.bind_eq_some_iff.mp hread
                  obtain ⟨⟨chars, final⟩, hchars, hread⟩ := Option.bind_eq_some_iff.mp hread
                  cases hread
                  obtain ⟨escape, hescape, rfl⟩ := readEscape_sound hescaped
                  obtain ⟨spelling, rfl, hspells⟩ := ih hchars
                  refine ⟨'\\' :: (escape ++ spelling), ?_, .escape hescape hspells⟩
                  rw [hback, List.cons_append, List.append_assoc]
              · next hback =>
                  split at hread
                  · next hraw =>
                      obtain ⟨⟨chars, final⟩, hchars, hread⟩ :=
                        Option.bind_eq_some_iff.mp hread
                      cases hread
                      obtain ⟨spelling, rfl, hspells⟩ := ih hchars
                      exact ⟨char :: spelling, rfl, .plain ⟨hraw, hquote, hback⟩ hspells⟩
                  · cases hread

theorem readString_complete {fuel : Nat} (hspells : Spells raw spelling string)
    (hfuel : spelling.length < fuel) :
    readString raw fuel (spelling ++ '"' :: rest) = some (string, rest) := by
  induction hspells generalizing fuel with
  | nil =>
      obtain ⟨fuel, rfl⟩ := Nat.exists_eq_succ_of_ne_zero (Nat.ne_of_gt hfuel)
      rfl
  | plain hplain hrest ih =>
      obtain ⟨fuel, rfl⟩ := Nat.exists_eq_succ_of_ne_zero (by omega : fuel ≠ 0)
      rw [List.length_cons] at hfuel
      rw [List.cons_append, readString, if_neg hplain.quote, if_neg hplain.escape,
        if_pos hplain.raw, ih (by omega)]
      rfl
  | escape hescape hrest ih =>
      obtain ⟨fuel, rfl⟩ := Nat.exists_eq_succ_of_ne_zero (by omega : fuel ≠ 0)
      rw [List.length_cons, List.length_append] at hfuel
      rw [List.cons_append, List.append_assoc, readString, if_neg (by decide), if_pos rfl,
        readEscape_complete hescape]
      change (readString raw fuel _).bind _ = _
      rw [ih (by omega)]
      rfl

theorem readMark_eq_some {mark : Char} :
    readMark mark text = some rest ↔ skip text = mark :: rest := by
  rw [readMark]
  cases hskip : skip text with
  | nil => simp
  | cons char behind =>
      by_cases hmark : char = mark
      · simp [hmark]
      · simp [hmark]

theorem readKey_sound {key : List Char} (hread : readKey raw text = some (key, rest)) :
    ∃ spelling behindKey, skip text = '"' :: (spelling ++ '"' :: behindKey) ∧
      Spells raw spelling key ∧ skip behindKey = ':' :: rest := by
  obtain ⟨quoted, hquoted, hnext⟩ := Option.bind_eq_some_iff.mp hread
  obtain ⟨⟨chars, behindKey⟩, hkey, hnext⟩ := Option.bind_eq_some_iff.mp hnext
  obtain ⟨front, hcolon, hpair⟩ := Option.bind_eq_some_iff.mp hnext
  cases hpair
  obtain ⟨spelling, rfl, hspells⟩ := readString_sound hkey
  exact ⟨spelling, behindKey, readMark_eq_some.mp hquoted, hspells, readMark_eq_some.mp hcolon⟩

theorem readKey_complete {key behindKey : List Char}
    (hquote : skip text = '"' :: (spelling ++ '"' :: behindKey)) (hkey : Spells raw spelling key)
    (hcolon : skip behindKey = ':' :: rest) : readKey raw text = some (key, rest) := by
  have hread := @readString_complete raw behindKey key spelling
    ((spelling ++ '"' :: behindKey).length + 1) hkey (by grind)
  rw [readKey, readMark_eq_some.mpr hquote, Option.bind_eq_bind, Option.bind_some, hread,
    Option.bind_eq_bind, Option.bind_some]
  dsimp only
  rw [readMark_eq_some.mpr hcolon]
  rfl

theorem append_drop_of_take {word : List Char} {length : Nat}
    (htake : text.take length = word) : word ++ text.drop length = text := by
  rw [← htake, List.take_append_drop]

theorem readLeaf_sound {value : Json} (hread : readLeaf text = some (value, rest)) :
    Reads raw (.value value) text rest := by
  rw [readLeaf] at hread
  split at hread
  · next hnull =>
      cases hread
      have hreads := @Reads.null raw (text.drop 4)
      rw [append_drop_of_take hnull] at hreads
      exact hreads
  · split at hread
    · next htrue =>
        cases hread
        have hreads := @Reads.isTrue raw (text.drop 4)
        rw [append_drop_of_take htrue] at hreads
        exact hreads
    · split at hread
      · next hfalse =>
          cases hread
          have hreads := @Reads.isFalse raw (text.drop 5)
          rw [append_drop_of_take hfalse] at hreads
          exact hreads
      · dsimp only at hread
        split at hread
        · next hnumber =>
            cases hread
            have hreads := @Reads.number raw _ (text.dropWhile isNumberChar) hnumber (by
              intro char hchar
              have hhead := List.head?_dropWhile_not isNumberChar text
              rw [hchar] at hhead
              exact hhead)
            rw [List.takeWhile_append_dropWhile] at hreads
            exact hreads
        · cases hread

/-- Whatever the reader reads, the grammar derives; by induction on the fuel. -/
theorem read_part_sound (fuel : Nat) :
    (∀ text value rest, readValue raw fuel text = some (value, rest) →
      Reads raw (.value value) text rest) ∧
    (∀ text elements rest, readElements raw fuel text = some (elements, rest) →
      Reads raw (.elements elements) text rest) ∧
    (∀ text members rest, readMembers raw fuel text = some (members, rest) →
      Reads raw (.members members) text rest) := by
  induction fuel with
  | zero =>
      refine ⟨?_, ?_, ?_⟩
      · intro text value rest hread
        cases hread
      · intro text elements rest hread
        cases hread
      · intro text members rest hread
        cases hread
  | succ fuel ih =>
      obtain ⟨ihValue, ihElements, ihMembers⟩ := ih
      refine ⟨?_, ?_, ?_⟩
      · intro text value rest hread
        cases text with
        | nil => cases hread
        | cons char behind =>
            rw [readValue] at hread
            split at hread
            · next hquote =>
                obtain ⟨⟨chars, final⟩, hchars, hpair⟩ := Option.bind_eq_some_iff.mp hread
                cases hpair
                obtain ⟨spelling, rfl, hspells⟩ := readString_sound hchars
                rw [hquote]
                exact .string hspells
            · split at hread
              · next hbracket =>
                  subst hbracket
                  split at hread
                  · next more hclose =>
                      cases hread
                      exact .noElements (readMark_eq_some.mp hclose)
                  · obtain ⟨⟨elements, final⟩, helements, hpair⟩ :=
                      Option.bind_eq_some_iff.mp hread
                    cases hpair
                    exact .array (ihElements _ _ _ helements)
              · split at hread
                · next hbrace =>
                    subst hbrace
                    split at hread
                    · next more hclose =>
                        cases hread
                        exact .noMembers (readMark_eq_some.mp hclose)
                    · obtain ⟨⟨members, final⟩, hmembers, hpair⟩ :=
                        Option.bind_eq_some_iff.mp hread
                      cases hpair
                      exact .object (ihMembers _ _ _ hmembers)
                · exact readLeaf_sound hread
      · intro text elements rest hread
        rw [readElements] at hread
        obtain ⟨⟨value, behind⟩, hvalue, hscanned⟩ := Option.bind_eq_some_iff.mp hread
        clear hread
        dsimp only at hscanned
        split at hscanned
        · next final hclose =>
            cases hscanned
            exact .lastElement (ihValue _ _ _ hvalue) (readMark_eq_some.mp hclose)
        · obtain ⟨more, hcomma, hmore⟩ := Option.bind_eq_some_iff.mp hscanned
          obtain ⟨⟨others, final⟩, hothers, hpair⟩ := Option.bind_eq_some_iff.mp hmore
          cases hpair
          exact .element (ihValue _ _ _ hvalue) (readMark_eq_some.mp hcomma)
            (ihElements _ _ _ hothers)
      · intro text members rest hread
        rw [readMembers] at hread
        obtain ⟨⟨key, front⟩, hkey, hnext⟩ := Option.bind_eq_some_iff.mp hread
        obtain ⟨⟨value, behind⟩, hvalue, hscanned⟩ := Option.bind_eq_some_iff.mp hnext
        clear hread hnext
        dsimp only at hscanned
        obtain ⟨spelling, behindKey, hquote, hspells, hcolon⟩ := readKey_sound hkey
        split at hscanned
        · next final hclose =>
            cases hscanned
            exact .lastMember hquote hspells hcolon (ihValue _ _ _ hvalue)
              (readMark_eq_some.mp hclose)
        · obtain ⟨more, hcomma, hmore⟩ := Option.bind_eq_some_iff.mp hscanned
          obtain ⟨⟨others, final⟩, hothers, hpair⟩ := Option.bind_eq_some_iff.mp hmore
          cases hpair
          exact .member hquote hspells hcolon (ihValue _ _ _ hvalue)
            (readMark_eq_some.mp hcomma) (ihMembers _ _ _ hothers)

theorem takeWhile_number {literal : List Char} (hnumber : isNumber literal = true)
    (hrest : ∀ char ∈ rest.head?, isNumberChar char = false) :
    (literal ++ rest).takeWhile isNumberChar = literal ∧
      (literal ++ rest).dropWhile isNumberChar = rest := by
  rw [isNumber, Bool.and_eq_true, List.all_eq_true] at hnumber
  rw [List.takeWhile_append_of_pos hnumber.1, List.dropWhile_append_of_pos hnumber.1]
  cases rest with
  | nil => exact ⟨List.append_nil literal, rfl⟩
  | cons char behind =>
      have hhead : ¬ isNumberChar char = true := Bool.eq_false_iff.mp (hrest char rfl)
      exact ⟨by rw [List.takeWhile_cons_of_neg hhead, List.append_nil],
        List.dropWhile_cons_of_neg hhead⟩

theorem readLeaf_number {literal : List Char} (hnumber : isNumber literal = true)
    (hrest : ∀ char ∈ rest.head?, isNumberChar char = false) :
    readLeaf (literal ++ rest) = some (.number literal, rest) := by
  obtain ⟨htake, hdrop⟩ := takeWhile_number hnumber hrest
  obtain ⟨char, digits, rfl, hchar⟩ := head_isNumberChar hnumber
  have hword (length : Nat) (first : Char) (others : List Char)
      (hfirst : isNumberChar first = false) :
      ((char :: digits) ++ rest).take (length + 1) ≠ first :: others := by
    intro heq
    rw [List.cons_append, List.take_succ_cons] at heq
    rw [(List.cons.inj heq).1, hfirst] at hchar
    cases hchar
  have hnull : ((char :: digits) ++ rest).take 4 ≠ "null".toList := hword 3 'n' _ rfl
  have htrue : ((char :: digits) ++ rest).take 4 ≠ "true".toList := hword 3 't' _ rfl
  have hfalse : ((char :: digits) ++ rest).take 5 ≠ "false".toList := hword 4 'f' _ rfl
  rw [readLeaf, if_neg hnull, if_neg htrue, if_neg hfalse, htake, hdrop]
  exact if_pos hnumber

/-- The reader has read the part, if its fuel is enough for the text. -/
def IsRead (raw : Char → Bool) (text rest : List Char) : Part → Prop
  | .value value => ∀ fuel, 2 * text.length ≤ fuel →
      readValue raw fuel text = some (value, rest)
  | .elements elements => ∀ fuel, 2 * text.length + 1 ≤ fuel →
      readElements raw fuel text = some (elements, rest)
  | .members members => ∀ fuel, 2 * text.length + 1 ≤ fuel →
      readMembers raw fuel text = some (members, rest)

theorem readMark_none {mark char : Char} {behind : List Char} (hskip : skip text = char :: behind)
    (hchar : char ≠ mark) : readMark mark text = none := by
  rw [readMark, hskip]
  exact if_neg hchar

theorem readMark_bracket {elements : List Json}
    (hreads : Reads raw (.elements elements) text rest) : readMark ']' text = none := by
  cases hreads with
  | lastElement hvalue hclose =>
      obtain ⟨char, behind, hskip, hbracket, _, _⟩ := hvalue.head
      exact readMark_none hskip hbracket
  | element hvalue hcomma helements =>
      obtain ⟨char, behind, hskip, hbracket, _, _⟩ := hvalue.head
      exact readMark_none hskip hbracket

theorem readMark_brace {members : List (List Char × Json)}
    (hreads : Reads raw (.members members) text rest) : readMark '}' text = none := by
  cases hreads with
  | lastMember hquote hkey hcolon hvalue hclose => exact readMark_none hquote (by decide)
  | member hquote hkey hcolon hvalue hcomma hmembers =>
      exact readMark_none hquote (by decide)

theorem readLeaf_isRead {value : Json} {char : Char}
    (hread : readLeaf (char :: text) = some (value, rest)) (hquote : char ≠ '"')
    (hbracket : char ≠ '[') (hbrace : char ≠ '{') :
    IsRead raw (char :: text) rest (.value value) := by
  intro fuel hfuel
  rw [List.length_cons] at hfuel
  obtain ⟨fuel, rfl⟩ := Nat.exists_eq_succ_of_ne_zero (by omega : fuel ≠ 0)
  rw [readValue, if_neg hquote, if_neg hbracket, if_neg hbrace]
  exact hread

/-- Whatever the grammar derives, the reader reads. -/
theorem Reads.isRead {part : Part} (hreads : Reads raw part text rest) :
    IsRead raw text rest part := by
  induction hreads with
  | null => exact readLeaf_isRead rfl (by decide) (by decide) (by decide)
  | isTrue => exact readLeaf_isRead rfl (by decide) (by decide) (by decide)
  | isFalse => exact readLeaf_isRead rfl (by decide) (by decide) (by decide)
  | number hnumber hrest =>
      have hleaf := readLeaf_number hnumber hrest
      obtain ⟨char, digits, rfl, hchar⟩ := head_isNumberChar hnumber
      exact readLeaf_isRead hleaf (ne_of_isNumberChar hchar rfl) (ne_of_isNumberChar hchar rfl)
        (ne_of_isNumberChar hchar rfl)
  | @string spelling chars rest hspells =>
      intro fuel hfuel
      rw [List.length_cons] at hfuel
      obtain ⟨fuel, rfl⟩ := Nat.exists_eq_succ_of_ne_zero (by omega : fuel ≠ 0)
      have hread := @readString_complete raw rest chars spelling
        ((spelling ++ '"' :: rest).length + 1) hspells (by grind)
      rw [readValue, if_pos rfl, hread]
      rfl
  | noElements hclose =>
      intro fuel hfuel
      rw [List.length_cons] at hfuel
      obtain ⟨fuel, rfl⟩ := Nat.exists_eq_succ_of_ne_zero (by omega : fuel ≠ 0)
      rw [readValue, if_neg (by decide), if_pos rfl, readMark_eq_some.mpr hclose]
  | array helements ih =>
      intro fuel hfuel
      rw [List.length_cons] at hfuel
      obtain ⟨fuel, rfl⟩ := Nat.exists_eq_succ_of_ne_zero (by omega : fuel ≠ 0)
      rw [readValue, if_neg (by decide), if_pos rfl, readMark_bracket helements,
        ih fuel (by omega)]
      rfl
  | noMembers hclose =>
      intro fuel hfuel
      rw [List.length_cons] at hfuel
      obtain ⟨fuel, rfl⟩ := Nat.exists_eq_succ_of_ne_zero (by omega : fuel ≠ 0)
      rw [readValue, if_neg (by decide), if_neg (by decide), if_pos rfl,
        readMark_eq_some.mpr hclose]
  | object hmembers ih =>
      intro fuel hfuel
      rw [List.length_cons] at hfuel
      obtain ⟨fuel, rfl⟩ := Nat.exists_eq_succ_of_ne_zero (by omega : fuel ≠ 0)
      rw [readValue, if_neg (by decide), if_neg (by decide), if_pos rfl,
        readMark_brace hmembers, ih fuel (by omega)]
      rfl
  | @lastElement value text behind rest hvalue hclose ih =>
      intro fuel hfuel
      obtain ⟨fuel, rfl⟩ := Nat.exists_eq_succ_of_ne_zero (by omega : fuel ≠ 0)
      have hskip := (skip_suffix text).length_le
      rw [readElements, ih fuel (by omega), Option.bind_eq_bind, Option.bind_some]
      dsimp only
      rw [readMark_eq_some.mpr hclose]
  | @element value elements text behind more rest hvalue hcomma helements ihvalue ih =>
      intro fuel hfuel
      obtain ⟨fuel, rfl⟩ := Nat.exists_eq_succ_of_ne_zero (by omega : fuel ≠ 0)
      have hskip := (skip_suffix text).length_le
      have hbehind := hvalue.follows.shorter
      have hmore := (follows_of_skip hcomma).shorter
      rw [readElements, ihvalue fuel (by omega), Option.bind_eq_bind, Option.bind_some]
      dsimp only
      rw [readMark_none hcomma (by decide)]
      dsimp only
      rw [readMark_eq_some.mpr hcomma, Option.bind_eq_bind, Option.bind_some,
        ih fuel (by omega)]
      rfl
  | @lastMember value text spelling key behindKey front behind rest hquote hkey hcolon hvalue
      hclose ih =>
      intro fuel hfuel
      obtain ⟨fuel, rfl⟩ := Nat.exists_eq_succ_of_ne_zero (by omega : fuel ≠ 0)
      have hfront := (skip_suffix front).length_le
      have hkeyed := (follows_of_quoted.trans (hquote ▸ skip_suffix text)).shorter
      have hbehindKey := (follows_of_skip hcolon).shorter
      rw [readMembers, readKey_complete hquote hkey hcolon, Option.bind_eq_bind,
        Option.bind_some]
      dsimp only
      rw [ih fuel (by omega), Option.bind_eq_bind, Option.bind_some]
      dsimp only
      rw [readMark_eq_some.mpr hclose]
  | @member value members text spelling key behindKey front behind more rest hquote hkey hcolon
      hvalue hcomma hmembers ihvalue ih =>
      intro fuel hfuel
      obtain ⟨fuel, rfl⟩ := Nat.exists_eq_succ_of_ne_zero (by omega : fuel ≠ 0)
      have hfront := (skip_suffix front).length_le
      have hkeyed := (follows_of_quoted.trans (hquote ▸ skip_suffix text)).shorter
      have hbehindKey := (follows_of_skip hcolon).shorter
      have hbehind := hvalue.follows.shorter
      have hmore := (follows_of_skip hcomma).shorter
      rw [readMembers, readKey_complete hquote hkey hcolon, Option.bind_eq_bind,
        Option.bind_some]
      dsimp only
      rw [ihvalue fuel (by omega), Option.bind_eq_bind, Option.bind_some]
      dsimp only
      rw [readMark_none hcomma (by decide)]
      dsimp only
      rw [readMark_eq_some.mpr hcomma, Option.bind_eq_bind, Option.bind_some,
        ih fuel (by omega)]
      rfl

theorem read_eq_some {value : Json} :
    read raw text = some value ↔ Document raw text value := by
  constructor
  · intro hread
    obtain ⟨⟨found, rest⟩, hvalue, hrest⟩ := Option.bind_eq_some_iff.mp hread
    dsimp only at hrest
    split at hrest
    · next hempty =>
        cases hrest
        exact ⟨rest, (read_part_sound _).1 _ _ _ hvalue, hempty⟩
    · cases hrest
  · rintro ⟨rest, hreads, hempty⟩
    have hvalue := hreads.isRead (2 * (skip text).length) (le_refl _)
    rw [read, hvalue, Option.bind_eq_bind, Option.bind_some]
    exact if_pos hempty

end Reader

end Json

end Hitrace.Library
