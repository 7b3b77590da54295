import Hitrace.Library.Json
import Mathlib.Data.List.Count

namespace Hitrace.Library

/-! Texts that are put together from strings in quotes, and which strings a reader can find
in them when the strings are not escaped. -/

theorem append_cons_cases {α : Type} {front behind before after : List α} {first second : α}
    (heq : front ++ first :: behind = before ++ second :: after) :
    (before = front ∧ first = second ∧ behind = after) ∨
      (∃ middle, before = front ++ first :: middle ∧ behind = middle ++ second :: after) ∨
      ∃ middle, front = before ++ second :: middle ∧ after = middle ++ first :: behind := by
  rcases List.append_eq_append_iff.mp heq with ⟨middle, hbefore, hrest⟩ | ⟨middle, hfront, hrest⟩
  · rcases List.cons_eq_append_iff.mp hrest with ⟨rfl, hcons⟩ | ⟨more, rfl, hmore⟩
    · cases hcons
      exact .inl ⟨by rw [hbefore, List.append_nil], rfl, rfl⟩
    · exact .inr (.inl ⟨more, hbefore, hmore⟩)
  · rcases List.cons_eq_append_iff.mp hrest with ⟨rfl, hcons⟩ | ⟨more, rfl, hmore⟩
    · cases hcons
      exact .inl ⟨by rw [hfront, List.append_nil], rfl, rfl⟩
    · exact .inr (.inr ⟨more, hfront, hmore⟩)

namespace Json

/-! The spelling of a string. -/

/-- A character that has to be escaped; a NUL ends a text. -/
def isSpecial (char : Char) : Bool :=
  char == '"' || char == '\\' || char == '\x00'

def weight (text : List Char) : Nat :=
  text.countP isSpecial

theorem weight_append (left right : List Char) :
    weight (left ++ right) = weight left + weight right :=
  List.countP_append

theorem weight_eq_zero {text : List Char} :
    weight text = 0 ↔ ∀ char ∈ text, isSpecial char = false := by
  rw [weight, List.countP_eq_zero]
  simp only [Bool.not_eq_true]

theorem not_mem_of_weight {text : List Char} {char : Char} (hweight : weight text = 0)
    (hchar : isSpecial char = true) : char ∉ text := by
  intro hmem
  rw [weight_eq_zero.mp hweight char hmem] at hchar
  cases hchar

/-- What may stand before a string. -/
def isOpener (char : Char) : Bool :=
  isBlank char || char == '[' || char == '{' || char == ',' || char == ':'

/-- The character ends no escape. -/
structure EndsNoEscape (char : Char) : Prop where
  ne : char ≠ '\\'
  notMem : ∀ {escape stands}, Escape escape stands → char ∉ escape

section Spelling

variable {raw : Char → Bool} {spelling string escape front behind : List Char} {char : Char}

theorem CodeUnit.not_mem {code : Nat} (hunit : CodeUnit spelling code)
    (hchar : isHex char = false) : char ∉ spelling := by
  intro hmem
  rw [hunit.hex char hmem] at hchar
  cases hchar

theorem Escape.eq_of_mem (hescape : Escape escape char) {other : Char} (hmem : other ∈ escape)
    (hhex : isHex other = false) (hletter : other ≠ 'u') (hother : other ≠ '\\') :
    escape = [other] := by
  cases hescape with
  | mark hmark => rw [List.mem_singleton.mp hmem]
  | unit hunit hscalar =>
      rcases List.mem_cons.mp hmem with hu | hmem
      · exact absurd hu hletter
      · exact absurd hmem (hunit.not_mem hhex)
  | pair hhigh hlow hhighCode hlowCode =>
      rcases List.mem_cons.mp hmem with hu | hmem
      · exact absurd hu hletter
      · rcases List.mem_append.mp hmem with hmem | hmem
        · exact absurd hmem (hhigh.not_mem hhex)
        · rcases List.mem_cons.mp hmem with hback | hmem
          · exact absurd hback hother
          · rcases List.mem_cons.mp hmem with hu | hmem
            · exact absurd hu hletter
            · exact absurd hmem (hlow.not_mem hhex)

theorem Escape.ne_nil (hescape : Escape escape char) : escape ≠ [] := by
  cases hescape with
  | mark hmark => exact List.cons_ne_nil _ _
  | unit hunit hscalar => exact List.cons_ne_nil _ _
  | pair hhigh hlow hhighCode hlowCode => exact List.cons_ne_nil _ _

theorem endsNoEscape_of_ne (hhex : isHex char = false) (hletter : char ≠ 'u')
    (hback : char ≠ '\\') (hmark : ∀ stands, (char, stands) ∉ escapes) :
    EndsNoEscape char where
  ne := hback
  notMem hescape hmem := by
    have heq := hescape.eq_of_mem hmem hhex hletter hback
    cases hescape with
    | mark hlisted =>
        cases heq
        exact hmark _ hlisted
    | unit hunit hscalar => exact hletter (List.cons.inj heq).1.symm
    | pair hhigh hlow hhighCode hlowCode => exact hletter (List.cons.inj heq).1.symm

theorem endsNoEscape_of_isOpener (hopener : isOpener char = true) : EndsNoEscape char := by
  simp only [isOpener, isBlank, Bool.or_eq_true, beq_iff_eq] at hopener
  rcases hopener with ((((((rfl | rfl) | rfl) | rfl) | rfl) | rfl) | rfl) | rfl
  all_goals exact endsNoEscape_of_ne rfl (by decide) (by decide) (by simp [escapes])

theorem isSpecial_of_plain (hnul : raw '\x00' = false) (hplain : Plain raw char) :
    isSpecial char = false := by
  have hne : char ≠ '\x00' := by
    rintro rfl
    rw [hplain.raw] at hnul
    cases hnul
  simp [isSpecial, hplain.quote, hplain.escape, hne]

/-- Every special character takes an escape. -/
theorem Spells.weight_le (hnul : raw '\x00' = false) (hspells : Spells raw spelling string) :
    weight string ≤ spelling.count '\\' := by
  induction hspells with
  | nil => exact Nat.le_refl 0
  | plain hplain hrest ih =>
      rw [weight, List.countP_cons_of_neg (by simp [isSpecial_of_plain hnul hplain])]
      rw [List.count_cons_of_ne hplain.escape]
      exact ih
  | escape hescape hrest ih =>
      rw [List.count_cons_self, List.count_append]
      have hcons := @List.countP_cons _ isSpecial
      rw [weight, hcons]
      rw [weight] at ih
      split
      · omega
      · omega

theorem Spells.length_le (hspells : Spells raw spelling string) :
    string.length ≤ spelling.length := by
  induction hspells with
  | nil => exact Nat.le_refl 0
  | plain hplain hrest ih =>
      rw [List.length_cons, List.length_cons]
      omega
  | escape hescape hrest ih =>
      rw [List.length_cons, List.length_cons, List.length_append]
      omega

/-- An escape is longer than what it stands for. -/
theorem Spells.length_lt (hspells : Spells raw spelling string) (hmem : '\\' ∈ spelling) :
    string.length < spelling.length := by
  induction hspells with
  | nil => cases hmem
  | plain hplain hrest ih =>
      rcases List.mem_cons.mp hmem with heq | hmem
      · exact absurd heq.symm hplain.escape
      · have hless := ih hmem
        rw [List.length_cons, List.length_cons]
        omega
  | escape hescape hrest ih =>
      have hpositive := List.length_pos_of_ne_nil hescape.ne_nil
      have hle := hrest.length_le
      rw [List.length_cons, List.length_cons, List.length_append]
      omega

theorem Spells.eq_of_not_mem (hspells : Spells raw spelling string) (hmem : '\\' ∉ spelling) :
    string = spelling ∧ ∀ char ∈ string, Plain raw char := by
  induction hspells with
  | nil => exact ⟨rfl, fun char hchar => absurd hchar List.not_mem_nil⟩
  | plain hplain hrest ih =>
      obtain ⟨rfl, hchars⟩ := ih fun h => hmem (List.mem_cons_of_mem _ h)
      exact ⟨rfl, List.forall_mem_cons.mpr ⟨hplain, hchars⟩⟩
  | escape hescape hrest ih => exact absurd List.mem_cons_self hmem

theorem spells_self (hplain : ∀ char ∈ string, Plain raw char) : Spells raw string string := by
  induction string with
  | nil => exact .nil
  | cons char rest ih =>
      obtain ⟨hchar, hrest⟩ := List.forall_mem_cons.mp hplain
      exact .plain hchar (ih hrest)

theorem Spells.of_append (hspells : Spells raw (front ++ behind) string)
    (hfront : '\\' ∉ front) : ∃ rest, string = front ++ rest ∧ Spells raw behind rest := by
  induction front generalizing string with
  | nil => exact ⟨string, rfl, hspells⟩
  | cons head tail ih =>
      generalize hwhole : head :: tail ++ behind = whole at hspells
      cases hspells with
      | nil => cases hwhole
      | plain hplain hrest =>
          obtain ⟨rfl, rfl⟩ := List.cons.inj hwhole
          obtain ⟨rest, rfl, hbehind⟩ := ih hrest fun h => hfront (List.mem_cons_of_mem _ h)
          exact ⟨rest, rfl, hbehind⟩
      | escape hescape hrest =>
          obtain ⟨rfl, _⟩ := List.cons.inj hwhole
          exact absurd List.mem_cons_self hfront

/-- No text is spelled by itself between two others. -/
theorem not_spells_between {before after : List Char} (hbefore : '\\' ∉ before)
    (hnonempty : before ≠ []) : ¬ Spells raw (before ++ (string ++ after)) string := by
  induction hlength : string.length using Nat.strong_induction_on generalizing string with
  | _ length ih =>
      intro hspells
      obtain ⟨rest, rfl, hrest⟩ := hspells.of_append hbefore
      have hpositive := List.length_pos_of_ne_nil hnonempty
      rw [List.length_append] at hlength
      rw [List.append_assoc] at hrest
      exact ih rest.length (by omega) rfl hrest

/-- Only a backslash lets a quote stand in a spelling. -/
theorem Spells.escaped_quote (hspells : Spells raw (front ++ '"' :: behind) string) :
    front.getLast? = some '\\' := by
  generalize hwhole : front ++ '"' :: behind = whole at hspells
  induction hspells generalizing front with
  | nil => cases front <;> cases hwhole
  | plain hplain hrest ih =>
      cases front with
      | nil =>
          cases hwhole
          exact absurd rfl hplain.quote
      | cons head tail =>
          obtain ⟨rfl, hrest⟩ := List.cons.inj hwhole
          rw [List.getLast?_cons, ih hrest]
          rfl
  | escape hescape hrest ih =>
      cases front with
      | nil => cases hwhole
      | cons head tail =>
          obtain ⟨rfl, hrest⟩ := List.cons.inj hwhole
          rcases List.append_eq_append_iff.mp hrest.symm with
            ⟨more, rfl, hmore⟩ | ⟨more, rfl, hmore⟩
          · have hlast := ih hmore.symm
            rw [List.getLast?_cons, List.getLast?_append, hlast]
            rfl
          · cases more with
            | nil =>
                have hlast := @ih [] hmore
                cases hlast
            | cons mark later =>
                obtain ⟨rfl, hlater⟩ := List.cons.inj hmore
                have heq := hescape.eq_of_mem (List.mem_append_right tail List.mem_cons_self)
                  rfl (by decide) (by decide)
                rcases List.append_eq_singleton_iff.mp heq with ⟨rfl, _⟩ | ⟨_, hnil⟩
                · rfl
                · cases hnil

theorem Spells.getLast? (hspells : Spells raw spelling string)
    (hlast : spelling.getLast? = some char) (hends : EndsNoEscape char) :
    string.getLast? = some char := by
  induction hspells with
  | nil => cases hlast
  | @plain head spelling string hplain hrest ih =>
      cases spelling with
      | nil =>
          cases hrest
          exact hlast
      | cons next others =>
          rw [List.getLast?_cons_cons] at hlast
          rw [List.getLast?_cons, ih hlast]
          rfl
  | @escape escape spelling string stands hescape hrest ih =>
      cases hspelling : spelling.getLast? with
      | none =>
          have hmem := List.mem_of_getLast? hlast
          rw [List.getLast?_eq_none_iff.mp hspelling, List.append_nil] at hmem
          rcases List.mem_cons.mp hmem with hback | hmem
          · exact absurd hback hends.ne
          · exact absurd hmem (hends.notMem hescape)
      | some other =>
          rw [List.getLast?_cons, List.getLast?_append, hspelling] at hlast
          rw [List.getLast?_cons, ih (hspelling.trans hlast)]
          rfl

end Spelling

/-! The text. -/

/-- Each string stands in quotes behind its gap. -/
def quotedText : List (List Char × List Char) → List Char → List Char
  | [], last => last
  | (gap, chars) :: rest, last => gap ++ '"' :: (chars ++ '"' :: quotedText rest last)

/-- Text between two strings. -/
structure Gap (gap : List Char) : Prop where
  clean : weight gap = 0
  mark : ∃ mark, lastMark gap = some mark
  ends : ∃ char, gap.getLast? = some char ∧ isOpener char = true

/-- Where the spelling of a string can be found in the text: it has no more backslashes than
one of the strings that were put in, and if that one has no quote it is this string from its
start on, maybe with its closing quote and the gap behind it. -/
def Located (pieces : List (List Char × List Char)) (front spelling : List Char) : Prop :=
  ∃ piece ∈ pieces, spelling.count '\\' ≤ piece.2.count '\\' ∧
    ('"' ∉ piece.2 → spelling.count '\\' = 0 ∨
      (∃ before, front = before ++ piece.1) ∧ (spelling = piece.2 ∨
        ∃ next, Gap next ∧ spelling = piece.2 ++ '"' :: next))

section Text

variable {raw : Char → Bool} {front behind spelling string next last : List Char}
  {pieces : List (List Char × List Char)}

/-- A quote that is not escaped stands in no spelling. -/
theorem split_at_quote {before after : List Char} (hspells : Spells raw spelling string)
    {char : Char} (hlast : before.getLast? = some char) (hchar : char ≠ '\\')
    (htext : before ++ '"' :: after = front ++ '"' :: (spelling ++ '"' :: behind)) :
    (∃ rest, before ++ ['"'] = front ++ '"' :: (spelling ++ '"' :: rest)) ∨
      ∃ more, front = before ++ more ∧
        '"' :: after = more ++ '"' :: (spelling ++ '"' :: behind) := by
  rcases append_cons_cases htext with ⟨rfl, _, hafter⟩ | ⟨more, rfl, hafter⟩ |
    ⟨middle, rfl, hbehind⟩
  · exact .inr ⟨[], (List.append_nil front).symm, by rw [List.nil_append, hafter]⟩
  · exact .inr ⟨'"' :: more, rfl, by rw [hafter, List.cons_append]⟩
  · rcases append_cons_cases hbehind with ⟨rfl, _, _⟩ | ⟨more, rfl, _⟩ | ⟨more, rfl, _⟩
    · exact .inl ⟨[], by simp⟩
    · exact .inl ⟨more ++ ['"'], by simp⟩
    · rw [List.getLast?_append, List.getLast?_cons, hspells.escaped_quote] at hlast
      cases hlast
      exact absurd rfl hchar

theorem split_at_gap {gap after : List Char} (hgap : '"' ∉ gap)
    (htext : gap ++ '"' :: after = front ++ '"' :: behind) :
    ∃ more, front = gap ++ more ∧ '"' :: after = more ++ '"' :: behind := by
  rcases append_cons_cases htext with ⟨rfl, _, hsame⟩ | ⟨middle, rfl, hsame⟩ | ⟨middle, rfl, _⟩
  · exact ⟨[], (List.append_nil front).symm, by rw [hsame, List.nil_append]⟩
  · exact ⟨'"' :: middle, rfl, by rw [hsame, List.cons_append]⟩
  · exact absurd (List.mem_append_right front List.mem_cons_self) hgap

/-- Between the quote that opens a string and the one that opens the next. -/
theorem located_in_region {tail : List Char} (hclean : weight next = 0)
    (htail : tail = [] ∨ tail = ['"'])
    (htext : '"' :: (string ++ '"' :: (next ++ tail)) =
      front ++ '"' :: (spelling ++ '"' :: behind)) :
    spelling.count '\\' ≤ string.count '\\' ∧
      ('"' ∉ string → spelling.count '\\' = 0 ∨
        front = [] ∧ (spelling = string ∨ tail = ['"'] ∧ spelling = string ++ '"' :: next)) := by
  have hunquoted : '"' ∉ next := not_mem_of_weight hclean rfl
  have hbacks : (next ++ tail).count '\\' = 0 := by
    rw [List.count_append, List.count_eq_zero.mpr (not_mem_of_weight hclean rfl)]
    rcases htail with rfl | rfl
    · rfl
    · rfl
  constructor
  · have hcount := congrArg (List.count '\\') htext
    simp only [List.count_append, List.count_cons, beq_iff_eq, Char.reduceEq, if_false,
      Nat.add_zero] at hcount hbacks
    omega
  intro hstring
  cases front with
  | nil =>
      rcases append_cons_cases (List.cons.inj htext).2 with
        ⟨rfl, _, _⟩ | ⟨middle, rfl, hnext⟩ | ⟨middle, rfl, _⟩
      · exact .inr ⟨rfl, .inl rfl⟩
      · rcases htail with rfl | rfl
        · rw [List.append_nil] at hnext
          rw [hnext] at hunquoted
          exact absurd (List.mem_append_right middle List.mem_cons_self) hunquoted
        · rcases append_cons_cases hnext with ⟨rfl, _, _⟩ | ⟨more, rfl, hmore⟩ | ⟨more, rfl, _⟩
          · exact .inr ⟨rfl, .inr ⟨rfl, rfl⟩⟩
          · cases more <;> cases hmore
          · exact absurd (List.mem_append_right middle List.mem_cons_self) hunquoted
      · exact absurd (List.mem_append_right spelling List.mem_cons_self) hstring
  | cons quote front =>
      refine .inl ?_
      rcases append_cons_cases (List.cons.inj htext).2 with
        ⟨rfl, _, hnext⟩ | ⟨middle, rfl, hnext⟩ | ⟨middle, rfl, _⟩
      · rw [hnext, List.count_append] at hbacks
        omega
      · rw [hnext, List.count_append, List.count_cons, List.count_append] at hbacks
        omega
      · exact absurd (List.mem_append_right front List.mem_cons_self) hstring

/-- By induction on the pieces; each gap ends with a character that keeps the next quote from
being escaped. -/
theorem located {front : List Char} (hgaps : ∀ piece ∈ pieces, Gap piece.1)
    (hlast : weight last = 0) (hspells : Spells raw spelling string)
    (htext : quotedText pieces last = front ++ '"' :: (spelling ++ '"' :: behind)) :
    Located pieces front spelling := by
  induction pieces generalizing front with
  | nil =>
      rw [quotedText] at htext
      refine absurd ?_ (not_mem_of_weight hlast (rfl : isSpecial '"' = true))
      rw [htext]
      exact List.mem_append_right front List.mem_cons_self
  | cons piece rest ih =>
      obtain ⟨gap, chars⟩ := piece
      obtain ⟨hgap, hrest⟩ := List.forall_mem_cons.mp hgaps
      obtain ⟨more, rfl, hregion⟩ := split_at_gap (not_mem_of_weight hgap.clean rfl) htext
      cases rest with
      | nil =>
          have hlocated := @located_in_region more behind spelling chars last []
            hlast (.inl rfl) (by rw [List.append_nil]; exact hregion)
          refine ⟨(gap, chars), List.mem_cons_self, hlocated.1, fun hchars => ?_⟩
          rcases hlocated.2 hchars with hzero | ⟨rfl, hsame | ⟨hnone, _⟩⟩
          · exact .inl hzero
          · exact .inr ⟨⟨[], List.append_nil gap⟩, .inl hsame⟩
          · cases hnone
      | cons following others =>
          obtain ⟨next, nextChars⟩ := following
          have hnext := (List.forall_mem_cons.mp hrest).1
          obtain ⟨char, hnextLast, hends⟩ := hnext.ends
          have hlastRegion : ('"' :: (chars ++ '"' :: next)).getLast? = some char := by
            rw [List.getLast?_cons, List.getLast?_append, List.getLast?_cons, hnextLast]
            rfl
          have hsplit : ('"' :: (chars ++ '"' :: next)) ++
              '"' :: (nextChars ++ '"' :: quotedText others last) =
                more ++ '"' :: (spelling ++ '"' :: behind) := by
            rw [← hregion, quotedText]
            simp
          rcases split_at_quote hspells hlastRegion
            (endsNoEscape_of_isOpener hends).ne hsplit with
            ⟨after, hinside⟩ | ⟨beyond, rfl, hbeyond⟩
          · have hlocated := @located_in_region more after spelling chars next ['"']
              hnext.clean (.inr rfl) (by rw [← hinside]; simp)
            refine ⟨(gap, chars), List.mem_cons_self, hlocated.1, fun hchars => ?_⟩
            rcases hlocated.2 hchars with hzero | ⟨rfl, hsame | ⟨_, hsame⟩⟩
            · exact .inl hzero
            · exact .inr ⟨⟨[], List.append_nil gap⟩, .inl hsame⟩
            · exact .inr ⟨⟨[], List.append_nil gap⟩, .inr ⟨next, hnext, hsame⟩⟩
          · have hinner : quotedText ((next, nextChars) :: others) last =
                (next ++ beyond) ++ '"' :: (spelling ++ '"' :: behind) := by
              rw [quotedText, hbeyond, List.append_assoc]
            obtain ⟨piece, hpiece, hcount, hplace⟩ := ih hrest hinner
            refine ⟨piece, List.mem_cons_of_mem _ hpiece, hcount, fun hchars => ?_⟩
            rcases hplace hchars with hzero | ⟨⟨before, hbefore⟩, hsame⟩
            · exact .inl hzero
            · refine .inr ⟨⟨gap ++ '"' :: (chars ++ '"' :: before), ?_⟩, hsame⟩
              have hassoc : gap ++ (('"' :: (chars ++ '"' :: next)) ++ beyond) =
                  gap ++ '"' :: (chars ++ '"' :: (next ++ beyond)) := by
                simp
              rw [hassoc, hbefore]
              simp

theorem Gap.lastMark_eq {gap before : List Char} {mark : Char} (hgap : Gap gap)
    (hmark : lastMark (before ++ gap) = some mark) : lastMark gap = some mark := by
  obtain ⟨other, hother⟩ := hgap.mark
  rw [lastMark_append hother] at hmark
  rw [hother, hmark]

/-- A text of pieces that a reader could misread only where a string was put in. -/
structure Framed (pieces : List (List Char × List Char)) (last : List Char) : Prop where
  gaps : ∀ piece ∈ pieces, Gap piece.1
  clean : weight last = 0

theorem StandsBehind.located {mark : Char} (hframed : Framed pieces last)
    (hstands : StandsBehind raw mark (quotedText pieces last) string) :
    ∃ piece ∈ pieces, ∃ spelling, Spells raw spelling string ∧
      spelling.count '\\' ≤ piece.2.count '\\' ∧
      ('"' ∉ piece.2 → spelling.count '\\' = 0 ∨ lastMark piece.1 = some mark ∧
        (spelling = piece.2 ∨ ∃ next, Gap next ∧ spelling = piece.2 ++ '"' :: next)) := by
  obtain ⟨front, spelling, behind, htext, hmark, hspells⟩ := hstands
  obtain ⟨piece, hpiece, hcount, hplace⟩ :=
    Json.located hframed.gaps hframed.clean hspells htext
  refine ⟨piece, hpiece, spelling, hspells, hcount, fun hquote => ?_⟩
  rcases hplace hquote with hzero | ⟨⟨before, rfl⟩, hsame⟩
  · exact .inl hzero
  · exact .inr ⟨(hframed.gaps piece hpiece).lastMark_eq hmark, hsame⟩

/-! How heavy the strings are. -/

theorem count_le_weight (text : List Char) :
    text.count '\\' + text.count '"' ≤ weight text := by
  induction text with
  | nil => exact Nat.le_refl 0
  | cons char rest ih =>
      rw [weight] at ih
      rw [weight, List.countP_cons, List.count_cons, List.count_cons]
      by_cases hback : char = '\\'
      · subst hback
        simp [isSpecial]
        omega
      · by_cases hquote : char = '"'
        · subst hquote
          simp [isSpecial]
          omega
        · simp [hback, hquote]
          omega

/-- What is seen of a string up to its first NUL has the weight of all of it only if this is
all of it. -/
theorem eq_of_weight_takeWhile
    (hweight : weight string ≤ weight (string.takeWhile fun char => char != '\x00')) :
    string.takeWhile (fun char => char != '\x00') = string := by
  have happend : string.takeWhile (fun char => char != '\x00') ++
      string.dropWhile (fun char => char != '\x00') = string :=
    List.takeWhile_append_dropWhile
  cases hdrop : string.dropWhile fun char => char != '\x00' with
  | nil =>
      rw [hdrop, List.append_nil] at happend
      exact happend
  | cons char rest =>
      have hhead := List.head?_dropWhile_not (fun char => char != '\x00') string
      rw [hdrop] at hhead
      have hnul : char = '\x00' := by simpa using hhead
      have hsum := congrArg weight happend
      have hrest : weight ('\x00' :: rest) = weight rest + 1 := List.countP_cons_of_pos rfl
      rw [weight_append, hdrop, hnul, hrest] at hsum
      omega

/-- A heaviest string is spelled from the start of one that was put in. -/
theorem StandsBehind.producer {mark : Char} {limit : Nat} {shown : List Char}
    (hnul : raw '\x00' = false) (hframed : Framed pieces last)
    (hlimit : ∀ piece ∈ pieces, weight piece.2 ≤ limit) (hpositive : 0 < limit)
    (hshown : string.takeWhile (fun char => char != '\x00') = shown)
    (hweight : weight shown = limit)
    (hstands : StandsBehind raw mark (quotedText pieces last) string) :
    ∃ piece ∈ pieces, lastMark piece.1 = some mark ∧ weight piece.2 = limit ∧
      '\\' ∈ piece.2 ∧ (Spells raw piece.2 shown ∨ piece.2.getLast? = some '\\' ∧
        ∃ char, isOpener char = true ∧ shown.getLast? = some char) := by
  subst hshown
  obtain ⟨piece, hpiece, spelling, hspells, hcount, hplace⟩ := hstands.located hframed
  have hspelling := hspells.weight_le hnul
  have hheavy := hlimit piece hpiece
  have hpieceCount := count_le_weight piece.2
  have hshown := eq_of_weight_takeWhile (by omega : weight string ≤ _)
  rw [hshown] at hweight ⊢
  have hquotes : piece.2.count '"' = 0 := by omega
  rcases hplace (List.count_eq_zero.mp hquotes) with hzero | ⟨hmark, hsame⟩
  · omega
  · refine ⟨piece, hpiece, hmark, by omega, List.count_pos_iff.mp (by omega), ?_⟩
    rcases hsame with rfl | ⟨next, hnext, rfl⟩
    · exact .inl hspells
    · obtain ⟨char, hlast, hends⟩ := hnext.ends
      refine .inr ⟨hspells.escaped_quote, char, hends,
        hspells.getLast? ?_ (endsNoEscape_of_isOpener hends)⟩
      rw [List.getLast?_append, List.getLast?_cons, hlast]
      rfl

/-- Where no string has a special character, those that are found are plain. -/
theorem StandsBehind.plain {mark : Char} (hframed : Framed pieces last)
    (hlight : ∀ piece ∈ pieces, weight piece.2 = 0)
    (hstands : StandsBehind raw mark (quotedText pieces last) string) :
    ∀ char ∈ string, Plain raw char := by
  obtain ⟨piece, hpiece, spelling, hspells, hcount, _⟩ := hstands.located hframed
  have hpieceCount := count_le_weight piece.2
  have hzero := hlight piece hpiece
  have hnone : spelling.count '\\' = 0 := by omega
  exact (hspells.eq_of_not_mem (List.count_eq_zero.mp hnone)).2

theorem nul_not_mem_quotedText (hframed : Framed pieces last)
    (hstrings : ∀ piece ∈ pieces, '\x00' ∉ piece.2) : '\x00' ∉ quotedText pieces last := by
  obtain ⟨hgaps, hlast⟩ := hframed
  induction pieces with
  | nil => exact not_mem_of_weight hlast rfl
  | cons piece rest ih =>
      obtain ⟨hgap, hrestGaps⟩ := List.forall_mem_cons.mp hgaps
      obtain ⟨hstring, hrestStrings⟩ := List.forall_mem_cons.mp hstrings
      rw [quotedText]
      refine List.not_mem_append (not_mem_of_weight hgap.clean rfl)
        (List.not_mem_cons_of_ne_of_not_mem (by decide) (List.not_mem_append hstring ?_))
      exact List.not_mem_cons_of_ne_of_not_mem (by decide) (ih hrestStrings hrestGaps)

end Text

end Json

end Hitrace.Library
