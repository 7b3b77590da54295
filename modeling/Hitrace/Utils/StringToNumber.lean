import Hitrace.Library.Numeral
import Hitrace.Utils.ScanNumber

namespace Hitrace

open Library

/-! The numeric texts of `common_utils.cpp`, over `strtol`, `strtoll` and `strtoull`
with a `long` of 64 bits. -/

namespace StringToNumber

/-- What a conversion returns and sets. A pointer into the text is given by what is
left of the text there. -/
structure Conversion (α : Type) where
  num : α
  endPtr : List Char
  errno : Nat
deriving Repr, DecidableEq

def erange : Nat := 34

section Convert

variable {α : Type}

/-- `represent` is the number of the result type for a sign and a magnitude, and the
error. -/
def convert (zero : α) (represent : Sign → Nat → α × Nat) (str : List Char) :
    Conversion α :=
  let text := cString str
  let subject := subjectSequence isSpace text
  if subject.digits = [] then { num := zero, endPtr := text, errno := 0 }
  else
    let (num, errno) := represent subject.sign (Decimal.value subject.digits)
    { num, endPtr := subject.rest, errno }

/-- The first three tests of each function. -/
def failed (str : List Char) (conversion : Conversion α) : Bool :=
  conversion.endPtr == cString str || conversion.endPtr.headD '\x00' != '\x00' ||
    conversion.errno != 0

end Convert

def signedNumber (sign : Sign) (magnitude : Nat) : Int64 × Nat :=
  let value := sign.apply magnitude
  if Int64.maxValue.toInt < value then (Int64.maxValue, erange)
  else if value < Int64.minValue.toInt then (Int64.minValue, erange)
  else (Int64.ofInt value, 0)

def ullongMax : UInt64 := -1

/-- A minus negates the magnitude in the unsigned type. -/
def unsignedNumber (sign : Sign) (magnitude : Nat) : UInt64 × Nat :=
  if ullongMax.toNat < magnitude then (ullongMax, erange)
  else if sign = .minus then (-UInt64.ofNat magnitude, 0)
  else (UInt64.ofNat magnitude, 0)

def strtol : List Char → Conversion Int64 :=
  convert 0 signedNumber

def strtoll : List Char → Conversion Int64 :=
  convert 0 signedNumber

def strtoull : List Char → Conversion UInt64 :=
  convert 0 unsignedNumber

/-! Each function gives its result and `val` afterwards. -/

def stringToInt (str : List Char) (val : Int32) : Bool × Int32 :=
  let conversion := strtol str
  if failed str conversion || decide (conversion.num > Int32.maxValue.toInt64) ||
      decide (conversion.num < Int32.minValue.toInt64) then (false, val)
  else (true, conversion.num.toInt32)

def stringToInt64 (str : List Char) (val : Int64) : Bool × Int64 :=
  let conversion := strtoll str
  if failed str conversion || decide (conversion.num > Int64.maxValue) ||
      decide (conversion.num < Int64.minValue) then (false, val)
  else (true, conversion.num)

def stringToUint64 (str : List Char) (val : UInt64) : Bool × UInt64 :=
  let conversion := strtoull str
  if failed str conversion || decide (conversion.num > ullongMax) ||
      (cString str).headD '\x00' == '-' then (false, val)
  else (true, conversion.num)

/-- A text is accepted when it is a numeral of the range, and its value is stored then
and only then. -/
structure Exact {α : Type} (toInt : α → Int) (low high : Int) (str : List Char) (val : α)
    (result : Bool × α) : Prop where
  accepted : result.1 = true ↔ ∃ numeral : Numeral isSpace, numeral.text = str ∧
    low ≤ numeral.value ∧ numeral.value ≤ high
  stored : ∀ numeral : Numeral isSpace, numeral.text = str → result.1 = true →
    toInt result.2 = numeral.value
  unchanged : result.1 = false → result.2 = val

/-- A minus behind white space with a magnitude that fits and is not zero, or a zero
whose first character is the minus. -/
def Misread (str : List Char) : Prop :=
  ∃ numeral : Numeral isSpace, numeral.text = str ∧ numeral.sign = .minus ∧
    (numeral.blanks ≠ [] ∧ 0 < numeral.magnitude ∧ numeral.magnitude ≤ ullongMax.toNat ∨
      numeral.blanks = [] ∧ numeral.magnitude = 0)

theorem separate_isSpace : Separate isSpace where
  digit := fun _ hdigit => isSpace_of_isDigit hdigit
  plus := by decide
  minus := by decide

section Conversions

variable {α : Type} {zero : α} {represent : Sign → Nat → α × Nat} {str : List Char}

theorem cString_eq_self (hnul : '\x00' ∉ str) : cString str = str := by
  apply List.takeWhile_eq_self_iff.mpr
  intro char hmem
  simp only [bne_iff_ne, ne_eq]
  rintro rfl
  exact hnul hmem

/-- The conversion of a numeral passes it to its end. -/
theorem convert_text (numeral : Numeral isSpace) (hnul : '\x00' ∉ numeral.text) :
    convert zero represent numeral.text =
      { num := (represent numeral.sign numeral.magnitude).1
        endPtr := []
        errno := (represent numeral.sign numeral.magnitude).2 } := by
  rw [convert, cString_eq_self hnul]
  simp only [numeral.subjectSequence_text separate_isSpace, numeral.digits_ne_nil,
    if_false]
  rfl

theorem text_ne_nil (numeral : Numeral isSpace) : numeral.text ≠ [] := by
  intro hnil
  simp only [Numeral.text, List.append_eq_nil_iff] at hnil
  exact numeral.digits_ne_nil hnil.2.2

/-- A text that passes the tests on `endPtr` is a numeral. -/
theorem exists_numeral (hnul : '\x00' ∉ str)
    (hpassed : failed str (convert zero represent str) = false) :
    ∃ numeral : Numeral isSpace, numeral.text = str := by
  simp only [failed, Bool.or_eq_false_iff, beq_eq_false_iff_ne, bne_eq_false_iff_eq] at hpassed
  obtain ⟨⟨hmoved, hend⟩, _⟩ := hpassed
  by_cases hdigits : (subjectSequence isSpace (cString str)).digits = []
  · rw [convert] at hmoved
    simp only [hdigits, if_true] at hmoved
    exact absurd rfl hmoved
  · rw [convert] at hend
    simp only [hdigits, if_false] at hend
    rw [cString_eq_self hnul] at hdigits hend
    refine ⟨Numeral.ofSubject hdigits, Numeral.text_ofSubject hdigits ?_⟩
    cases hrest : (subjectSequence isSpace str).rest with
    | nil => rfl
    | cons head tail =>
        have hmem : head ∈ str := by
          apply @mem_of_mem_rest isSpace
          simp [hrest]
        rw [hrest, List.headD_cons] at hend
        rw [hend] at hmem
        exact absurd hmem hnul

theorem failed_convert_text (numeral : Numeral isSpace) (hnul : '\x00' ∉ numeral.text) :
    failed numeral.text (convert zero represent numeral.text) = false ↔
      (represent numeral.sign numeral.magnitude).2 = 0 := by
  have hmoved : ([] == numeral.text) = false := by
    apply beq_eq_false_iff_ne.mpr
    exact (text_ne_nil numeral).symm
  rw [failed, convert_text numeral hnul, cString_eq_self hnul, hmoved]
  simp

/-- A result is exact when it is so on every numeral. -/
theorem exact_of_numerals {toInt : α → Int} {low high : Int} {val num : α} {rejected : Bool}
    (hnumeral : rejected = false → ∃ numeral : Numeral isSpace, numeral.text = str)
    (haccepted : ∀ numeral : Numeral isSpace, numeral.text = str →
      (rejected = false ↔ low ≤ numeral.value ∧ numeral.value ≤ high))
    (hstored : ∀ numeral : Numeral isSpace, numeral.text = str → rejected = false →
      toInt num = numeral.value) :
    Exact toInt low high str val (if rejected then (false, val) else (true, num)) := by
  cases rejected with
  | true =>
      refine ⟨⟨fun hfalse => absurd hfalse Bool.false_ne_true, ?_⟩, ?_,
        fun _ => rfl⟩
      · rintro ⟨numeral, htext, hrange⟩
        exact absurd ((haccepted numeral htext).mpr hrange).symm Bool.false_ne_true
      · intro _ _ hfalse
        exact absurd hfalse Bool.false_ne_true
  | false =>
      refine ⟨⟨fun _ => ?_, fun _ => rfl⟩, ?_,
        fun hfalse => absurd hfalse.symm Bool.false_ne_true⟩
      · obtain ⟨numeral, htext⟩ := hnumeral rfl
        exact ⟨numeral, htext, (haccepted numeral htext).mp rfl⟩
      · intro numeral htext _
        exact hstored numeral htext rfl

end Conversions

section Signed

variable {sign : Sign} {magnitude : Nat}

theorem signedNumber_error : (signedNumber sign magnitude).2 = 0 ↔
    -2 ^ 63 ≤ sign.apply magnitude ∧ sign.apply magnitude < 2 ^ 63 := by
  have hmax := Int64.toInt_maxValue
  have hmin := Int64.toInt_minValue
  simp only [signedNumber]
  split
  · simp only [erange]
    omega
  · split
    · simp only [erange]
      omega
    · simp only [true_iff]
      omega

theorem toInt_signedNumber (herror : (signedNumber sign magnitude).2 = 0) :
    (signedNumber sign magnitude).1.toInt = sign.apply magnitude := by
  obtain ⟨hlow, hhigh⟩ := signedNumber_error.mp herror
  have hmax := Int64.toInt_maxValue
  have hmin := Int64.toInt_minValue
  simp only [signedNumber]
  rw [if_neg (by omega), if_neg (by omega)]
  exact Int64.toInt_ofInt_of_le hlow hhigh

end Signed

theorem stringToInt64_exact {str : List Char} (hnul : '\x00' ∉ str) (val : Int64) :
    Exact Int64.toInt (-2 ^ 63) (2 ^ 63 - 1) str val (stringToInt64 str val) := by
  have hhigh (num : Int64) : decide (num > Int64.maxValue) = false := by
    simp only [gt_iff_lt, Int64.lt_iff_toInt_lt, decide_eq_false_iff_not, Int.not_lt]
    exact num.toInt_le
  have hlow (num : Int64) : decide (num < Int64.minValue) = false := by
    simp only [Int64.lt_iff_toInt_lt, decide_eq_false_iff_not, Int.not_lt]
    exact num.minValue_le_toInt
  simp only [stringToInt64, hhigh, hlow, Bool.or_false]
  apply exact_of_numerals
  · intro hpassed
    exact exists_numeral hnul hpassed
  · rintro numeral rfl
    rw [strtoll, failed_convert_text numeral hnul, signedNumber_error]
    exact and_congr_right fun _ => (Int.le_sub_one_iff).symm
  · rintro numeral rfl hpassed
    rw [strtoll, failed_convert_text numeral hnul] at hpassed
    rw [strtoll, convert_text numeral hnul]
    exact toInt_signedNumber hpassed

/-- The two tests on `num` cut the range of `long` down to that of `int`. -/
theorem int_accepted (numeral : Numeral isSpace) (hnul : '\x00' ∉ numeral.text) :
    (failed numeral.text (strtol numeral.text) ||
      decide ((strtol numeral.text).num > Int32.maxValue.toInt64) ||
      decide ((strtol numeral.text).num < Int32.minValue.toInt64)) = false ↔
      -2 ^ 31 ≤ numeral.value ∧ numeral.value ≤ 2 ^ 31 - 1 := by
  have hmax : Int32.maxValue.toInt64.toInt = 2 ^ 31 - 1 := rfl
  have hmin : Int32.minValue.toInt64.toInt = -2 ^ 31 := rfl
  simp only [strtol, Bool.or_eq_false_iff, failed_convert_text numeral hnul]
  simp only [decide_eq_false_iff_not, gt_iff_lt, Int64.lt_iff_toInt_lt, Int.not_lt,
    convert_text numeral hnul, hmax, hmin]
  constructor
  · rintro ⟨⟨herror, hhigh⟩, hlow⟩
    rw [toInt_signedNumber herror] at hhigh hlow
    exact ⟨hlow, hhigh⟩
  · rintro ⟨hlow, hhigh⟩
    rw [Numeral.value] at hlow hhigh
    have herror : (signedNumber numeral.sign numeral.magnitude).2 = 0 := by
      apply signedNumber_error.mpr
      omega
    rw [toInt_signedNumber herror]
    exact ⟨⟨herror, hhigh⟩, hlow⟩

theorem stringToInt_exact {str : List Char} (hnul : '\x00' ∉ str) (val : Int32) :
    Exact Int32.toInt (-2 ^ 31) (2 ^ 31 - 1) str val (stringToInt str val) := by
  apply exact_of_numerals
  · intro hpassed
    simp only [Bool.or_eq_false_iff] at hpassed
    exact exists_numeral hnul hpassed.1.1
  · rintro numeral rfl
    exact int_accepted numeral hnul
  · rintro numeral rfl hpassed
    obtain ⟨hlow, hhigh⟩ := (int_accepted numeral hnul).mp hpassed
    have herror : (signedNumber numeral.sign numeral.magnitude).2 = 0 := by
      apply signedNumber_error.mpr
      rw [Numeral.value] at hlow hhigh
      omega
    have hvalue : _ = numeral.value := toInt_signedNumber herror
    rw [strtol, convert_text numeral hnul, Int64.toInt_toInt32, hvalue]
    apply Int.bmod_eq_of_le <;> omega

section Unsigned

variable {sign : Sign} {magnitude : Nat}

theorem unsignedNumber_error :
    (unsignedNumber sign magnitude).2 = 0 ↔ magnitude ≤ ullongMax.toNat := by
  rw [unsignedNumber]
  split
  · next hlarge =>
      simp only [erange]
      omega
  · next hfits =>
      split <;> simpa using hfits

theorem toNat_unsignedNumber (hfits : magnitude ≤ ullongMax.toNat)
    (hplain : sign = .minus → magnitude = 0) :
    (unsignedNumber sign magnitude).1.toNat = magnitude := by
  have hsmall : magnitude < 2 ^ 64 := Nat.lt_of_le_of_lt hfits (by decide)
  rw [unsignedNumber, if_neg (Nat.not_lt.mpr hfits)]
  split
  · next hminus =>
      rw [hplain hminus]
      rfl
  · exact UInt64.toNat_ofNat_of_lt hsmall

end Unsigned

section Uint64

variable {str : List Char}

theorem head_ne_minus (numeral : Numeral isSpace) :
    (numeral.text.headD '\x00' == '-') = false ↔
      ¬ (numeral.blanks = [] ∧ numeral.sign = .minus) := by
  rw [← numeral.head_text separate_isSpace, beq_eq_false_iff_ne, not_iff_not]
  cases numeral.text with
  | nil => simp
  | cons head tail => simp

/-- What is accepted: a magnitude that fits, unless a minus comes first. -/
theorem uint64_accepted (numeral : Numeral isSpace) (hnul : '\x00' ∉ numeral.text) :
    (failed numeral.text (strtoull numeral.text) ||
      decide ((strtoull numeral.text).num > ullongMax) ||
      (cString numeral.text).headD '\x00' == '-') = false ↔
      numeral.magnitude ≤ ullongMax.toNat ∧
        ¬ (numeral.blanks = [] ∧ numeral.sign = .minus) := by
  have hhigh : decide ((strtoull numeral.text).num > ullongMax) = false := by
    simp only [gt_iff_lt, UInt64.lt_iff_toNat_lt, decide_eq_false_iff_not, Nat.not_lt]
    exact Nat.le_of_lt_succ (strtoull numeral.text).num.toNat_lt
  rw [hhigh, Bool.or_false, Bool.or_eq_false_iff, strtoull, cString_eq_self hnul,
    failed_convert_text numeral hnul, unsignedNumber_error, head_ne_minus]

theorem value_minus {numeral : Numeral isSpace} (hminus : numeral.sign = .minus) :
    numeral.value = -(numeral.magnitude : Int) := by
  rw [Numeral.value, hminus]
  rfl

theorem value_unsigned {numeral : Numeral isSpace} (hplain : numeral.sign ≠ .minus) :
    numeral.value = numeral.magnitude := by
  rw [Numeral.value]
  cases hsign : numeral.sign with
  | minus => exact absurd hsign hplain
  | plus => rfl
  | none => rfl

/-- Without the two misread kinds, a minus that is accepted stands before a zero. -/
theorem magnitude_eq_zero {numeral : Numeral isSpace} (hread : ¬ Misread numeral.text)
    (hminus : numeral.sign = .minus) (hfits : numeral.magnitude ≤ ullongMax.toNat)
    (hblanks : numeral.blanks ≠ []) : numeral.magnitude = 0 := by
  apply Nat.eq_zero_of_not_pos
  intro hpos
  exact hread ⟨numeral, rfl, hminus, .inl ⟨hblanks, hpos, hfits⟩⟩

theorem uint64_accepted_iff {numeral : Numeral isSpace} (hread : ¬ Misread numeral.text) :
    (numeral.magnitude ≤ ullongMax.toNat ∧
      ¬ (numeral.blanks = [] ∧ numeral.sign = .minus)) ↔
      0 ≤ numeral.value ∧ numeral.value ≤ 2 ^ 64 - 1 := by
  have hmax : ullongMax.toNat = 2 ^ 64 - 1 := rfl
  by_cases hminus : numeral.sign = .minus
  · rw [value_minus hminus]
    constructor
    · rintro ⟨hfits, hfirst⟩
      have hzero := magnitude_eq_zero hread hminus hfits fun hblanks =>
        hfirst ⟨hblanks, hminus⟩
      omega
    · rintro ⟨hlow, _⟩
      have hzero : numeral.magnitude = 0 := by omega
      refine ⟨by omega, ?_⟩
      rintro ⟨hblanks, _⟩
      exact hread ⟨numeral, rfl, hminus, .inr ⟨hblanks, hzero⟩⟩
  · rw [value_unsigned hminus]
    simp only [hminus, and_false, not_false_iff, and_true]
    omega

theorem stringToUint64_exact (hnul : '\x00' ∉ str) (hread : ¬ Misread str) (val : UInt64) :
    Exact (fun num => num.toNat) 0 (2 ^ 64 - 1) str val (stringToUint64 str val) := by
  apply exact_of_numerals
  · intro hpassed
    simp only [Bool.or_eq_false_iff] at hpassed
    exact exists_numeral hnul hpassed.1.1
  · rintro numeral rfl
    exact (uint64_accepted numeral hnul).trans (uint64_accepted_iff hread)
  · rintro numeral rfl hpassed
    have haccepted := (uint64_accepted numeral hnul).mp hpassed
    have hrange := (uint64_accepted_iff hread).mp haccepted
    have hplain (hminus : numeral.sign = .minus) : numeral.magnitude = 0 := by
      rw [value_minus hminus] at hrange
      omega
    rw [strtoull, convert_text numeral hnul, toNat_unsignedNumber haccepted.1 hplain]
    by_cases hminus : numeral.sign = .minus
    · rw [value_minus hminus, hplain hminus]
      rfl
    · exact (value_unsigned hminus).symm

theorem stringToUint64_text (numeral : Numeral isSpace) (hnul : '\x00' ∉ numeral.text)
    (val : UInt64) : (stringToUint64 numeral.text val).1 = true ↔
      numeral.magnitude ≤ ullongMax.toNat ∧
        ¬ (numeral.blanks = [] ∧ numeral.sign = .minus) := by
  rw [← uint64_accepted numeral hnul, stringToUint64]
  split
  · next hrejected =>
      rw [hrejected]
      simp
  · next hpassed => simpa using hpassed

/-- On both kinds the result and the value disagree. -/
theorem not_exact_of_misread (hnul : '\x00' ∉ str) (hread : Misread str) (val : UInt64) :
    ¬ Exact (fun num => num.toNat) 0 (2 ^ 64 - 1) str val (stringToUint64 str val) := by
  intro hexact
  obtain ⟨numeral, rfl, hminus, hcase⟩ := hread
  have hvalue := value_minus hminus
  rcases hcase with ⟨hblanks, hpos, hfits⟩ | ⟨hblanks, hzero⟩
  · have haccepted := (stringToUint64_text numeral hnul val).mpr
      ⟨hfits, fun hfirst => hblanks hfirst.1⟩
    obtain ⟨other, htext, hlow, _⟩ := hexact.accepted.mp haccepted
    rw [other.value_eq_of_text_eq separate_isSpace htext, hvalue] at hlow
    omega
  · have haccepted := hexact.accepted.mpr ⟨numeral, rfl, by omega, by omega⟩
    exact ((stringToUint64_text numeral hnul val).mp haccepted).2 ⟨hblanks, hminus⟩

end Uint64

/-- `StringToInt` and `StringToInt64` are exact on every text. `StringToUint64` looks for
the minus in front of the white space only. -/
theorem string_to_number_iff (str : List Char) (hnul : '\x00' ∉ str) (valInt : Int32)
    (valInt64 : Int64) (valUint64 : UInt64) :
    Exact Int32.toInt (-2 ^ 31) (2 ^ 31 - 1) str valInt (stringToInt str valInt) ∧
      Exact Int64.toInt (-2 ^ 63) (2 ^ 63 - 1) str valInt64 (stringToInt64 str valInt64) ∧
      (Exact (fun num => num.toNat) 0 (2 ^ 64 - 1) str valUint64
        (stringToUint64 str valUint64) ↔ ¬ Misread str) := by
  refine ⟨stringToInt_exact hnul valInt, stringToInt64_exact hnul valInt64, ?_⟩
  constructor
  · intro hexact hread
    exact not_exact_of_misread hnul hread valUint64 hexact
  · intro hread
    exact stringToUint64_exact hnul hread valUint64

theorem string_to_number_iff_blank :
    Exact Int32.toInt (-2 ^ 31) (2 ^ 31 - 1) [' ', '-', '5'] 7
        (stringToInt [' ', '-', '5'] 7) ∧
      Exact Int64.toInt (-2 ^ 63) (2 ^ 63 - 1) [' ', '-', '5'] 7
        (stringToInt64 [' ', '-', '5'] 7) ∧
      Exact (fun num => num.toNat) 0 (2 ^ 64 - 1) [' ', '+', '5'] 7
        (stringToUint64 [' ', '+', '5'] 7) := by
  obtain ⟨hint, hint64, _⟩ := string_to_number_iff [' ', '-', '5'] (by decide) 7 7 7
  refine ⟨hint, hint64, (string_to_number_iff [' ', '+', '5'] (by decide) 7 7 7).2.2.mpr ?_⟩
  rintro ⟨numeral, htext, hminus, _⟩
  have hmem : '-' ∈ numeral.text := by
    simp [Numeral.text, hminus, Sign.text]
  rw [htext] at hmem
  exact absurd hmem (by decide)

/-- A blank hides the minus. -/
theorem blank_hides_the_minus :
    stringToUint64 [' ', '-', '5'] 7 = (true, 18446744073709551611) ∧
      ¬ Exact (fun num => num.toNat) 0 (2 ^ 64 - 1) [' ', '-', '5'] 7
        (stringToUint64 [' ', '-', '5'] 7) := by
  refine ⟨by decide, ?_⟩
  apply not_exact_of_misread (by decide)
  refine ⟨⟨[' '], .minus, ['5'], List.all_eq_true.mp rfl, List.all_eq_true.mp rfl, by decide⟩,
    rfl, rfl, .inl ?_⟩
  decide

end StringToNumber

end Hitrace
