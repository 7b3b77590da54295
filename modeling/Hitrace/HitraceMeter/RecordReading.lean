import Hitrace.HitraceMeter.MarkerRecord
import Hitrace.Library.Delimited

namespace Hitrace.MarkerRecord

open Library AppTrace HitraceMeter

/-! What a record in `trace_marker` tells of its marker: two markers have the same record
if and only if they agree in what their type records. -/

def bar : UInt8 := 124

/-- The fields of a record; those that its type leaves out are empty. -/
structure Reading where
  type : MarkerType
  pid : Int32
  level : HiTraceOutputLevel
  tagBits : List UInt8
  chain : Option (BitVec 60 × BitVec 26 × BitVec 26) := none
  name : List UInt8 := []
  value : Int64 := 0
  customCategory : List UInt8 := []
  customArgs : List UInt8 := []
deriving Repr, DecidableEq

def chainOf (hiTraceId : HiTraceIdStruct) : Option (BitVec 60 × BitVec 26 × BitVec 26) :=
  if hiTraceId.isValid = true then
    some (hiTraceId.chainId, hiTraceId.spanId, hiTraceId.parentSpanId)
  else none

def reading (marker : RecordMarker) : Reading :=
  let ending : Reading :=
    { type := marker.type
      pid := marker.pid
      level := marker.level
      tagBits := parseTagBits marker.tag }
  let named := { ending with chain := chainOf marker.hiTraceId, name := marker.name }
  match marker.type with
  | .end => ending
  | .begin => { named with customArgs := marker.customArgs }
  | .asyncBegin =>
      { named with
        value := marker.value
        customCategory := marker.customCategory
        customArgs := marker.customArgs }
  | _ => { named with value := marker.value }

/-- No bar is inside of a field that is not the last one, and no name begins like the text
of a chain id. -/
structure Plain (name customCategory : List UInt8) : Prop where
  barless : bar ∉ name
  start : name.head? ≠ some 91
  category : bar ∉ customCategory

instance (name customCategory : List UInt8) : Decidable (Plain name customCategory) :=
  decidable_of_iff (bar ∉ name ∧ name.head? ≠ some 91 ∧ bar ∉ customCategory)
    ⟨fun ⟨hname, hstart, hcategory⟩ => ⟨hname, hstart, hcategory⟩,
      fun hplain => ⟨hplain.barless, hplain.start, hplain.category⟩⟩

/-! Numbers. -/

/-- The byte of a digit below 16. -/
def digitByte (digit : Nat) : UInt8 :=
  UInt8.ofNat (Nat.digitChar digit).toNat

theorem digitByte_inj {digits others : List Nat} (hsmall : ∀ digit ∈ digits, digit < 16)
    (hothers : ∀ digit ∈ others, digit < 16)
    (hbytes : digits.map digitByte = others.map digitByte) : digits = others := by
  have hdigit : ∀ digit < 16, ∀ other < 16, digitByte digit = digitByte other →
      digit = other := by decide
  induction digits generalizing others with
  | nil => exact (List.map_eq_nil_iff.mp hbytes.symm).symm
  | cons digit rest ih =>
      cases others with
      | nil => exact nomatch hbytes
      | cons other more =>
          rw [List.forall_mem_cons] at hsmall hothers
          rw [List.map_cons, List.map_cons, List.cons.injEq] at hbytes
          rw [hdigit digit hsmall.1 other hothers.1 hbytes.1,
            ih hsmall.2 hothers.2 hbytes.2]

theorem isNumeral_exists {base : Nat} (hbase : 1 < base) (value : Nat) :
    ∃ digits, IsNumeral base value digits := by
  by_cases hvalue : value = 0
  · exact ⟨[0], hvalue ▸ .zero (Nat.zero_lt_of_lt hbase)⟩
  · exact ⟨_, .of_ne_zero hbase hvalue⟩

/-- The text of a number in base 10 or 16 is made of digits and determines it. -/
theorem toDigits_bytes {base : Nat} (hbase : 1 < base) (hsmall : base ≤ 16) (value : Nat) :
    ∃ digits, IsNumeral base value digits ∧ (∀ digit ∈ digits, digit < 16) ∧
      bytesOf (String.ofList (Nat.toDigits base value)) = digits.map digitByte := by
  obtain ⟨digits, hdigits⟩ := isNumeral_exists hbase value
  refine ⟨digits, hdigits, fun digit hmem => ?_, ?_⟩
  · exact Nat.lt_of_lt_of_le (hdigits.small digit hmem) hsmall
  · exact (map_digits_eq hbase hsmall hdigits).symm

theorem toDigits_inj {base left right : Nat} (hbase : 1 < base) (hsmall : base ≤ 16)
    (hbytes : bytesOf (String.ofList (Nat.toDigits base left)) =
      bytesOf (String.ofList (Nat.toDigits base right))) : left = right := by
  obtain ⟨digits, hleft, hlower, heq⟩ := toDigits_bytes hbase hsmall left
  obtain ⟨others, hright, hothers, hother⟩ := toDigits_bytes hbase hsmall right
  rw [heq, hother] at hbytes
  rw [← hleft.value, ← hright.value, digitByte_inj hlower hothers hbytes]

theorem toDigits_not_mem {base : Nat} (hbase : 1 < base) (hsmall : base ≤ 16) (value : Nat)
    {byte : UInt8} (hbyte : ∀ digit < 16, digitByte digit ≠ byte) :
    byte ∉ bytesOf (String.ofList (Nat.toDigits base value)) := by
  obtain ⟨digits, _, hlower, heq⟩ := toDigits_bytes hbase hsmall value
  rw [heq]
  intro hmem
  obtain ⟨digit, hdigit, hsame⟩ := List.mem_map.mp hmem
  exact hbyte digit (hlower digit hdigit) hsame

theorem decimal_inj {left right : Nat} (hbytes : decimal left = decimal right) :
    left = right :=
  toDigits_inj (by decide) (by decide) hbytes

theorem hexadecimal_inj {left right : Nat} (hbytes : hexadecimal left = hexadecimal right) :
    left = right :=
  toDigits_inj (by decide) (by decide) hbytes

theorem bar_not_mem_decimal (number : Nat) : bar ∉ decimal number :=
  toDigits_not_mem (by decide) (by decide) number (by decide)

theorem signedDecimal_inj {left right : Int64}
    (hbytes : signedDecimal left = signedDecimal right) : left = right := by
  have hminus (number : Nat) : 45 ∉ bytesOf (String.ofList (Nat.toDigits 10 number)) :=
    toDigits_not_mem (by decide) (by decide) number (by decide)
  rw [signedDecimal_eq, signedDecimal_eq] at hbytes
  refine Int64.toInt_inj.mp ?_
  have hleft : left < 0 ↔ left.toInt < 0 := Int64.lt_iff_toInt_lt
  have hright : right < 0 ↔ right.toInt < 0 := Int64.lt_iff_toInt_lt
  by_cases hneg : left < 0
  · by_cases hother : right < 0
    · rw [if_pos hneg, if_pos hother] at hbytes
      have hdigits := toDigits_inj (by decide) (by decide) (List.append_cancel_left hbytes)
      have hleftNeg := hleft.mp hneg
      have hrightNeg := hright.mp hother
      omega
    · rw [if_pos hneg, if_neg hother, List.nil_append] at hbytes
      exact absurd (hbytes ▸ List.mem_cons_self) (hminus right.toInt.natAbs)
  · by_cases hother : right < 0
    · rw [if_neg hneg, if_pos hother, List.nil_append] at hbytes
      exact absurd (hbytes ▸ List.mem_cons_self) (hminus left.toInt.natAbs)
    · rw [if_neg hneg, if_neg hother, List.nil_append, List.nil_append] at hbytes
      have hdigits := toDigits_inj (by decide) (by decide) hbytes
      have hleftPos := mt hleft.mpr hneg
      have hrightPos := mt hright.mpr hother
      omega

theorem bar_not_mem_signedDecimal (value : Int64) : bar ∉ signedDecimal value := by
  rw [signedDecimal_eq]
  refine List.not_mem_append ?_ ?_
  · split
    · decide
    · exact List.not_mem_nil
  · exact toDigits_not_mem (by decide) (by decide) _ (by decide)

/-! The fields. -/

theorem bar_not_mem_twoDigits (number : Nat) : bar ∉ twoDigits number := by
  refine List.not_mem_append (fun hmem => ?_) (bar_not_mem_decimal number)
  exact absurd (List.eq_of_mem_replicate hmem) (by decide)

theorem bar_not_mem_flatMap (bits : List Nat) : bar ∉ bits.flatMap twoDigits := by
  intro hmem
  obtain ⟨number, _, hin⟩ := List.mem_flatMap.mp hmem
  exact bar_not_mem_twoDigits number hin

theorem bar_not_mem_parseTagBits (tag : UInt64) : bar ∉ parseTagBits tag := by
  rw [AppTrace.parseTagBits]
  have hfront : bar ∉ (if tag &&& tagOptionMask = 1 then bytesOf "00"
      else if tag &&& tagOptionMask = 32 then bytesOf "05" else []) := by
    split
    · decide
    · split
      · decide
      · exact List.not_mem_nil
  split
  · exact hfront
  · split
    · exact List.not_mem_append hfront (bar_not_mem_flatMap _)
    · exact bar_not_mem_flatMap _

theorem traceLevel_inj {left right : HiTraceOutputLevel}
    (hbytes : traceLevel left = traceLevel right) : left = right := by
  cases left <;> cases right <;> first | rfl | exact absurd hbytes (by decide)

variable {first second : RecordMarker}

theorem bar_not_mem_labelText (marker : RecordMarker) : bar ∉ labelText marker := by
  refine List.not_mem_append ?_ (bar_not_mem_parseTagBits marker.tag)
  cases marker.level <;> decide

theorem labelText_inj :
    labelText first = labelText second ↔
      first.level = second.level ∧ parseTagBits first.tag = parseTagBits second.tag := by
  constructor
  · intro hlabel
    have hlength : (traceLevel first.level).length = (traceLevel second.level).length := by
      cases first.level <;> cases second.level <;> rfl
    obtain ⟨hlevel, htag⟩ := List.append_inj hlabel hlength
    exact ⟨traceLevel_inj hlevel, htag⟩
  · rintro ⟨hlevel, htag⟩
    rw [labelText, labelText, hlevel, htag]

theorem chainText_eq (hiTraceId : HiTraceIdStruct) (hvalid : hiTraceId.isValid = true) :
    chainText hiTraceId =
      91 :: (hexadecimal hiTraceId.chainId.toNat ++ 44 ::
        (hexadecimal hiTraceId.spanId.toNat ++ 44 ::
          (hexadecimal hiTraceId.parentSpanId.toNat ++ 93 :: [35]))) := by
  rw [chainText, if_pos hvalid, HiTraceIdStruct.getChainId, if_pos hvalid]
  rfl

theorem bar_not_mem_chainText (hiTraceId : HiTraceIdStruct) : bar ∉ chainText hiTraceId := by
  have hnumber (number : Nat) : bar ∉ hexadecimal number :=
    toDigits_not_mem (by decide) (by decide) number (by decide)
  by_cases hvalid : hiTraceId.isValid = true
  · rw [chainText_eq hiTraceId hvalid]
    simp only [List.mem_cons, List.mem_append, hnumber, false_or, List.not_mem_nil, or_false]
    decide
  · rw [chainText, if_neg hvalid]
    exact List.not_mem_nil

/-- The chain id and the name are told apart. -/
theorem chain_name_inj (hfirst : Plain first.name first.customCategory)
    (hsecond : Plain second.name second.customCategory) :
    chainText first.hiTraceId ++ first.name = chainText second.hiTraceId ++ second.name ↔
      chainOf first.hiTraceId = chainOf second.hiTraceId ∧ first.name = second.name := by
  have hcomma (number : Nat) : 44 ∉ hexadecimal number :=
    toDigits_not_mem (by decide) (by decide) number (by decide)
  have hbracket (number : Nat) : 93 ∉ hexadecimal number :=
    toDigits_not_mem (by decide) (by decide) number (by decide)
  by_cases hvalid : first.hiTraceId.isValid = true
  · by_cases hother : second.hiTraceId.isValid = true
    · rw [chainText_eq _ hvalid, chainText_eq _ hother, chainOf, chainOf, if_pos hvalid,
        if_pos hother]
      simp only [List.cons_append, List.append_assoc, List.cons.injEq, true_and,
        Delimited.append_cons_inj (hcomma _) (hcomma _),
        Delimited.append_cons_inj (hbracket _) (hbracket _), List.nil_append,
        Option.some.injEq, Prod.mk.injEq, and_assoc]
      refine and_congr ?_ (and_congr ?_ (and_congr ?_ Iff.rfl))
      · exact ⟨fun hbytes => BitVec.eq_of_toNat_eq (hexadecimal_inj hbytes),
          fun hsame => by rw [hsame]⟩
      · exact ⟨fun hbytes => BitVec.eq_of_toNat_eq (hexadecimal_inj hbytes),
          fun hsame => by rw [hsame]⟩
      · exact ⟨fun hbytes => BitVec.eq_of_toNat_eq (hexadecimal_inj hbytes),
          fun hsame => by rw [hsame]⟩
    · rw [chainText_eq _ hvalid, chainText, chainOf, chainOf, if_neg hother, if_pos hvalid,
        if_neg hother, List.nil_append]
      refine iff_of_false (fun heq => hsecond.start ?_) ?_
      · rw [← heq]
        rfl
      · rintro ⟨hsame, _⟩
        cases hsame
  · by_cases hother : second.hiTraceId.isValid = true
    · rw [chainText_eq _ hother, chainText, chainOf, chainOf, if_neg hvalid, if_neg hvalid,
        if_pos hother, List.nil_append]
      refine iff_of_false (fun heq => hfirst.start ?_) ?_
      · rw [heq]
        rfl
      · rintro ⟨hsame, _⟩
        cases hsame
    · rw [chainText, chainText, chainOf, chainOf, if_neg hvalid, if_neg hother, if_neg hvalid,
        if_neg hother, List.nil_append, List.nil_append]
      exact (and_iff_right rfl).symm

/-! The record. -/

/-- The text behind the pid. -/
def tailText (marker : RecordMarker) : List UInt8 :=
  let named (rest : List UInt8) :=
    bytesOf "H:" ++ ((chainText marker.hiTraceId ++ marker.name) ++ bar :: rest)
  match marker.type with
  | .end => labelText marker
  | .begin => named (labelText marker ++ Delimited.optional bar marker.customArgs)
  | .asyncBegin =>
      named (signedDecimal marker.value ++ bar :: (labelText marker ++
        Delimited.optional bar
          (marker.customCategory ++ Delimited.optional bar marker.customArgs)))
  | _ => named (signedDecimal marker.value ++ bar :: labelText marker)

theorem idealRecord_eq (marker : RecordMarker) :
    idealRecord marker = markType marker.type ++ bar ::
      (decimal marker.pid.toUInt32.toNat ++ bar :: tailText marker) := by
  have hbar : bytesOf "|" = [bar] := rfl
  have hhead : bytesOf "|H:" = bar :: bytesOf "H:" := rfl
  cases htype : marker.type with
  | begin =>
      have hargs : (if marker.customArgs ≠ [] then bar :: marker.customArgs else []) =
          Delimited.optional bar marker.customArgs := by
        cases marker.customArgs with
        | nil => rfl
        | cons head rest => rfl
      simp only [idealRecord, tailText, htype, namedText, hargs, hbar, hhead,
        List.append_assoc, List.cons_append, List.nil_append]
      rfl
  | «end» =>
      simp only [idealRecord, tailText, htype, hbar, List.append_assoc, List.cons_append,
        List.nil_append]
      rfl
  | asyncBegin =>
      have hargs : (if marker.customArgs ≠ [] then
            bar :: (marker.customCategory ++ bar :: marker.customArgs)
          else if marker.customCategory ≠ [] then bar :: marker.customCategory else []) =
          Delimited.optional bar
            (marker.customCategory ++ Delimited.optional bar marker.customArgs) := by
        cases hcategory : marker.customCategory with
        | nil =>
            cases marker.customArgs with
            | nil => rfl
            | cons head rest => rfl
        | cons first more =>
            cases marker.customArgs with
            | nil => simp [Delimited.optional]
            | cons head rest => simp [Delimited.optional]
      simp only [idealRecord, tailText, htype, valuedText, namedText, hargs, hbar, hhead,
        List.append_assoc, List.cons_append, List.nil_append]
      rfl
  | asyncEnd =>
      simp only [idealRecord, tailText, htype, valuedText, namedText, hbar, hhead,
        List.append_assoc, List.cons_append, List.nil_append]
  | int =>
      simp only [idealRecord, tailText, htype, valuedText, namedText, hbar, hhead,
        List.append_assoc, List.cons_append, List.nil_append]

theorem markType_inj {left right : MarkerType} (hbytes : markType left = markType right) :
    left = right := by
  cases left <;> cases right <;> first | rfl | exact absurd hbytes (by decide)

theorem bar_not_mem_markType (type : MarkerType) : bar ∉ markType type := by
  cases type <;> decide

theorem pid_inj {left right : Int32} (hbytes : left.toUInt32.toNat = right.toUInt32.toNat) :
    left = right := by
  rw [← Int32.toInt32_toUInt32 left, UInt32.toNat_inj.mp hbytes, Int32.toInt32_toUInt32]

variable (hfirst : Plain first.name first.customCategory)
  (hsecond : Plain second.name second.customCategory)

include hfirst hsecond

theorem named_inj {left right : List UInt8} :
    bytesOf "H:" ++ ((chainText first.hiTraceId ++ first.name) ++ bar :: left) =
        bytesOf "H:" ++ ((chainText second.hiTraceId ++ second.name) ++ bar :: right) ↔
      (chainOf first.hiTraceId = chainOf second.hiTraceId ∧ first.name = second.name) ∧
        left = right := by
  rw [List.append_cancel_left_eq,
    Delimited.append_cons_inj
      (List.not_mem_append (bar_not_mem_chainText _) hfirst.barless)
      (List.not_mem_append (bar_not_mem_chainText _) hsecond.barless),
    chain_name_inj hfirst hsecond]

omit hfirst hsecond in
theorem valued_inj {left right : List UInt8} :
    signedDecimal first.value ++ bar :: left = signedDecimal second.value ++ bar :: right ↔
      first.value = second.value ∧ left = right := by
  rw [Delimited.append_cons_inj (bar_not_mem_signedDecimal _) (bar_not_mem_signedDecimal _)]
  exact and_congr_left fun _ => ⟨signedDecimal_inj, fun hsame => by rw [hsame]⟩

theorem tailText_inj (htype : first.type = second.type) (hpid : first.pid = second.pid) :
    tailText first = tailText second ↔ reading first = reading second := by
  have hlabel := bar_not_mem_labelText first
  have hother := bar_not_mem_labelText second
  cases hcase : second.type with
  | begin =>
      simp only [tailText, reading, htype, hcase, named_inj hfirst hsecond,
        Delimited.append_optional_inj hlabel hother, labelText_inj, Reading.mk.injEq, hpid]
      tauto
  | «end» =>
      simp only [tailText, reading, htype, hcase, labelText_inj, Reading.mk.injEq, hpid]
      tauto
  | asyncBegin =>
      simp only [tailText, reading, htype, hcase, named_inj hfirst hsecond,
        valued_inj, Delimited.append_optional_inj hlabel hother,
        Delimited.append_optional_inj hfirst.category hsecond.category, labelText_inj,
        Reading.mk.injEq, hpid]
      tauto
  | asyncEnd =>
      simp only [tailText, reading, htype, hcase, named_inj hfirst hsecond,
        valued_inj, labelText_inj, Reading.mk.injEq, hpid]
      tauto
  | int =>
      simp only [tailText, reading, htype, hcase, named_inj hfirst hsecond,
        valued_inj, labelText_inj, Reading.mk.injEq, hpid]
      tauto

theorem idealRecord_inj :
    idealRecord first = idealRecord second ↔ reading first = reading second := by
  have htype (marker : RecordMarker) : (reading marker).type = marker.type := by
    rw [reading]
    cases marker.type <;> rfl
  have hpid (marker : RecordMarker) : (reading marker).pid = marker.pid := by
    rw [reading]
    cases marker.type <;> rfl
  rw [idealRecord_eq, idealRecord_eq,
    Delimited.append_cons_inj (bar_not_mem_markType _) (bar_not_mem_markType _),
    Delimited.append_cons_inj (bar_not_mem_decimal _) (bar_not_mem_decimal _)]
  constructor
  · rintro ⟨hmark, hnumber, htail⟩
    exact (tailText_inj hfirst hsecond (markType_inj hmark)
      (pid_inj (decimal_inj hnumber))).mp htail
  · intro hreading
    have hsameType : first.type = second.type := by
      rw [← htype first, hreading, htype]
    have hsamePid : first.pid = second.pid := by
      rw [← hpid first, hreading, hpid]
    exact ⟨by rw [hsameType], by rw [hsamePid],
      (tailText_inj hfirst hsecond hsameType hsamePid).mpr hreading⟩

omit hfirst hsecond

/-! The calls. -/

variable {settings otherSettings : SystemSettings} {prepared otherPrepared : Bool}
  {thread otherThread : MarkerThread} {request other : MarkerRequest}
  {array otherArray : FixedBuffer UInt8 recordSizeMax}

/-- What `WriteToTraceMarker` is given for a marker. -/
def written (marker : RecordMarker) : List UInt8 × Nat :=
  ((idealRecord marker).take (min 1024 (idealRecord marker).length),
    min 1024 (idealRecord marker).length)

theorem written_of_systemMarker (array : FixedBuffer UInt8 recordSizeMax)
    {marker : RecordMarker}
    (hmarker : systemMarker settings prepared thread request = some marker) :
    ∃ sent, addHitraceMeterMarker settings prepared thread request array =
      some (some sent) ∧ passed sent = written marker := by
  obtain ⟨dst, hwrite, hoffset, hcontent⟩ := (appends_record marker).start array
  rw [addHitraceMeterMarker, hmarker]
  dsimp only
  rw [hwrite]
  refine ⟨_, rfl, ?_⟩
  rw [passed, hcontent, hoffset, List.take_eq_take_min]
  rfl

theorem systemMarker_of_sent {sent : FixedBuffer UInt8 recordSizeMax × Nat}
    (hsent : addHitraceMeterMarker settings prepared thread request array =
      some (some sent)) :
    ∃ marker, systemMarker settings prepared thread request = some marker ∧
      passed sent = written marker := by
  cases hmarker : systemMarker settings prepared thread request with
  | none =>
      rw [addHitraceMeterMarker, hmarker] at hsent
      cases hsent
  | some marker =>
      obtain ⟨_, hcall, hpassed⟩ := written_of_systemMarker array hmarker
      cases hsent.symm.trans hcall
      exact ⟨marker, rfl, hpassed⟩

theorem systemMarker_fields {marker : RecordMarker}
    (hmarker : systemMarker settings prepared thread request = some marker) :
    marker.name = request.name.getD [] ∧
      marker.customCategory = request.customCategory.getD [] := by
  rw [systemMarker] at hmarker
  cases hlevel : outputLevel request.level with
  | none =>
      rw [hlevel] at hmarker
      cases hmarker
  | some level =>
      rw [hlevel] at hmarker
      dsimp only at hmarker
      generalize (if request.tag &&& hitraceTagCommercial ≠ 0 then
        HiTraceOutputLevel.commercial else level) = recorded at hmarker
      obtain ⟨_, hrest⟩ := Option.ite_none_left_eq_some.mp hmarker
      obtain ⟨_, ⟨⟩⟩ := Option.ite_none_left_eq_some.mp hrest
      exact ⟨rfl, rfl⟩

/-- A record that does not fill the array is whole. -/
theorem written_inj {marker otherMarker : RecordMarker}
    (hwhole : (written marker).2 < recordSizeMax) :
    written marker = written otherMarker ↔ idealRecord marker = idealRecord otherMarker := by
  have hmax : recordSizeMax = 1024 := rfl
  rw [written] at hwhole
  dsimp only at hwhole
  have hlength : min 1024 (idealRecord marker).length = (idealRecord marker).length := by omega
  constructor
  · intro hsame
    rw [written, written, hlength, List.take_length] at hsame
    obtain ⟨hbytes, hcount⟩ := Prod.mk.inj hsame
    have hfits : min 1024 (idealRecord otherMarker).length =
        (idealRecord otherMarker).length := by omega
    rw [hbytes, hfits, List.take_length]
  · intro hsame
    rw [written, written, hsame]

/-- Two markers that are written whole have the same record if and only if they agree in
all that their type records. -/
theorem records_equal_iff
    (hplain : Plain (request.name.getD []) (request.customCategory.getD []))
    (hother : Plain (other.name.getD []) (other.customCategory.getD []))
    {sent otherSent : FixedBuffer UInt8 recordSizeMax × Nat}
    (hsent : addHitraceMeterMarker settings prepared thread request array =
      some (some sent))
    (hotherSent : addHitraceMeterMarker otherSettings otherPrepared otherThread other
      otherArray = some (some otherSent))
    (hwhole : sent.2 < recordSizeMax) :
    ∃ marker otherMarker, systemMarker settings prepared thread request = some marker ∧
      systemMarker otherSettings otherPrepared otherThread other = some otherMarker ∧
      (passed sent = passed otherSent ↔ reading marker = reading otherMarker) := by
  obtain ⟨marker, hmarker, hpassed⟩ := systemMarker_of_sent hsent
  obtain ⟨otherMarker, hotherMarker, hotherPassed⟩ := systemMarker_of_sent hotherSent
  obtain ⟨hname, hcategory⟩ := systemMarker_fields hmarker
  obtain ⟨hotherName, hotherCategory⟩ := systemMarker_fields hotherMarker
  refine ⟨marker, otherMarker, hmarker, hotherMarker, ?_⟩
  rw [← hname, ← hcategory] at hplain
  rw [← hotherName, ← hotherCategory] at hother
  have hsize : sent.2 = (written marker).2 := congrArg Prod.snd hpassed
  rw [hpassed, hotherPassed, written_inj (hsize ▸ hwhole), idealRecord_inj hplain hother]

/-- The beginning of `a` in a process whose tag 6 is switched on. -/
def beginOfA (hiTraceId : HiTraceIdStruct) : RecordMarker where
  type := .begin
  level := .info
  tag := 64
  value := 0
  name := [97]
  customCategory := []
  customArgs := []
  hiTraceId
  pid := 7

/-- A thread with the chain id 1 and one without an id mark the same beginning. -/
theorem records_equal_iff_chain :
    let settings : SystemSettings :=
      { tagsProperty := 64, levelThreshold := 0, appTagMatchPid := -1, markerFd := true }
    let request : MarkerRequest := { type := .begin, level := 1, tag := 64, name := some [97] }
    let array : FixedBuffer UInt8 recordSizeMax :=
      ⟨List.replicate recordSizeMax 0, List.length_replicate⟩
    ∃ sent otherSent marker otherMarker,
      addHitraceMeterMarker settings true ⟨7, some { valid := 1, chainId := 1 }, {}⟩ request
        array = some (some sent) ∧
      addHitraceMeterMarker settings true ⟨7, none, {}⟩ request array =
        some (some otherSent) ∧
      (passed sent = passed otherSent ↔ reading marker = reading otherMarker) ∧
      reading marker ≠ reading otherMarker := by
  intro settings request array
  have hchained : systemMarker settings true ⟨7, some { valid := 1, chainId := 1 }, {}⟩
    request = some (beginOfA { valid := 1, chainId := 1 }) := by decide
  have hfree : systemMarker settings true ⟨7, none, {}⟩ request = some (beginOfA {}) := by
    decide
  obtain ⟨sent, hsent, hpassed⟩ := written_of_systemMarker array hchained
  obtain ⟨otherSent, hotherSent, _⟩ := written_of_systemMarker array hfree
  have hplain : Plain (request.name.getD []) (request.customCategory.getD []) := by
    change Plain [97] []
    decide
  have hsize : sent.2 = (written (beginOfA { valid := 1, chainId := 1 })).2 :=
    congrArg Prod.snd hpassed
  obtain ⟨marker, otherMarker, hmarker, hotherMarker, hiff⟩ :=
    records_equal_iff hplain hplain hsent hotherSent (hsize ▸ by decide +kernel)
  cases hchained.symm.trans hmarker
  cases hfree.symm.trans hotherMarker
  exact ⟨sent, otherSent, _, _, hsent, hotherSent, hiff, by decide⟩

end Hitrace.MarkerRecord
