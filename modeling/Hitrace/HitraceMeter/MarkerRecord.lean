import Hitrace.HitraceMeter.StringUtil

namespace Hitrace.MarkerRecord

open Library AppTrace HitraceMeter

/-! The record of `AddHitraceMeterMarker` in its array `record[RECORD_SIZE_MAX]`, byte by
byte, from `hitrace_meter.cpp`. -/

/-- The array, and the pointer `dataOffset` behind what is written. -/
abbrev Destination := BoundedWriter UInt8 recordSizeMax

/-! The marker as it comes to the writers. -/

structure RecordMarker where
  type : MarkerType
  level : HiTraceOutputLevel
  tag : UInt64
  value : Int64
  name : List UInt8
  customCategory : List UInt8
  customArgs : List UInt8
  hiTraceId : HiTraceIdStruct
  pid : Int32
deriving Repr, DecidableEq

def levelChar : HiTraceOutputLevel → Char
  | .debug => 'D'
  | .info => 'I'
  | .critical => 'C'
  | .commercial => 'M'

def markTypeChar : MarkerType → Char
  | .begin => 'B'
  | .end => 'E'
  | .asyncBegin => 'S'
  | .asyncEnd => 'F'
  | .int => 'C'

def writeHitraceId (hiTraceId : HiTraceIdStruct) : Destination → Option Destination :=
  if hiTraceId.isValid = true then
    addCharToBuffer '[' >=>
      addUInt64HexValueToBuffer (.ofNat hiTraceId.getChainId.toNat) >=>
      addCharToBuffer ',' >=>
      addUInt64HexValueToBuffer (.ofNat hiTraceId.spanId.toNat) >=>
      addCharToBuffer ',' >=>
      addUInt64HexValueToBuffer (.ofNat hiTraceId.parentSpanId.toNat) >=>
      addStringToBuffer (bytesOf "]#")
  else some

def writeSyncBeginRecord (marker : RecordMarker) : Destination → Option Destination :=
  addStringToBuffer (bytesOf "B|") >=>
    addUInt32DecValueToBuffer marker.pid.toUInt32 >=>
    addStringToBuffer (bytesOf "|H:") >=>
    writeHitraceId marker.hiTraceId >=>
    addStringToBuffer marker.name >=>
    addCharToBuffer '|' >=>
    addCharToBuffer (levelChar marker.level) >=>
    addStringToBuffer (parseTagBits marker.tag) >=>
    if marker.customArgs ≠ [] then
      addCharToBuffer '|' >=> addStringToBuffer marker.customArgs
    else some

def writeSyncEndRecord (marker : RecordMarker) : Destination → Option Destination :=
  addStringToBuffer (bytesOf "E|") >=>
    addUInt32DecValueToBuffer marker.pid.toUInt32 >=>
    addCharToBuffer '|' >=>
    addCharToBuffer (levelChar marker.level) >=>
    addStringToBuffer (parseTagBits marker.tag)

def writeAsyncBeginRecord (marker : RecordMarker) : Destination → Option Destination :=
  addStringToBuffer (bytesOf "S|") >=>
    addUInt32DecValueToBuffer marker.pid.toUInt32 >=>
    addStringToBuffer (bytesOf "|H:") >=>
    writeHitraceId marker.hiTraceId >=>
    addStringToBuffer marker.name >=>
    addCharToBuffer '|' >=>
    addInt64DecValue marker.value >=>
    addCharToBuffer '|' >=>
    addCharToBuffer (levelChar marker.level) >=>
    addStringToBuffer (parseTagBits marker.tag) >=>
    if marker.customCategory ≠ [] then
      addCharToBuffer '|' >=> addStringToBuffer marker.customCategory >=>
        if marker.customArgs ≠ [] then
          addCharToBuffer '|' >=> addStringToBuffer marker.customArgs
        else some
    else if marker.customArgs ≠ [] then
      addCharToBuffer '|' >=> addStringToBuffer marker.customCategory >=>
        addCharToBuffer '|' >=> addStringToBuffer marker.customArgs
    else some

def writeOtherTypeRecord (marker : RecordMarker) : Destination → Option Destination :=
  addCharToBuffer (markTypeChar marker.type) >=>
    addCharToBuffer '|' >=>
    addUInt32DecValueToBuffer marker.pid.toUInt32 >=>
    addStringToBuffer (bytesOf "|H:") >=>
    writeHitraceId marker.hiTraceId >=>
    addStringToBuffer marker.name >=>
    addCharToBuffer '|' >=>
    addInt64DecValue marker.value >=>
    addCharToBuffer '|' >=>
    addCharToBuffer (levelChar marker.level) >=>
    addStringToBuffer (parseTagBits marker.tag)

def writeRecord (marker : RecordMarker) : Destination → Option Destination :=
  match marker.type with
  | .begin => writeSyncBeginRecord marker
  | .end => writeSyncEndRecord marker
  | .asyncBegin => writeAsyncBeginRecord marker
  | _ => writeOtherTypeRecord marker

/-- What the thread gives to a marker: `given` is the id the caller passes, `current` the
one of `HiTraceChain::GetId`. -/
structure MarkerThread where
  pid : Int32
  given : Option HiTraceIdStruct
  current : HiTraceIdStruct
deriving Repr, DecidableEq

/-- The marker that is left for the system trace behind all early returns. -/
def systemMarker (settings : SystemSettings) (prepared : Bool) (thread : MarkerThread)
    (request : MarkerRequest) : Option RecordMarker :=
  match outputLevel request.level with
  | none => none
  | some level =>
      let level := if request.tag &&& hitraceTagCommercial ≠ 0 then .commercial else level
      if !prepared || !settings.matchesTag request.tag then none
      else if levelValue level < settings.levelThreshold ∨
          request.tag = HitraceMeter.hitraceTagApp ∧ 0 < settings.appTagMatchPid ∧
            settings.appTagMatchPid ≠ thread.pid.toInt then none
      else
        some
          { type := request.type
            level
            tag := request.tag
            value := request.value
            name := request.name.getD []
            customCategory := request.customCategory.getD []
            customArgs := request.customArgs.getD []
            hiTraceId := thread.given.getD thread.current
            pid := thread.pid }

/-- The array and the size for `WriteToTraceMarker`, if it is called.  `none` is a byte
written outside of an array. -/
def addHitraceMeterMarker (settings : SystemSettings) (prepared : Bool)
    (thread : MarkerThread) (request : MarkerRequest)
    (record : FixedBuffer UInt8 recordSizeMax) :
    Option (Option (FixedBuffer UInt8 recordSizeMax × Nat)) :=
  match systemMarker settings prepared thread request with
  | none => some none
  | some marker =>
      match writeRecord marker ⟨record, 0⟩ with
      | none => none
      | some dst => some (some (dst.buffer, dst.offset))

/-! The whole record, without an array to put it into. -/

def hexadecimal (number : Nat) : List UInt8 :=
  bytesOf (String.ofList (Nat.toDigits 16 number))

def signedDecimal (value : Int64) : List UInt8 :=
  bytesOf (toString value.toInt)

def chainText (hiTraceId : HiTraceIdStruct) : List UInt8 :=
  if hiTraceId.isValid = true then
    bytesOf "[" ++ (hexadecimal hiTraceId.getChainId.toNat ++ (bytesOf "," ++
      (hexadecimal hiTraceId.spanId.toNat ++ (bytesOf "," ++
        (hexadecimal hiTraceId.parentSpanId.toNat ++ bytesOf "]#")))))
  else []

def labelText (marker : RecordMarker) : List UInt8 :=
  traceLevel marker.level ++ parseTagBits marker.tag

/-- The fields of a record with a name, up to the bar behind the name. -/
def namedText (marker : RecordMarker) : List UInt8 :=
  decimal marker.pid.toUInt32.toNat ++ (bytesOf "|H:" ++
    (chainText marker.hiTraceId ++ (marker.name ++ bytesOf "|")))

def valuedText (marker : RecordMarker) : List UInt8 :=
  namedText marker ++ (signedDecimal marker.value ++ (bytesOf "|" ++ labelText marker))

def idealRecord (marker : RecordMarker) : List UInt8 :=
  match marker.type with
  | .begin =>
      bytesOf "B|" ++ namedText marker ++ labelText marker ++
        (if marker.customArgs ≠ [] then bytesOf "|" ++ marker.customArgs else [])
  | .end =>
      bytesOf "E|" ++ decimal marker.pid.toUInt32.toNat ++ bytesOf "|" ++ labelText marker
  | .asyncBegin =>
      bytesOf "S|" ++ valuedText marker ++
        (if marker.customArgs ≠ [] then
          bytesOf "|" ++ marker.customCategory ++ bytesOf "|" ++ marker.customArgs
        else if marker.customCategory ≠ [] then bytesOf "|" ++ marker.customCategory
        else [])
  | type => markType type ++ bytesOf "|" ++ valuedText marker

/-! Every call of `StringUtil` adds its text to the record. -/

open BoundedWriter

theorem appends_string (src : List UInt8) :
    @Appends UInt8 recordSizeMax (addStringToBuffer src) src :=
  (puts_string src).appends

theorem appends_char (value : Char) :
    @Appends UInt8 recordSizeMax (addCharToBuffer value) [UInt8.ofNat value.toNat] :=
  (puts_char value).appends

theorem digits_eq_toDigits {base value : Nat} (hbase : 1 < base) (hsmall : base ≤ 16)
    (hvalue : value ≠ 0) :
    (Nat.digits base value).reverse.map numToChar =
      bytesOf (String.ofList (Nat.toDigits base value)) := by
  induction value using Nat.strong_induction_on with
  | _ value ih =>
      have hchar : numToChar (value % base) =
          UInt8.ofNat (Nat.digitChar (value % base)).toNat := by
        apply numToChar_eq
        exact Nat.lt_of_lt_of_le (Nat.mod_lt _ (by omega)) hsmall
      rw [Nat.digits_def' hbase (Nat.pos_of_ne_zero hvalue), Nat.toDigits_eq_if hbase,
        List.reverse_cons, List.map_append, List.map_singleton, hchar]
      split
      · next hless =>
          simp [Nat.div_eq_of_lt hless, Nat.mod_eq_of_lt hless, bytesOf]
      · next hmore =>
          have hrest : value / base ≠ 0 := by
            rw [Nat.div_ne_zero_iff]
            omega
          rw [ih _ (Nat.div_lt_self (by omega) hbase) hrest]
          simp [bytesOf]

/-- The numeral is the text that the library gives. -/
theorem map_digits_eq {base value : Nat} {digits : List Nat} (hbase : 1 < base)
    (hsmall : base ≤ 16) (hdigits : IsNumeral base value digits) :
    (digits.map fun digit => UInt8.ofNat (Nat.digitChar digit).toNat) =
      bytesOf (String.ofList (Nat.toDigits base value)) := by
  have hsmaller : ∀ digit ∈ digits, digit < 16 := by
    intro digit hdigit
    exact Nat.lt_of_lt_of_le (hdigits.small digit hdigit) hsmall
  rw [← map_numToChar hsmaller, hdigits.unique hbase]
  split
  · next hzero =>
      rw [hzero, Nat.toDigits_zero]
      rfl
  · next hne => exact digits_eq_toDigits hbase hsmall hne

theorem Encodes.appends {base value : Nat} {front : List UInt8}
    {call : Destination → Option Destination} (hencodes : Encodes base value front call)
    (hbase : 1 < base) (hsmall : base ≤ 16) :
    Appends call (front ++ bytesOf (String.ofList (Nat.toDigits base value))) := by
  obtain ⟨digits, hdigits, _, hputs⟩ := hencodes
  rw [← map_digits_eq hbase hsmall hdigits]
  exact hputs.appends

theorem appends_hexadecimal {number : Nat} (hnumber : number < 2 ^ 64) :
    @Appends UInt8 recordSizeMax (addUInt64HexValueToBuffer (.ofNat number))
      (hexadecimal number) := by
  have htoNat : (UInt64.ofNat number).toNat = number := UInt64.toNat_ofNat_of_lt' hnumber
  have hencodes := (encodes_uint64 (.ofNat number)).appends (by decide) (by decide)
  rw [htoNat] at hencodes
  exact hencodes

theorem appends_decimal (value : UInt32) :
    @Appends UInt8 recordSizeMax (addUInt32DecValueToBuffer value) (decimal value.toNat) :=
  (encodes_uint32 value).appends (by decide) (by decide)

theorem bytesOf_append (left right : String) :
    bytesOf (left ++ right) = bytesOf left ++ bytesOf right := by
  simp [bytesOf]

theorem signedDecimal_eq (value : Int64) :
    signedDecimal value = (if value < 0 then bytesOf "-" else []) ++
      bytesOf (String.ofList (Nat.toDigits 10 value.toInt.natAbs)) := by
  have hsign : value < 0 ↔ value.toInt < 0 := Int64.lt_iff_toInt_lt
  have hrepr : toString value.toInt = Int.repr value.toInt := rfl
  rw [signedDecimal, hrepr, Int.repr_eq_if]
  by_cases hneg : value.toInt < 0
  · rw [if_neg (by omega), if_pos (hsign.mpr hneg), bytesOf_append]
    have habs : (-value.toInt).toNat = value.toInt.natAbs := by omega
    rw [habs]
    rfl
  · rw [if_pos (by omega), if_neg (mt hsign.mp hneg), List.nil_append]
    have habs : value.toInt.toNat = value.toInt.natAbs := by omega
    rw [habs]
    rfl

theorem appends_signedDecimal (value : Int64) :
    @Appends UInt8 recordSizeMax (addInt64DecValue value) (signedDecimal value) := by
  rw [signedDecimal_eq]
  exact (encodes_int64 value).appends (by decide) (by decide)

theorem appends_hitraceId (hiTraceId : HiTraceIdStruct) :
    Appends (writeHitraceId hiTraceId) (chainText hiTraceId) := by
  have hchainId := hiTraceId.getChainId.isLt
  have hspanId := hiTraceId.spanId.isLt
  have hparentSpanId := hiTraceId.parentSpanId.isLt
  apply Appends.ite _ appends_some
  apply (appends_char '[').comp
  apply (appends_hexadecimal (by omega)).comp
  apply (appends_char ',').comp
  apply (appends_hexadecimal (by omega)).comp
  apply (appends_char ',').comp
  apply (appends_hexadecimal (by omega)).comp
  exact appends_string _

theorem appends_level (level : HiTraceOutputLevel) :
    @Appends UInt8 recordSizeMax (addCharToBuffer (levelChar level)) (traceLevel level) := by
  cases level with
  | debug => exact appends_char 'D'
  | info => exact appends_char 'I'
  | critical => exact appends_char 'C'
  | commercial => exact appends_char 'M'

theorem appends_markType (type : MarkerType) :
    @Appends UInt8 recordSizeMax (addCharToBuffer (markTypeChar type)) (markType type) := by
  cases type with
  | begin => exact appends_char 'B'
  | «end» => exact appends_char 'E'
  | asyncBegin => exact appends_char 'S'
  | asyncEnd => exact appends_char 'F'
  | int => exact appends_char 'C'

theorem appends_text (text : List UInt8) :
    @Appends UInt8 recordSizeMax (addCharToBuffer '|' >=> addStringToBuffer text)
      (bytesOf "|" ++ text) :=
  (appends_char '|').comp (appends_string text)

section Writers

variable (marker : RecordMarker)

theorem appends_label :
    @Appends UInt8 recordSizeMax
      (addCharToBuffer (levelChar marker.level) >=> addStringToBuffer (parseTagBits marker.tag))
      (labelText marker) :=
  (appends_level _).comp (appends_string _)

/-- The fields of a record with a name, in front of what follows. -/
theorem appends_named {call : Destination → Option Destination} {text : List UInt8}
    (hcall : Appends call text) :
    Appends (addUInt32DecValueToBuffer marker.pid.toUInt32 >=>
      addStringToBuffer (bytesOf "|H:") >=> writeHitraceId marker.hiTraceId >=>
      addStringToBuffer marker.name >=> addCharToBuffer '|' >=> call)
      (namedText marker ++ text) := by
  simp only [namedText, List.append_assoc]
  apply (appends_decimal _).comp
  apply (appends_string _).comp
  apply (appends_hitraceId _).comp
  apply (appends_string _).comp
  exact (appends_char '|').comp hcall

theorem appends_valued {call : Destination → Option Destination} {text : List UInt8}
    (hcall : Appends call text) :
    Appends (addUInt32DecValueToBuffer marker.pid.toUInt32 >=>
      addStringToBuffer (bytesOf "|H:") >=> writeHitraceId marker.hiTraceId >=>
      addStringToBuffer marker.name >=> addCharToBuffer '|' >=>
      addInt64DecValue marker.value >=> addCharToBuffer '|' >=>
      addCharToBuffer (levelChar marker.level) >=>
      addStringToBuffer (parseTagBits marker.tag) >=> call)
      (valuedText marker ++ text) := by
  simp only [valuedText, labelText, List.append_assoc]
  apply appends_named
  apply (appends_signedDecimal _).comp
  apply (appends_char '|').comp
  apply (appends_level _).comp
  exact (appends_string _).comp hcall

theorem appends_syncBegin (htype : marker.type = .begin) :
    Appends (writeSyncBeginRecord marker) (idealRecord marker) := by
  simp only [idealRecord, htype, labelText, List.append_assoc]
  apply (appends_string _).comp
  apply appends_named
  apply (appends_level _).comp
  apply (appends_string _).comp
  exact (appends_text _).ite appends_some

theorem appends_syncEnd (htype : marker.type = .end) :
    Appends (writeSyncEndRecord marker) (idealRecord marker) := by
  simp only [idealRecord, htype, List.append_assoc]
  apply (appends_string _).comp
  apply (appends_decimal _).comp
  apply (appends_char '|').comp
  exact appends_label marker

/-- An empty category is written only in front of arguments. -/
theorem appends_texts (category args : List UInt8) :
    @Appends UInt8 recordSizeMax
      (if category ≠ [] then
        addCharToBuffer '|' >=> addStringToBuffer category >=>
          if args ≠ [] then addCharToBuffer '|' >=> addStringToBuffer args else some
      else if args ≠ [] then
        addCharToBuffer '|' >=> addStringToBuffer category >=>
          addCharToBuffer '|' >=> addStringToBuffer args
      else some)
      (if args ≠ [] then bytesOf "|" ++ (category ++ (bytesOf "|" ++ args))
      else if category ≠ [] then bytesOf "|" ++ category
      else []) := by
  have hboth : @Appends UInt8 recordSizeMax
      (addCharToBuffer '|' >=> addStringToBuffer category >=>
        addCharToBuffer '|' >=> addStringToBuffer args)
      (bytesOf "|" ++ (category ++ (bytesOf "|" ++ args))) :=
    (appends_char '|').comp ((appends_string category).comp (appends_text args))
  have hone : @Appends UInt8 recordSizeMax
      (addCharToBuffer '|' >=> addStringToBuffer category >=> some) (bytesOf "|" ++ category) := by
    have hcategory := (appends_string category).comp appends_some
    rw [List.append_nil] at hcategory
    exact (appends_char '|').comp hcategory
  by_cases hargs : args = []
  · by_cases hcategory : category = []
    · simp only [hargs, hcategory, ne_eq, not_true_eq_false, if_false]
      exact appends_some
    · simp only [hargs, hcategory, ne_eq, not_true_eq_false, not_false_eq_true, if_true,
        if_false]
      exact hone
  · simp only [hargs, ne_eq, not_false_eq_true, if_true, ite_self]
    exact hboth

theorem appends_asyncBegin (htype : marker.type = .asyncBegin) :
    Appends (writeAsyncBeginRecord marker) (idealRecord marker) := by
  simp only [idealRecord, htype, List.append_assoc]
  apply (appends_string _).comp
  exact appends_valued marker (appends_texts _ _)

theorem appends_otherType (hideal : idealRecord marker =
      markType marker.type ++ bytesOf "|" ++ valuedText marker) :
    Appends (writeOtherTypeRecord marker) (idealRecord marker) := by
  rw [hideal, List.append_assoc]
  apply (appends_markType _).comp
  apply (appends_char '|').comp
  simp only [valuedText]
  apply appends_named
  apply (appends_signedDecimal _).comp
  apply (appends_char '|').comp
  exact appends_label marker

theorem appends_record : Appends (writeRecord marker) (idealRecord marker) := by
  rw [writeRecord]
  cases htype : marker.type with
  | begin => exact appends_syncBegin marker htype
  | «end» => exact appends_syncEnd marker htype
  | asyncBegin => exact appends_asyncBegin marker htype
  | asyncEnd =>
      apply appends_otherType
      simp only [idealRecord, htype]
  | int =>
      apply appends_otherType
      simp only [idealRecord, htype]

end Writers

/-! The writers of `TraceMarker` keep the written front only. -/

section Front

def RecordMarker.of (hiTraceId : HiTraceIdStruct) (marker : TraceMarker) : RecordMarker where
  type := marker.type
  level := marker.level
  tag := marker.tag
  value := marker.value
  name := marker.name
  customCategory := marker.customCategory
  customArgs := marker.customArgs
  hiTraceId
  pid := .ofNat marker.pid.id

variable (text : List UInt8)

@[simp] theorem addStringToBuffer_take (src : List UInt8) :
    HitraceMeter.addStringToBuffer src (text.take recordSizeMax) =
      (text ++ src).take recordSizeMax := by
  rw [HitraceMeter.addStringToBuffer, List.take_append, List.length_take]
  congr 2
  omega

@[simp] theorem addCharToBuffer_take (value : UInt8) :
    HitraceMeter.addCharToBuffer value (text.take recordSizeMax) =
      (text ++ [value]).take recordSizeMax := by
  rw [← addStringToBuffer_take, HitraceMeter.addCharToBuffer,
    HitraceMeter.addStringToBuffer]
  split
  · next hroom =>
      have hwhole : [value].take (recordSizeMax - (text.take recordSizeMax).length) =
          [value] := List.take_of_length_le (Nat.sub_pos_of_lt hroom)
      rw [hwhole]
  · next hfull =>
      have hnone : recordSizeMax - (text.take recordSizeMax).length = 0 := by omega
      rw [hnone, List.take_zero, List.append_nil]

theorem addDigits_take {base value : Nat} (hbase : 1 < base) (hsmall : base ≤ 16) :
    (if value = 0 then HitraceMeter.addCharToBuffer 48 (text.take recordSizeMax)
      else HitraceMeter.addDigits base value (text.take recordSizeMax)) =
      (text ++ bytesOf (String.ofList (Nat.toDigits base value))).take recordSizeMax := by
  split
  · next hzero =>
      rw [hzero, Nat.toDigits_zero]
      exact addCharToBuffer_take text 48
  · next hzero =>
      rw [HitraceMeter.addDigits, digits_eq_toDigits hbase hsmall hzero]
      exact addStringToBuffer_take text _

@[simp] theorem addUInt64HexValueToBuffer_take (value : Nat) :
    HitraceMeter.addUInt64HexValueToBuffer value (text.take recordSizeMax) =
      (text ++ hexadecimal value).take recordSizeMax :=
  addDigits_take text (by decide) (by decide)

@[simp] theorem addUInt32DecValueToBuffer_take (value : Nat) :
    HitraceMeter.addUInt32DecValueToBuffer value (text.take recordSizeMax) =
      (text ++ decimal value).take recordSizeMax :=
  addDigits_take text (by decide) (by decide)

@[simp] theorem addInt64DecValue_take (value : Int64) :
    HitraceMeter.addInt64DecValue value (text.take recordSizeMax) =
      (text ++ signedDecimal value).take recordSizeMax := by
  rw [HitraceMeter.addInt64DecValue]
  split
  · next hzero =>
      rw [hzero]
      exact addCharToBuffer_take text 48
  · next hzero =>
      have hne : value.toInt.natAbs ≠ 0 := by
        intro hnone
        exact hzero (Int64.toInt_inj.mp (Int.natAbs_eq_zero.mp hnone))
      have hsign : (if value < 0 then
            HitraceMeter.addCharToBuffer 45 (text.take recordSizeMax)
          else text.take recordSizeMax) =
          (text ++ if value < 0 then bytesOf "-" else []).take recordSizeMax := by
        split
        · exact addCharToBuffer_take text 45
        · rw [List.append_nil]
      rw [hsign, HitraceMeter.addDigits, digits_eq_toDigits (by decide) (by decide) hne,
        addStringToBuffer_take, signedDecimal_eq, List.append_assoc]

@[simp] theorem writeHitraceId_take (hiTraceId : HiTraceIdStruct) :
    HitraceMeter.writeHitraceId hiTraceId (text.take recordSizeMax) =
      (text ++ chainText hiTraceId).take recordSizeMax := by
  rw [HitraceMeter.writeHitraceId, chainText]
  split
  · simp
    rfl
  · simp

@[simp] theorem writeText_take (src : List UInt8) :
    HitraceMeter.writeText src (text.take recordSizeMax) =
      (text ++ (bytesOf "|" ++ src)).take recordSizeMax := by
  rw [HitraceMeter.writeText, addCharToBuffer_take, addStringToBuffer_take,
    List.append_assoc]
  rfl

variable (hiTraceId : HiTraceIdStruct) (marker : TraceMarker)

theorem toNat_pid :
    (RecordMarker.of hiTraceId marker).pid.toUInt32.toNat = marker.pid.id := by
  have hbound : marker.pid.id < UInt32.size :=
    Nat.lt_trans marker.pid.bounded (by decide)
  rw [RecordMarker.of, Int32.toUInt32_ofNat', UInt32.toNat_ofNat_of_lt' hbound]

theorem writeLabel_take :
    HitraceMeter.writeLabel marker (text.take recordSizeMax) =
      (text ++ labelText (.of hiTraceId marker)).take recordSizeMax := by
  rw [HitraceMeter.writeLabel, addStringToBuffer_take, addStringToBuffer_take,
    List.append_assoc]
  rfl

@[simp] theorem writeNamed_take :
    HitraceMeter.writeNamed hiTraceId marker (text.take recordSizeMax) =
      (text ++ namedText (.of hiTraceId marker)).take recordSizeMax := by
  rw [HitraceMeter.writeNamed, addUInt32DecValueToBuffer_take, addStringToBuffer_take,
    writeHitraceId_take, addStringToBuffer_take, addCharToBuffer_take, namedText,
    toNat_pid]
  simp only [List.append_assoc]
  rfl

@[simp] theorem writeValued_take :
    HitraceMeter.writeValued hiTraceId marker (text.take recordSizeMax) =
      (text ++ valuedText (.of hiTraceId marker)).take recordSizeMax := by
  rw [HitraceMeter.writeValued, writeNamed_take, addInt64DecValue_take,
    addCharToBuffer_take, writeLabel_take _ hiTraceId, valuedText]
  simp only [List.append_assoc]
  rfl

/-- The record without its array is the written front of the same record. -/
theorem record_eq_take :
    HitraceMeter.record hiTraceId marker =
      (idealRecord (.of hiTraceId marker)).take recordSizeMax := by
  have hstart (src : List UInt8) :
      HitraceMeter.addStringToBuffer src [] = src.take recordSizeMax :=
    addStringToBuffer_take [] src
  have htype : (RecordMarker.of hiTraceId marker).type = marker.type := rfl
  have hargs : (RecordMarker.of hiTraceId marker).customArgs = marker.customArgs := rfl
  have hcategory : (RecordMarker.of hiTraceId marker).customCategory =
      marker.customCategory := rfl
  have hother (type : MarkerType) (htype : marker.type = type) :
      HitraceMeter.writeOtherTypeRecord hiTraceId marker =
        (markType type ++ bytesOf "|" ++ valuedText (.of hiTraceId marker)).take
          recordSizeMax := by
    simp only [HitraceMeter.writeOtherTypeRecord, htype, hstart, addCharToBuffer_take,
      writeValued_take]
    rfl
  rw [HitraceMeter.record, idealRecord, htype]
  cases hmarker : marker.type with
  | begin =>
      simp only [HitraceMeter.writeSyncBeginRecord, hstart, writeNamed_take,
        writeLabel_take _ hiTraceId, hargs]
      split
      · exact writeText_take _ _
      · rw [List.append_nil]
  | «end» =>
      simp only [HitraceMeter.writeSyncEndRecord, hstart, addUInt32DecValueToBuffer_take,
        addCharToBuffer_take, writeLabel_take _ hiTraceId, toNat_pid]
      rfl
  | asyncBegin =>
      simp only [HitraceMeter.writeAsyncBeginRecord, hstart, writeValued_take, hargs,
        hcategory]
      by_cases hnone : marker.customCategory = []
      · by_cases hempty : marker.customArgs = []
        · simp [hnone, hempty]
        · simp [hnone, hempty]
      · by_cases hempty : marker.customArgs = []
        · simp [hnone, hempty]
        · simp [hnone, hempty]
  | asyncEnd => exact hother .asyncEnd hmarker
  | int => exact hother .int hmarker

/-- The two writers agree. -/
theorem writeRecord_load (record : FixedBuffer UInt8 recordSizeMax) :
    ∃ dst, writeRecord (.of hiTraceId marker) ⟨record, 0⟩ = some dst ∧
      dst.buffer.load 0 dst.offset = HitraceMeter.record hiTraceId marker := by
  obtain ⟨dst, hwrite, _, hcontent⟩ :=
    (appends_record (.of hiTraceId marker)).start record
  exact ⟨dst, hwrite, hcontent.trans (record_eq_take hiTraceId marker).symm⟩

end Front

/-- What `WriteToTraceMarker` reads, and the size it is told. -/
def passed (arguments : FixedBuffer UInt8 recordSizeMax × Nat) : List UInt8 × Nat :=
  (arguments.1.load 0 arguments.2, arguments.2)

/-- The record that is passed on is the front of the whole record, whatever the array held
before, and every byte was written inside of it. -/
theorem marker_record_encoding (settings : SystemSettings) (prepared : Bool)
    (thread : MarkerThread) (request : MarkerRequest)
    (record : FixedBuffer UInt8 recordSizeMax) :
    ∃ sent, addHitraceMeterMarker settings prepared thread request record = some sent ∧
      sent.map passed =
        (systemMarker settings prepared thread request).map fun marker =>
          ((idealRecord marker).take (min 1024 (idealRecord marker).length),
            min 1024 (idealRecord marker).length) := by
  rw [addHitraceMeterMarker]
  cases systemMarker settings prepared thread request with
  | none => exact ⟨none, rfl, rfl⟩
  | some marker =>
      obtain ⟨dst, hwrite, hoffset, hcontent⟩ := (appends_record marker).start record
      dsimp only
      rw [hwrite]
      refine ⟨_, rfl, ?_⟩
      simp only [Option.map_some, passed]
      rw [hcontent, hoffset, List.take_eq_take_min]
      rfl

end Hitrace.MarkerRecord
