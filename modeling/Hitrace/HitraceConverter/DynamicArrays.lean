import Hitrace.HitraceConverter.SysTraceViewer
import Hitrace.Library.Decimal
import Hitrace.Library.JoinedText
import Hitrace.Library.Utf8
import Mathlib.Data.List.TakeDrop

namespace Hitrace.HitraceConverter

open Library

/-! The two functions of `parse_functions.py` that print dynamic arrays. -/

namespace DynamicArrays

def parseBytesToStr (data : List UInt8) : List Char :=
  if data.contains 0 then Utf8.decode (data.takeWhile (· != 0)) else Utf8.decode data

def hexByte (byte : UInt8) : List Char :=
  [Nat.digitChar (byte.toNat / 16), Nat.digitChar (byte.toNat % 16)]

/-- `bytes.hex()`. -/
def hex (bytes : List UInt8) : List Char :=
  bytes.flatMap hexByte

/-- `%0<width>x` of a number that is not negative. -/
def hexText (width number : Nat) : List Char :=
  zfill width (Nat.toDigits 16 number)

/-- A field that is not signed. -/
def parseUnsignedField (oneEvent : OneEvent) (name : List Char) : Option Nat :=
  (parseIntField oneEvent name false).map Int.toNat

structure I2cFields where
  adapterNr : Int
  msgNr : Nat
  addr : Nat
  flags : Nat
  lenWrite : Nat
  bufPos : Nat
deriving Repr, DecidableEq

def i2cFields (oneEvent : OneEvent) : Option I2cFields := do
  let adapterNr ← parseIntField oneEvent "adapter_nr".toList true
  let msgNr ← parseUnsignedField oneEvent "msg_nr".toList
  let addr ← parseUnsignedField oneEvent "addr".toList
  let flags ← parseUnsignedField oneEvent "flags".toList
  let lenWrite ← parseUnsignedField oneEvent "len".toList
  let buf ← parseUnsignedField oneEvent "buf".toList
  some { adapterNr, msgNr, addr, flags, lenWrite, bufPos := buf &&& 0xffff }

/-- What one turn of the loop appends for a byte. -/
def bufItem (tempData : List Char) : List Char :=
  if tempData = [] ∨ tempData = ['\x00'] then ['0', '0'] else hex (Utf8.encode tempData)

/-- The turns of the loop that are left. -/
def bufTurns (data : List UInt8) (bufPos lenWrite : Nat) : Nat → List Char → List Char
  | 0, bufStr => bufStr
  | remaining + 1, bufStr =>
      let readCnt := lenWrite - (remaining + 1)
      let tempData := parseBytesToStr
        (pySlice data ((bufPos + readCnt : Nat) : Int) ((bufPos + readCnt + 1 : Nat) : Int))
      let bufStr := bufStr ++ bufItem tempData
      bufTurns data bufPos lenWrite remaining
        (if readCnt < lenWrite - 1 then bufStr ++ ['-'] else bufStr)

def i2cText (fields : I2cFields) (bufStr : List Char) : List Char :=
  "i2c-".toList ++ intText fields.adapterNr ++ " #".toList ++ natText fields.msgNr ++
    " a=".toList ++ hexText 3 fields.addr ++ " f=".toList ++ hexText 4 fields.flags ++
    " l=".toList ++ natText fields.lenWrite ++ " ".toList ++ bufStr

def parseI2cWriteOrReply (data : List UInt8) (oneEvent : OneEvent) : Option (List Char) :=
  (i2cFields oneEvent).map fun fields =>
    i2cText fields (bufTurns data fields.bufPos fields.lenWrite fields.lenWrite [] ++ [']'])

structure PowerFields where
  tzId : Int
  reqPowerPos : Nat
  totalReqPower : Nat
  grantedPowerPos : Nat
  totalGrantedPower : Nat
  numActors : Nat
  powerRange : Nat
  maxAllocatablePower : Nat
  currentTemp : Int
  deltaTemp : Int
deriving Repr, DecidableEq

def powerFields (oneEvent : OneEvent) : Option PowerFields := do
  let tzId ← parseIntField oneEvent "tz_id".toList true
  let reqPower ← parseUnsignedField oneEvent "req_power".toList
  let totalReqPower ← parseUnsignedField oneEvent "total_req_power".toList
  let grantedPower ← parseUnsignedField oneEvent "granted_power".toList
  let totalGrantedPower ← parseUnsignedField oneEvent "total_granted_power".toList
  let numActors ← parseUnsignedField oneEvent "num_actors".toList
  let powerRange ← parseUnsignedField oneEvent "power_range".toList
  let maxAllocatablePower ← parseUnsignedField oneEvent "max_allocatable_power".toList
  let currentTemp ← parseIntField oneEvent "current_temp".toList true
  let deltaTemp ← parseIntField oneEvent "delta_temp".toList true
  some
    { tzId
      reqPowerPos := reqPower &&& 0xffff
      totalReqPower
      grantedPowerPos := grantedPower &&& 0xffff
      totalGrantedPower
      numActors
      powerRange
      maxAllocatablePower
      currentTemp
      deltaTemp }

/-- A list in braces. -/
def braced (numbers : List Nat) : List Char :=
  '{' :: [',', ' '].intercalate (numbers.map natText) ++ ['}']

def powerText (fields : PowerFields) (reqPower grantedPower : List Char) : List Char :=
  "thermal_zone_id=".toList ++ intText fields.tzId ++
    " req_power=".toList ++ reqPower ++
    (" total_req_power=".toList ++ natText fields.totalReqPower ++
    " granted_power=".toList) ++ grantedPower ++
    (" total_granted_power=".toList ++ natText fields.totalGrantedPower ++
    "         power_range=".toList ++ natText fields.powerRange ++
    " max_allocatable_power=".toList ++ natText fields.maxAllocatablePower ++
    " current_temperature=".toList ++ intText fields.currentTemp ++
    " delta_temperature=".toList ++ intText fields.deltaTemp)

/-- The elements of a slice of bytes are its bytes. -/
def powerArray (data : List UInt8) (position numActors : Nat) : List Char :=
  braced ((pySlice data (position : Int) ((position + numActors * 4 : Nat) : Int)).map
    UInt8.toNat)

def parseThermalPowerAllocator (data : List UInt8) (oneEvent : OneEvent) :
    Option (List Char) :=
  (powerFields oneEvent).map fun fields =>
    powerText fields (powerArray data fields.reqPowerPos fields.numActors)
      (powerArray data fields.grantedPowerPos fields.numActors)

/-! What the arrays hold. -/

/-- The buffer: its first `len` bytes, two digits each. -/
def writtenBytes (data : List UInt8) (fields : I2cFields) : List Char :=
  ['-'].intercalate (((data.drop fields.bufPos).take fields.lenWrite).map hexByte)

/-- The number at an index of an array of 32-bit numbers. -/
def element (data : List UInt8) (position index : Nat) : Nat :=
  LittleEndian.decode ((data.drop (position + 4 * index)).take 4)

def elements (data : List UInt8) (position numActors : Nat) : List Nat :=
  (List.range numActors).map (element data position)

/-! The loop over the buffer. -/

section Buffer

variable {data : List UInt8} {bufPos lenWrite : Nat}

/-- What the loop prints for a byte. -/
def shownByte (byte : UInt8) : List Char :=
  bufItem (parseBytesToStr [byte])

/-- A byte past ASCII is dropped by the decoder and printed as a zero. -/
theorem shownByte_eq (byte : UInt8) :
    shownByte byte = if byte < 0x80 then hexByte byte else ['0', '0'] := by
  by_cases hzero : byte = 0
  · rw [hzero]
    decide
  · have hcontains : [byte].contains 0 = false := by
      simpa using fun heq => hzero heq.symm
    rw [shownByte, parseBytesToStr, hcontains, if_neg Bool.false_ne_true]
    split
    · next hascii =>
        have hchar : Char.ofNat byte.toNat ≠ '\x00' := by
          intro hnul
          have hencode := Utf8.encode_ascii hascii
          rw [hnul] at hencode
          exact hzero (List.singleton_inj.mp hencode).symm
        rw [Utf8.decode_ascii hascii, bufItem, if_neg (by simp [hchar]),
          Utf8.encode_ascii hascii]
        rfl
    · next hbyte =>
        rw [Utf8.decode_not_ascii hbyte]
        rfl

theorem length_shownByte (byte : UInt8) : (shownByte byte).length = (hexByte byte).length := by
  rw [shownByte_eq]
  split <;> rfl

theorem hexByte_ne_zero {byte : UInt8} (hbyte : ¬ byte < 0x80) : hexByte byte ≠ ['0', '0'] := by
  have hlow : 128 ≤ byte.toNat := by
    rw [UInt8.lt_iff_toNat_lt, Nat.not_lt] at hbyte
    exact hbyte
  have hhigh := byte.toNat_lt
  have hdigits : ∀ digit < 16, 8 ≤ digit → Nat.digitChar digit ≠ '0' := by decide
  intro heq
  simp only [hexByte, List.cons.injEq] at heq
  exact hdigits (byte.toNat / 16) (by omega) (by omega) heq.1

theorem shownByte_eq_hexByte (byte : UInt8) : shownByte byte = hexByte byte ↔ byte < 0x80 := by
  rw [shownByte_eq]
  by_cases hbyte : byte < 0x80
  · simp [hbyte]
  · rw [if_neg hbyte]
    simp only [hbyte, iff_false]
    exact (hexByte_ne_zero hbyte).symm

theorem pySlice_ofNat (data : List UInt8) (start stop : Nat) :
    pySlice data (start : Int) (stop : Int) = (data.take stop).drop start := by
  have hstart : ¬ (start : Int) < 0 := by omega
  have hstop : ¬ (stop : Int) < 0 := by omega
  simp only [pySlice, hstart, hstop, if_false, Int.toNat_natCast]

/-- What is left of the buffer is printed by the turns that are left. -/
theorem bufTurns_eq (hrange : bufPos + lenWrite ≤ data.length) {remaining : Nat}
    (hremaining : remaining ≤ lenWrite) (bufStr : List Char) :
    bufTurns data bufPos lenWrite remaining bufStr = bufStr ++ ['-'].intercalate
      ((((data.drop bufPos).take lenWrite).drop (lenWrite - remaining)).map shownByte) := by
  induction remaining generalizing bufStr with
  | zero =>
      rw [bufTurns, Nat.sub_zero, List.drop_of_length_le (List.length_take_le _ _)]
      simp
  | succ remaining ih =>
      have hbytes : lenWrite - (remaining + 1) < ((data.drop bufPos).take lenWrite).length := by
        simp only [List.length_take, List.length_drop]
        omega
      have hindex : bufPos + (lenWrite - (remaining + 1)) < data.length := by omega
      have hnext : lenWrite - (remaining + 1) + 1 = lenWrite - remaining := by omega
      have hslice : pySlice data ((bufPos + (lenWrite - (remaining + 1)) : Nat) : Int)
          ((bufPos + (lenWrite - (remaining + 1)) + 1 : Nat) : Int) =
          [((data.drop bufPos).take lenWrite)[lenWrite - (remaining + 1)]] := by
        rw [pySlice_ofNat, List.drop_take, Nat.add_sub_cancel_left,
          List.take_one_drop_eq_of_lt_length hindex, List.getElem_take, List.getElem_drop]
        rfl
      rw [bufTurns, hslice, ih (by omega), List.drop_eq_getElem_cons hbytes, hnext,
        List.map_cons]
      generalize ((data.drop bufPos).take lenWrite)[lenWrite - (remaining + 1)] = byte
      by_cases hlast : remaining = 0
      · rw [hlast, Nat.sub_zero, if_neg (by omega),
          List.drop_of_length_le (List.length_take_le _ _)]
        simp [shownByte]
      · have hrest : (((data.drop bufPos).take lenWrite).drop (lenWrite - remaining)).map
            shownByte ≠ [] := by
          apply List.ne_nil_of_length_pos
          simp only [List.length_map, List.length_drop, List.length_take]
          omega
        rw [if_pos (by omega), List.intercalate_cons_of_ne_nil hrest]
        simp [shownByte]

theorem i2cText_inj {fields : I2cFields} {left right : List Char} :
    i2cText fields left = i2cText fields right ↔ left = right := by
  unfold i2cText
  exact List.append_right_inj _

/-- The printed buffer is the one that was written, as long as its bytes are ASCII. -/
theorem bufTurns_eq_iff (fields : I2cFields)
    (hrange : fields.bufPos + fields.lenWrite ≤ data.length) :
    bufTurns data fields.bufPos fields.lenWrite fields.lenWrite [] = writtenBytes data fields ↔
      ∀ byte ∈ (data.drop fields.bufPos).take fields.lenWrite, byte < 0x80 := by
  rw [bufTurns_eq hrange le_rfl, Nat.sub_self, List.drop_zero, List.nil_append, writtenBytes,
    JoinedText.intercalate_map_inj length_shownByte]
  simp only [shownByte_eq_hexByte]

end Buffer

/-! The power arrays. -/

section Power

variable {data : List UInt8} {position numActors : Nat}

theorem comma_not_mem_natText (number : Nat) : ',' ∉ natText number := by
  intro hmem
  exact absurd (@Decimal.isDigit_of_mem_text number ',' hmem) (by decide)

theorem count_comma_braced (numbers : List Nat) :
    (braced numbers).count ',' = numbers.length - 1 := by
  have hitems : ∀ item ∈ numbers.map natText, ',' ∉ item := by
    intro item hmem
    obtain ⟨number, _, rfl⟩ := List.mem_map.mp hmem
    exact comma_not_mem_natText number
  have hjoined := @JoinedText.count_intercalate _ _ ',' [',', ' '] _ rfl hitems
  rw [List.length_map] at hjoined
  rw [← hjoined]
  simp [braced]

theorem length_slice (hrange : position + 4 * numActors ≤ data.length) :
    (pySlice data (position : Int) ((position + numActors * 4 : Nat) : Int)).length =
      4 * numActors := by
  rw [pySlice_ofNat]
  simp only [List.length_drop, List.length_take]
  omega

theorem count_between (mark : Char) (front left middle right back : List Char) :
    (front ++ left ++ middle ++ right ++ back).count mark =
      (front ++ [] ++ middle ++ [] ++ back).count mark +
        (left.count mark + right.count mark) := by
  simp only [List.count_append, List.count_nil]
  omega

theorem count_comma_powerText (fields : PowerFields) (reqPower grantedPower : List Char) :
    (powerText fields reqPower grantedPower).count ',' =
      (powerText fields [] []).count ',' + (reqPower.count ',' + grantedPower.count ',') := by
  unfold powerText
  exact count_between ',' _ _ _ _ _

theorem length_elements : (elements data position numActors).length = numActors := by
  rw [elements, List.length_map, List.length_range]

/-- Four bytes are listed for every element. -/
theorem powerText_eq_iff {fields : PowerFields}
    (hreq : fields.reqPowerPos + 4 * fields.numActors ≤ data.length)
    (hgranted : fields.grantedPowerPos + 4 * fields.numActors ≤ data.length) :
    powerText fields (powerArray data fields.reqPowerPos fields.numActors)
        (powerArray data fields.grantedPowerPos fields.numActors) =
      powerText fields (braced (elements data fields.reqPowerPos fields.numActors))
        (braced (elements data fields.grantedPowerPos fields.numActors)) ↔
      fields.numActors = 0 := by
  constructor
  · intro htext
    have hcount := congrArg (List.count ',') htext
    rw [count_comma_powerText, count_comma_powerText fields (braced _)] at hcount
    have hcommas := Nat.add_left_cancel hcount
    simp only [powerArray, count_comma_braced, List.length_map, length_slice hreq,
      length_slice hgranted, length_elements] at hcommas
    omega
  · intro hzero
    have hslice (position : Nat) :
        pySlice data (position : Int) ((position + 0 * 4 : Nat) : Int) = [] := by
      rw [pySlice_ofNat, Nat.zero_mul, Nat.add_zero]
      exact List.drop_of_length_le (List.length_take_le _ _)
    simp only [hzero, powerArray, hslice, elements, List.range_zero, List.map_nil]

end Power

/-- The text decoder loses the bytes past ASCII, and the arrays of numbers are listed
byte by byte. -/
theorem dynamic_arrays_iff (data : List UInt8) (oneEvent : OneEvent) :
    (∀ fields : I2cFields, i2cFields oneEvent = some fields →
        fields.bufPos + fields.lenWrite ≤ data.length →
        (parseI2cWriteOrReply data oneEvent =
            some (i2cText fields (writtenBytes data fields ++ [']'])) ↔
          ∀ byte ∈ (data.drop fields.bufPos).take fields.lenWrite, byte < 0x80)) ∧
      ∀ fields : PowerFields, powerFields oneEvent = some fields →
        fields.reqPowerPos + 4 * fields.numActors ≤ data.length →
        fields.grantedPowerPos + 4 * fields.numActors ≤ data.length →
        (parseThermalPowerAllocator data oneEvent =
            some (powerText fields
              (braced (elements data fields.reqPowerPos fields.numActors))
              (braced (elements data fields.grantedPowerPos fields.numActors))) ↔
          fields.numActors = 0) := by
  constructor
  · intro fields hfields hrange
    rw [parseI2cWriteOrReply, hfields, Option.map_some, Option.some_inj, i2cText_inj,
      List.append_left_inj]
    exact bufTurns_eq_iff fields hrange
  · intro fields hfields hreq hgranted
    rw [parseThermalPowerAllocator, hfields, Option.map_some, Option.some_inj]
    exact powerText_eq_iff hreq hgranted

def i2cEvent : OneEvent where
  name := []
  printFmt := []
  fields :=
    [("adapter_nr".toList, [1]), ("msg_nr".toList, [0]), ("addr".toList, [0x50]),
      ("flags".toList, [0]), ("len".toList, [2]), ("buf".toList, [1, 0, 2, 0])]
  cpuId := 0

def powerEvent : OneEvent where
  name := []
  printFmt := []
  fields :=
    [("tz_id".toList, [0]), ("req_power".toList, [0, 0, 4, 0]),
      ("total_req_power".toList, [5]), ("granted_power".toList, [4, 0, 4, 0]),
      ("total_granted_power".toList, [5]), ("num_actors".toList, [1]),
      ("power_range".toList, [9]), ("max_allocatable_power".toList, [9]),
      ("current_temp".toList, [40]), ("delta_temp".toList, [3])]
  cpuId := 0

def sampleData : List UInt8 := [0x41, 0x80, 0, 0, 2, 0, 0, 0]

/-- The bytes 0x00 and 0x41 are printed as they are, and one number in each array is not. -/
theorem dynamic_arrays_iff_sample :
    parseI2cWriteOrReply [0, 0, 0x41, 0] i2cEvent =
        some (i2cText ⟨1, 0, 0x50, 0, 2, 1⟩ (writtenBytes [0, 0, 0x41, 0]
          ⟨1, 0, 0x50, 0, 2, 1⟩ ++ [']'])) ∧
      parseThermalPowerAllocator sampleData powerEvent ≠
        some (powerText ⟨0, 0, 5, 4, 5, 1, 9, 9, 40, 3⟩ (braced (elements sampleData 0 1))
          (braced (elements sampleData 4 1))) := by
  constructor
  · refine ((dynamic_arrays_iff [0, 0, 0x41, 0] i2cEvent).1 ⟨1, 0, 0x50, 0, 2, 1⟩ rfl
      (by decide)).mpr ?_
    have hascii : ((List.drop 1 [0, 0, 0x41, 0]).take 2).all fun byte : UInt8 => byte < 0x80 := by
      decide
    simpa only [List.all_eq_true, decide_eq_true_eq] using hascii
  · intro hprinted
    have hnone := ((dynamic_arrays_iff sampleData powerEvent).2
      ⟨0, 0, 5, 4, 5, 1, 9, 9, 40, 3⟩ rfl (by decide) (by decide)).mp hprinted
    cases hnone

/-- The byte 0x80 is printed as 00, and the number 2 as four bytes. -/
theorem arrays_are_misprinted :
    parseI2cWriteOrReply sampleData i2cEvent =
        some "i2c-1 #0 a=050 f=0000 l=2 00-00]".toList ∧
      powerArray sampleData 4 1 = "\x7b2, 0, 0, 0\x7d".toList ∧
      parseI2cWriteOrReply sampleData i2cEvent ≠
        some (i2cText ⟨1, 0, 0x50, 0, 2, 1⟩
          (writtenBytes sampleData ⟨1, 0, 0x50, 0, 2, 1⟩ ++ [']'])) ∧
      parseThermalPowerAllocator sampleData powerEvent ≠
        some (powerText ⟨0, 0, 5, 4, 5, 1, 9, 9, 40, 3⟩ (braced (elements sampleData 0 1))
          (braced (elements sampleData 4 1))) := by
  decide +kernel

end DynamicArrays

end Hitrace.HitraceConverter
