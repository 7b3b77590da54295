import Hitrace.HitraceMeter.TraceListeners
import Hitrace.Library.BitIndices
import Hitrace.Library.FixedBuffer

namespace Hitrace.TagBits

open Library AppTrace HitraceMeter

/-! `ParseTagBits` in the array `bitStr[bitStrSize]` of its callers, from
`hitrace_meter.cpp`. -/

variable {bitStrSize : Nat}

/-- `none` when a byte would come to lie outside of the array. -/
def writeDigits (writeIndex number : Nat) :
    FixedBuffer UInt8 bitStrSize → Option (FixedBuffer UInt8 bitStrSize) :=
  FixedBuffer.storeEach [UInt8.ofNat (48 + number / 10), UInt8.ofNat (48 + number % 10)]
    writeIndex

/-- The `switch`: the index behind what it writes. -/
def writeOption (tagOption : UInt64) (bitStr : FixedBuffer UInt8 bitStrSize) :
    Option (Nat × FixedBuffer UInt8 bitStrSize) :=
  if tagOption = hitraceTagAlways then
    (FixedBuffer.storeEach (bytesOf "00") 0 bitStr).map fun bitStr => (2, bitStr)
  else if tagOption = hitraceTagCommercial then
    (FixedBuffer.storeEach (bytesOf "05") 0 bitStr).map fun bitStr => (2, bitStr)
  else some (0, bitStr)

/-- The loop over the bits; `none` too for turns that do not suffice. -/
def scanBits : (turns : Nat) → (curTag : UInt64) → (offsetBit writeIndex : Nat) →
    FixedBuffer UInt8 bitStrSize → Option (Nat × FixedBuffer UInt8 bitStrSize)
  | 0, curTag, _, writeIndex, bitStr => if curTag = 0 then some (writeIndex, bitStr) else none
  | turns + 1, curTag, offsetBit, writeIndex, bitStr =>
      if curTag = 0 then some (writeIndex, bitStr)
      else if curTag &&& 1 ≠ 0 ∧ writeIndex + 3 < bitStrSize then
        match writeDigits writeIndex offsetBit bitStr with
        | none => none
        | some bitStr => scanBits turns (curTag >>> 1) (offsetBit + 1) (writeIndex + 2) bitStr
      else scanBits turns (curTag >>> 1) (offsetBit + 1) writeIndex bitStr

def parseTagBits (tag : UInt64) (bitStr : FixedBuffer UInt8 bitStrSize) :
    Option (FixedBuffer UInt8 bitStrSize) :=
  let tagOption := tag &&& tagOptionMask
  let tagWithoutOption := tag &&& ~~~tagOptionMask
  match writeOption tagOption bitStr with
  | none => none
  | some (writeIndex, bitStr) =>
      if tagOption = hitraceTagAlways ∧ tagWithoutOption = 0 then bitStr.store writeIndex [0]
      else if tagWithoutOption &&& (tagWithoutOption - 1) = 0 ∧ tagWithoutOption ≠ 0 then
        let tagIndex := tagWithoutOption.toBitVec.ctz.toNat
        match writeDigits writeIndex tagIndex bitStr with
        | none => none
        | some bitStr => bitStr.store (writeIndex + 2) [0]
      else
        -- What the switch has written is written over.
        match scanBits 63 (tag >>> 1) 1 0 bitStr with
        | none => none
        | some (writeIndex, bitStr) => bitStr.store writeIndex [0]

/-! The string as groups of two digits. -/

/-- The bits whose groups make up the string. -/
def groups (tag : UInt64) : List Nat :=
  let tagOption := tag &&& tagOptionMask
  let tagWithoutOption := tag &&& ~~~tagOptionMask
  let front :=
    if tagOption = hitraceTagAlways then [0]
    else if tagOption = hitraceTagCommercial then [5]
    else []
  if tagOption = hitraceTagAlways ∧ tagWithoutOption = 0 then front
  else if tagWithoutOption &&& (tagWithoutOption - 1) = 0 ∧ tagWithoutOption ≠ 0 then
    front ++ tagWithoutOption.toNat.bitIndices
  else (tag.toNat.bitIndices.filter (1 ≤ ·)).take 2

/-- What stands in front of the index. -/
structure Written (bitStr : FixedBuffer UInt8 bitStrSize) (writeIndex : Nat)
    (bits : List Nat) : Prop where
  index : writeIndex = 2 * bits.length
  content : bitStr.load 0 writeIndex = bits.flatMap twoDigits

section Written

variable {bitStr : FixedBuffer UInt8 bitStrSize} {writeIndex : Nat} {bits : List Nat}

theorem written_nil (bitStr : FixedBuffer UInt8 bitStrSize) : Written bitStr 0 [] where
  index := rfl
  content := bitStr.load_zero 0

theorem twoDigits_eq {number : Nat} (hnumber : number < 64) :
    twoDigits number = [UInt8.ofNat (48 + number / 10), UInt8.ofNat (48 + number % 10)] := by
  decide +revert

theorem Written.writeDigits (hwritten : Written bitStr writeIndex bits) {number : Nat}
    (hnumber : number < 64) (hroom : writeIndex + 2 ≤ bitStrSize) :
    ∃ next, TagBits.writeDigits writeIndex number bitStr = some next ∧
      Written next (writeIndex + 2) (bits ++ [number]) := by
  have hlength : writeIndex +
      [UInt8.ofNat (48 + number / 10), UInt8.ofNat (48 + number % 10)].length ≤ bitStrSize :=
    hroom
  obtain ⟨next, hstore, hload⟩ := bitStr.exists_storeEach hlength
  refine ⟨next, hstore, ?_, ?_⟩
  · rw [List.length_append, hwritten.index, List.length_singleton]
    omega
  · rw [List.flatMap_append, List.flatMap_singleton, twoDigits_eq hnumber, ← hwritten.content]
    exact hload

theorem Written.terminate (hwritten : Written bitStr writeIndex bits)
    (hroom : writeIndex + 1 ≤ bitStrSize) :
    ∃ next, bitStr.store writeIndex [0] = some next ∧
      next.load 0 (2 * bits.length + 1) = bits.flatMap twoDigits ++ [0] := by
  obtain ⟨next, hstore, hstored⟩ := @FixedBuffer.exists_store _ _ bitStr writeIndex [0] hroom
  refine ⟨next, hstore, ?_⟩
  rw [← hwritten.index, ← hwritten.content]
  exact hstored.grown

end Written

/-! The loop. -/

section Scan

variable {curTag : UInt64} {number : Nat}

theorem lowest_bit : curTag &&& 1 ≠ 0 ↔ curTag.toNat.testBit 0 = true := by
  have hone : (curTag &&& 1).toNat = curTag.toNat % 2 := by
    rw [UInt64.toNat_and]
    exact Nat.and_one_is_mod _
  have hzero : curTag &&& 1 = 0 ↔ (curTag &&& 1).toNat = 0 := UInt64.toNat_inj.symm
  rw [ne_eq, hzero, hone, Nat.testBit_zero, decide_eq_true_eq]
  omega

theorem toNat_shiftRight_one : (curTag >>> 1).toNat = curTag.toNat / 2 := by
  rw [UInt64.toNat_shiftRight]
  exact Nat.shiftRight_eq_div_pow _ 1

theorem append_take_cons {front more : List Nat} {first count : Nat}
    (hroom : front.length < count) :
    front ++ (first :: more).take (count - front.length) =
      front ++ [first] ++ more.take (count - (front ++ [first]).length) := by
  obtain ⟨left, rfl⟩ : ∃ left, count = front.length + (left + 1) :=
    Nat.exists_eq_add_of_lt hroom
  have hcount : front.length + (left + 1) - front.length = left + 1 := by omega
  have hleft : front.length + (left + 1) - (front ++ [first]).length = left := by
    rw [List.length_append, List.length_singleton]
    omega
  rw [hcount, hleft, List.take_succ_cons, List.append_assoc, List.singleton_append]

/-- By induction on the turns: the groups of the bits that are left follow those that are
written, as many as there is room for. -/
theorem scanBits_written {turns offsetBit writeIndex : Nat}
    {bitStr : FixedBuffer UInt8 bitStrSize} {bits : List Nat}
    (hwritten : Written bitStr writeIndex bits)
    (hcurTag : ∀ bit, curTag.toNat.testBit bit = number.testBit (offsetBit + bit))
    (hfits : curTag.toNat < 2 ^ turns) (hbound : offsetBit + turns ≤ 64) :
    ∃ index next, scanBits turns curTag offsetBit writeIndex bitStr = some (index, next) ∧
      Written next index (bits ++ ((List.range' offsetBit turns).filter number.testBit).take
        ((bitStrSize - 2) / 2 - bits.length)) := by
  induction turns generalizing curTag offsetBit writeIndex bitStr bits with
  | zero =>
      have hzero : curTag = 0 := UInt64.toNat_inj.mp (by simpa using hfits)
      refine ⟨writeIndex, bitStr, by rw [scanBits, if_pos hzero], ?_⟩
      simpa using hwritten
  | succ turns ih =>
      rw [scanBits]
      by_cases hzero : curTag = 0
      · have hclear : ∀ bit, number.testBit (offsetBit + bit) = false := by
          intro bit
          rw [← hcurTag, hzero, UInt64.toNat_zero, Nat.zero_testBit]
        have hnone := @BitIndices.filter_range'_eq_nil _ (turns + 1) _ hclear
        refine ⟨writeIndex, bitStr, if_pos hzero, ?_⟩
        rw [hnone, List.take_nil, List.append_nil]
        exact hwritten
      · rw [if_neg hzero, List.range'_succ]
        have hlowest : curTag &&& 1 ≠ 0 ↔ number.testBit offsetBit = true := by
          rw [lowest_bit, hcurTag, Nat.add_zero]
        have hnext : ∀ bit, (curTag >>> 1).toNat.testBit bit =
            number.testBit (offsetBit + 1 + bit) := by
          intro bit
          rw [toNat_shiftRight_one, ← Nat.testBit_add_one, hcurTag]
          congr 1
          omega
        have hless : (curTag >>> 1).toNat < 2 ^ turns := by
          rw [toNat_shiftRight_one]
          omega
        have hindex := hwritten.index
        by_cases hset : number.testBit offsetBit = true
        · rw [List.filter_cons, if_pos hset]
          by_cases hroom : writeIndex + 3 < bitStrSize
          · obtain ⟨stored, hstore, hstored⟩ := @Written.writeDigits _ _ _ _ hwritten offsetBit
              (by omega) (by omega)
            obtain ⟨index, next, hscan, hdone⟩ := ih hstored hnext hless (by omega)
            rw [if_pos ⟨hlowest.mpr hset, hroom⟩, hstore]
            refine ⟨index, next, hscan, ?_⟩
            rw [append_take_cons (by omega)]
            exact hdone
          · obtain ⟨index, next, hscan, hdone⟩ := ih hwritten hnext hless (by omega)
            rw [if_neg fun hboth => hroom hboth.2]
            refine ⟨index, next, hscan, ?_⟩
            have hfull : (bitStrSize - 2) / 2 - bits.length = 0 := by omega
            rw [hfull, List.take_zero] at hdone ⊢
            exact hdone
        · obtain ⟨index, next, hscan, hdone⟩ := ih hwritten hnext hless (by omega)
          rw [if_neg fun hboth => hset (hlowest.mp hboth.1), List.filter_cons, if_neg hset]
          exact ⟨index, next, hscan, hdone⟩

end Scan

/-! The whole string. -/

/-- The fast path is taken for one bit, which is counted right. -/
theorem fastPath_iff (tagWithoutOption : UInt64) :
    (tagWithoutOption &&& (tagWithoutOption - 1) = 0 ∧ tagWithoutOption ≠ 0) ↔
      tagWithoutOption.toNat.bitIndices.length = 1 := by
  rw [BitIndices.length_eq_one_iff, ← Nat.ne_zero_and_sub_one_eq_zero_iff_isPowerOfTwo,
    and_comm]
  by_cases hzero : tagWithoutOption = 0
  · simp [hzero]
  · have hne : tagWithoutOption.toNat ≠ 0 := fun hnone => hzero (UInt64.toNat_inj.mp hnone)
    have hone : (1 : UInt64) ≤ tagWithoutOption := by
      rw [UInt64.le_iff_toNat_le, UInt64.toNat_one]
      omega
    have hless : (tagWithoutOption - 1).toNat = tagWithoutOption.toNat - 1 :=
      UInt64.toNat_sub_of_le _ _ hone
    rw [← UInt64.toNat_inj, UInt64.toNat_and, hless]
    simp [hzero, hne]

theorem bitIndices_of_fastPath {tagWithoutOption : UInt64}
    (hone : tagWithoutOption.toNat.bitIndices.length = 1) :
    tagWithoutOption.toNat.bitIndices = [tagWithoutOption.toBitVec.ctz.toNat] := by
  have hne : tagWithoutOption.toBitVec ≠ 0#64 := by
    intro hzero
    rw [← UInt64.toNat_toBitVec, hzero] at hone
    simp at hone
  obtain ⟨bit, hbit⟩ := List.length_eq_one_iff.mp hone
  have hset : tagWithoutOption.toBitVec.ctz.toNat ∈ tagWithoutOption.toNat.bitIndices := by
    rw [Nat.mem_bitIndices]
    exact BitVec.getLsbD_true_ctz_of_ne_zero hne
  rw [hbit] at hset ⊢
  rw [List.mem_singleton.mp hset]

theorem lt_of_mem_bitIndices {tag : UInt64} {bit : Nat} (hbit : bit ∈ tag.toNat.bitIndices) :
    bit < 64 := by
  have hle := Nat.two_pow_le_of_mem_bitIndices hbit
  exact (Nat.pow_lt_pow_iff_right (by decide)).mp (Nat.lt_of_le_of_lt hle tag.toNat_lt)

theorem slow_bits (tag : UInt64) :
    (List.range' 1 63).filter tag.toNat.testBit = tag.toNat.bitIndices.filter (1 ≤ ·) :=
  BitIndices.filter_range' 1 tag.toNat_lt

/-- The string that the records of the model take. -/
theorem flatMap_groups (tag : UInt64) :
    AppTrace.parseTagBits tag = (groups tag).flatMap twoDigits := by
  have hcommercial : hitraceTagCommercial = 32 := rfl
  have hrange : (List.range 64).drop 1 = List.range' 1 63 := rfl
  have hall (number : UInt64) : (List.range 64).filter number.toNat.testBit =
      number.toNat.bitIndices := BitIndices.filter_range number.toNat_lt
  have hfront : (if tag &&& tagOptionMask = 1 then bytesOf "00"
      else if tag &&& tagOptionMask = 32 then bytesOf "05" else []) =
      (if tag &&& tagOptionMask = 1 then [0]
        else if tag &&& tagOptionMask = 32 then [5] else []).flatMap twoDigits := by
    split
    · rfl
    · split <;> rfl
  rw [AppTrace.parseTagBits, groups, hitraceTagAlways, hcommercial]
  rw [hfront, hrange, hall, slow_bits]
  split
  · rfl
  · split
    · next hfast =>
        have hone := (fastPath_iff _).mp hfast
        rw [List.flatMap_append, List.take_of_length_le hone.le]
    · rfl

section Parse

variable (tag : UInt64) (bitStr : FixedBuffer UInt8 7)

theorem writeOption_written (tagOption : UInt64) :
    ∃ index next, writeOption tagOption bitStr = some (index, next) ∧
      Written next index (if tagOption = hitraceTagAlways then [0]
        else if tagOption = hitraceTagCommercial then [5] else []) := by
  rw [writeOption]
  split
  · obtain ⟨next, hstore, hwritten⟩ :=
      (written_nil bitStr).writeDigits (show 0 < 64 by decide) (by decide)
    exact ⟨2, next, congrArg (Option.map _) hstore, hwritten⟩
  · split
    · obtain ⟨next, hstore, hwritten⟩ :=
        (written_nil bitStr).writeDigits (show 5 < 64 by decide) (by decide)
      exact ⟨2, next, congrArg (Option.map _) hstore, hwritten⟩
    · exact ⟨0, bitStr, rfl, written_nil bitStr⟩

/-- Every path stays inside the seven bytes and leaves the groups with a NUL behind. -/
theorem parseTagBits_groups :
    ∃ next, parseTagBits tag bitStr = some next ∧
      next.load 0 (2 * (groups tag).length + 1) = (groups tag).flatMap twoDigits ++ [0] := by
  obtain ⟨index, front, hoption, hwritten⟩ := writeOption_written bitStr (tag &&& tagOptionMask)
  have hfront := hwritten.index
  have hshort : (if tag &&& tagOptionMask = hitraceTagAlways then [0]
      else if tag &&& tagOptionMask = hitraceTagCommercial then [5] else []).length ≤ 1 := by
    split
    · exact Nat.le_refl 1
    · split
      · exact Nat.le_refl 1
      · exact Nat.zero_le 1
  rw [parseTagBits, groups]
  dsimp only
  rw [hoption]
  dsimp only
  split
  · exact hwritten.terminate (by omega)
  · split
    · next hfast =>
        have hbits := bitIndices_of_fastPath ((fastPath_iff _).mp hfast)
        have hless := lt_of_mem_bitIndices (hbits ▸ List.mem_singleton_self _)
        obtain ⟨stored, hstore, hstored⟩ := hwritten.writeDigits hless (by omega)
        rw [hstore, hbits]
        exact hstored.terminate (by omega)
    · have hshift : ∀ bit, (tag >>> 1).toNat.testBit bit = tag.toNat.testBit (1 + bit) := by
        intro bit
        rw [toNat_shiftRight_one, ← Nat.testBit_add_one, Nat.add_comm]
      have hfits : (tag >>> 1).toNat < 2 ^ 63 := by
        have hless := tag.toNat_lt
        rw [toNat_shiftRight_one]
        omega
      obtain ⟨last, next, hscan, hdone⟩ :=
        scanBits_written (written_nil front) hshift hfits (Nat.le_refl 64)
      rw [slow_bits] at hdone
      change Written next last ((tag.toNat.bitIndices.filter (1 ≤ ·)).take 2) at hdone
      have hlast := hdone.index
      have hcount : ((tag.toNat.bitIndices.filter (1 ≤ ·)).take 2).length ≤ 2 :=
        List.length_take_le _ _
      rw [hscan]
      exact hdone.terminate (by omega)

end Parse

/-! The groups and the set bits. -/

/-- The set bits are among those of the option and the bits from 6 on. -/
def Tagged (tag : UInt64) : Prop :=
  ∀ bit ∈ tag.toNat.bitIndices, bit = 0 ∨ 5 ≤ bit

section Groups

variable {tag : UInt64}

theorem bitIndices_mask : tagOptionMask.toNat.bitIndices = [0, 5] :=
  @Nat.bitIndices_sum_map_two_pow [0, 5] (by decide)

theorem bitIndices_always : hitraceTagAlways.toNat.bitIndices = [0] :=
  Nat.bitIndices_two_pow 0

theorem bitIndices_commercial : hitraceTagCommercial.toNat.bitIndices = [5] :=
  Nat.bitIndices_two_pow 5

theorem bitIndices_inj {left right : UInt64} :
    left.toNat.bitIndices = right.toNat.bitIndices ↔ left = right := by
  rw [BitIndices.injective.eq_iff, UInt64.toNat_inj]

theorem bitIndices_option (tag : UInt64) :
    (tag &&& tagOptionMask).toNat.bitIndices = [0, 5].filter tag.toNat.testBit := by
  symm
  apply BitIndices.eq_of_testBit
  · exact List.Pairwise.filter _ (by decide)
  · intro bit
    rw [← bitIndices_mask, List.mem_filter, Nat.mem_bitIndices, UInt64.toNat_and,
      Nat.testBit_and, Bool.and_eq_true, and_comm]

theorem mem_bitIndices_withoutOption {bit : Nat}
    (hbit : bit ∈ (tag &&& ~~~tagOptionMask).toNat.bitIndices) :
    bit ∈ tag.toNat.bitIndices ∧ bit ∉ [0, 5] := by
  rw [← bitIndices_mask]
  rw [Nat.mem_bitIndices, UInt64.toNat_and, Nat.testBit_and, Bool.and_eq_true] at hbit
  obtain ⟨htag, hmask⟩ := hbit
  rw [← UInt64.toNat_toBitVec, BitVec.testBit_toNat, UInt64.toBitVec_not, BitVec.getLsbD_not,
    Bool.and_eq_true] at hmask
  refine ⟨Nat.mem_bitIndices.mpr htag, ?_⟩
  rw [Nat.mem_bitIndices, ← UInt64.toNat_toBitVec, BitVec.testBit_toNat]
  simpa using hmask.2

theorem six_le_of_mem (htagged : Tagged tag) {bit : Nat}
    (hbit : bit ∈ (tag &&& ~~~tagOptionMask).toNat.bitIndices) : 6 ≤ bit := by
  obtain ⟨hset, hother⟩ := mem_bitIndices_withoutOption hbit
  have hpart := htagged bit hset
  simp at hother
  omega

/-- The bits of the option stand in front of the others. -/
theorem bitIndices_tag (htagged : Tagged tag) :
    tag.toNat.bitIndices = (tag &&& tagOptionMask).toNat.bitIndices ++
      (tag &&& ~~~tagOptionMask).toNat.bitIndices := by
  have hjoin : tag = tag &&& tagOptionMask ||| tag &&& ~~~tagOptionMask := by
    apply UInt64.eq_of_toBitVec_eq
    ext bit
    simp
    grind
  have hparts := @BitIndices.or_of_lt (tag &&& tagOptionMask).toNat
    (tag &&& ~~~tagOptionMask).toNat ?_
  · rw [← hparts, ← UInt64.toNat_or, ← hjoin]
  · intro left hleft right hright
    have hlow : left ∈ [0, 5] := by
      rw [bitIndices_option] at hleft
      exact List.mem_of_mem_filter hleft
    have hhigh := six_le_of_mem htagged hright
    simp at hlow
    omega

theorem eq_always_iff {tagOption : UInt64} :
    tagOption = hitraceTagAlways ↔ tagOption.toNat.bitIndices = [0] := by
  rw [← bitIndices_always, bitIndices_inj]

theorem eq_commercial_iff {tagOption : UInt64} :
    tagOption = hitraceTagCommercial ↔ tagOption.toNat.bitIndices = [5] := by
  rw [← bitIndices_commercial, bitIndices_inj]

theorem eq_zero_iff {number : UInt64} : number = 0 ↔ number.toNat.bitIndices = [] := by
  rw [BitIndices.eq_nil_iff]
  exact UInt64.toNat_inj.symm

theorem option_cases (tag : UInt64) :
    (tag &&& tagOptionMask).toNat.bitIndices ∈ [[], [0], [5], [0, 5]] := by
  rw [bitIndices_option, List.filter_cons, List.filter_cons, List.filter_nil]
  cases tag.toNat.testBit 0 <;> cases tag.toNat.testBit 5 <;> decide

/-- The groups by the bits of the option and the others. -/
def joined (front back : List Nat) : List Nat :=
  if front = [0] ∧ back = [] then [0]
  else if back.length = 1 then
    (if front = [0] then [0] else if front = [5] then [5] else []) ++ back
  else (front.filter (1 ≤ ·) ++ back).take 2

theorem groups_eq (htagged : Tagged tag) :
    groups tag = joined (tag &&& tagOptionMask).toNat.bitIndices
      (tag &&& ~~~tagOptionMask).toNat.bitIndices := by
  have hback : (tag &&& ~~~tagOptionMask).toNat.bitIndices.filter (1 ≤ ·) =
      (tag &&& ~~~tagOptionMask).toNat.bitIndices := by
    rw [List.filter_eq_self]
    intro bit hbit
    have hsix := six_le_of_mem htagged hbit
    exact decide_eq_true (by omega)
  rw [groups, joined]
  simp only [fastPath_iff]
  simp only [eq_always_iff, eq_commercial_iff, eq_zero_iff]
  rw [bitIndices_tag htagged, List.filter_append, hback]
  split
  · next hboth => rw [if_pos hboth.1]
  · rfl

end Groups

/-! What holds of the groups. -/

section Joined

variable {front back : List Nat}

theorem joined_sublist (hfront : front ∈ [[], [0], [5], [0, 5]]) :
    (joined front back).Sublist (front ++ back) := by
  have hoption : (if front = [0] then [0] else if front = [5] then [5] else []).Sublist front := by
    simp only [List.mem_cons, List.not_mem_nil, or_false] at hfront
    rcases hfront with rfl | rfl | rfl | rfl <;> decide
  rw [joined]
  split
  · next hboth =>
      rw [hboth.1, hboth.2]
      exact List.Sublist.refl _
  · split
    · exact hoption.append (List.Sublist.refl back)
    · exact (List.take_sublist _ _).trans
        (List.filter_sublist.append (List.Sublist.refl back))

theorem length_joined_le (front back : List Nat) : (joined front back).length ≤ 2 := by
  rw [joined]
  split
  · decide
  · split
    · next hone =>
        rw [List.length_append, hone]
        split
        · decide
        · split <;> decide
    · exact List.length_take_le _ _

/-- One or two bits are all in the string, but for the two of the option. -/
theorem joined_eq (hfront : front ∈ [[], [0], [5], [0, 5]])
    (hlength : (front ++ back).length = 1 ∨ (front ++ back).length = 2)
    (hother : front ++ back ≠ [0, 5]) : joined front back = front ++ back := by
  simp only [List.mem_cons, List.not_mem_nil, or_false] at hfront
  rw [joined]
  match back with
  | [] =>
      rcases hfront with rfl | rfl | rfl | rfl
      · simp at hlength
      · rfl
      · rfl
      · exact absurd rfl hother
  | [bit] =>
      -- A bit beside both of the option would be the third.
      rcases hfront with rfl | rfl | rfl | rfl
      · rfl
      · rfl
      · rfl
      · simp at hlength
  | first :: second :: rest =>
      rw [List.length_append, List.length_cons, List.length_cons] at hlength
      obtain rfl : front = [] := List.eq_nil_of_length_eq_zero (by omega)
      obtain rfl : rest = [] := List.eq_nil_of_length_eq_zero (by omega)
      rfl

end Joined

/-! The string of a tag. -/

/-- The call stays inside the seven bytes and leaves the groups of these bits with a NUL. -/
def Leaves (tag : UInt64) (bitStr : FixedBuffer UInt8 7) (bits : List Nat) : Prop :=
  ∃ next, parseTagBits tag bitStr = some next ∧
    next.load 0 (2 * bits.length + 1) = bits.flatMap twoDigits ++ [0]

/-- At most two groups, of set bits in ascending order. -/
def Grouped (tag : UInt64) (bitStr : FixedBuffer UInt8 7) : Prop :=
  ∃ bits, Leaves tag bitStr bits ∧ bits.length ≤ 2 ∧
    (∀ bit ∈ bits, tag.toNat.testBit bit = true) ∧ bits.Pairwise (· < ·)

/-- One or two set bits are all there. -/
def Complete (tag : UInt64) (bitStr : FixedBuffer UInt8 7) : Prop :=
  tag.toNat.bitIndices.length = 1 ∨ tag.toNat.bitIndices.length = 2 →
    Leaves tag bitStr tag.toNat.bitIndices

/-- `HITRACE_TAG_ALWAYS | HITRACE_TAG_COMMERCIAL` -/
def bothOptions : UInt64 := hitraceTagAlways ||| hitraceTagCommercial

theorem bitIndices_bothOptions : bothOptions.toNat.bitIndices = [0, 5] :=
  bitIndices_mask

theorem tagged_bothOptions : Tagged bothOptions := by
  intro bit hbit
  rw [bitIndices_bothOptions] at hbit
  simp at hbit
  omega

section Tagged

variable {tag : UInt64}

theorem grouped (htagged : Tagged tag) (bitStr : FixedBuffer UInt8 7) :
    Grouped tag bitStr := by
  have hsublist := @joined_sublist _ (tag &&& ~~~tagOptionMask).toNat.bitIndices
    (option_cases tag)
  rw [← groups_eq htagged, ← bitIndices_tag htagged] at hsublist
  refine ⟨groups tag, parseTagBits_groups tag bitStr, ?_, ?_, ?_⟩
  · rw [groups_eq htagged]
    exact length_joined_le _ _
  · intro bit hbit
    exact Nat.mem_bitIndices.mp (hsublist.subset hbit)
  · exact Nat.bitIndices_sorted.pairwise.sublist hsublist

theorem complete_of_ne (htagged : Tagged tag) (hother : tag ≠ bothOptions)
    (bitStr : FixedBuffer UInt8 7) : Complete tag bitStr := by
  intro hlength
  have hbits : tag.toNat.bitIndices ≠ [0, 5] := by
    rw [← bitIndices_bothOptions, ne_eq, bitIndices_inj]
    exact hother
  have hgroups : groups tag = tag.toNat.bitIndices := by
    rw [bitIndices_tag htagged] at hlength hbits ⊢
    rw [groups_eq htagged]
    exact joined_eq (option_cases tag) hlength hbits
  rw [← hgroups]
  exact parseTagBits_groups tag bitStr

end Tagged

/-- The switch knows no case for both options, and the loop leaves bit 0 out. -/
theorem not_complete_bothOptions (bitStr : FixedBuffer UInt8 7) :
    ¬ Complete bothOptions bitStr := by
  intro hcomplete
  have hlength : bothOptions.toNat.bitIndices.length = 2 := by
    rw [bitIndices_bothOptions]
    rfl
  obtain ⟨next, hparse, hcontent⟩ := hcomplete (.inr hlength)
  obtain ⟨parsed, hparsed, hgroups⟩ := parseTagBits_groups bothOptions bitStr
  obtain rfl : next = parsed := Option.some.inj (hparse.symm.trans hparsed)
  have hoption : bothOptions &&& tagOptionMask = bothOptions := by decide
  have hrest : bothOptions &&& ~~~tagOptionMask = 0 := by decide
  have hfive : groups bothOptions = [5] := by
    rw [groups_eq tagged_bothOptions, hoption, hrest, bitIndices_bothOptions, UInt64.toNat_zero,
      Nat.bitIndices_zero]
    decide
  rw [bitIndices_bothOptions] at hcontent
  rw [hfive] at hgroups
  have hshort := next.take_load 0 (show 3 ≤ 5 by decide)
  have hlong : next.load 0 5 = [0, 5].flatMap twoDigits ++ [0] := hcontent
  have hfront : next.load 0 3 = [5].flatMap twoDigits ++ [0] := hgroups
  rw [hlong, hfront] at hshort
  exact absurd hshort (by decide)

/-- The string is grouped for every tag, and complete for all but the two options by
themselves. -/
theorem tag_string_iff {tag : UInt64} (htagged : Tagged tag) (bitStr : FixedBuffer UInt8 7) :
    Grouped tag bitStr ∧ (Complete tag bitStr ↔ tag ≠ bothOptions) := by
  refine ⟨grouped htagged bitStr, ?_, ?_⟩
  · rintro hcomplete rfl
    exact not_complete_bothOptions bitStr hcomplete
  · intro hother
    exact complete_of_ne htagged hother bitStr

/-- A tag of the applications with the option `HITRACE_TAG_COMMERCIAL`. -/
def commercialApp : UInt64 := HitraceMeter.hitraceTagApp ||| hitraceTagCommercial

theorem bitIndices_commercialApp : commercialApp.toNat.bitIndices = [5, 62] :=
  @Nat.bitIndices_sum_map_two_pow [5, 62] (by decide)

theorem tag_string_iff_app :
    Grouped commercialApp ⟨List.replicate 7 0, rfl⟩ ∧
      Complete commercialApp ⟨List.replicate 7 0, rfl⟩ ∧
      parseTagBits commercialApp (⟨List.replicate 7 0, rfl⟩ : FixedBuffer UInt8 7) =
        some ⟨[48, 53, 54, 50, 0, 0, 0], rfl⟩ := by
  have htagged : Tagged commercialApp := by
    intro bit hbit
    rw [bitIndices_commercialApp] at hbit
    simp at hbit
    omega
  obtain ⟨hgrouped, hcomplete⟩ := tag_string_iff htagged ⟨List.replicate 7 0, rfl⟩
  exact ⟨hgrouped, hcomplete.mpr (by decide), by decide +kernel⟩

/-- The string of both options is that of bit 5 alone. -/
theorem both_options_lose_bit_zero :
    Tagged bothOptions ∧ ¬ Complete bothOptions ⟨List.replicate 7 0, rfl⟩ ∧
      parseTagBits bothOptions (⟨List.replicate 7 0, rfl⟩ : FixedBuffer UInt8 7) =
        some ⟨[48, 53, 0, 0, 0, 0, 0], rfl⟩ :=
  ⟨tagged_bothOptions, not_complete_bothOptions _, by decide⟩

end Hitrace.TagBits
