import Hitrace.HitraceChain.ChainState
import Hitrace.Library.LastWrite

namespace Hitrace

open Library

/-! The accessors of an id, from `hitracechainc.h`. -/

namespace HiTraceIdStruct

def enableFlag (flag : UInt32) (id : HiTraceIdStruct) : HiTraceIdStruct :=
  if id.isValid then
    { id with flags := (id.flags.setWidth 64 ||| flag.toBitVec.setWidth 64).setWidth 12 }
  else id

def getFlags (id : HiTraceIdStruct) : BitVec 12 :=
  if !id.isValid then 0 else id.flags

def setFlags (flags : Int) (id : HiTraceIdStruct) : HiTraceIdStruct :=
  if id.isValid && decide (flags ≥ hitraceFlagMin) && decide (flags < hitraceFlagMax) then
    { id with flags := .ofInt 12 flags }
  else id

def setChainId (chainId : UInt64) (id : HiTraceIdStruct) : HiTraceIdStruct :=
  if chainId = 0 then id
  else
    let id :=
      if !id.isValid then
        { id with
          valid := hitraceIdValid
          ver := hitraceVer1
          flags := 0
          spanId := 0
          parentSpanId := 0 }
      else id
    { id with chainId := chainId.toBitVec.setWidth 60 }

def getSpanId (id : HiTraceIdStruct) : BitVec 26 :=
  if !id.isValid then 0 else id.spanId

def setSpanId (spanId : UInt64) (id : HiTraceIdStruct) : HiTraceIdStruct :=
  if id.isValid then { id with spanId := spanId.toBitVec.setWidth 26 } else id

def getParentSpanId (id : HiTraceIdStruct) : BitVec 26 :=
  if !id.isValid then 0 else id.parentSpanId

def setParentSpanId (parentSpanId : UInt64) (id : HiTraceIdStruct) : HiTraceIdStruct :=
  if id.isValid then { id with parentSpanId := parentSpanId.toBitVec.setWidth 26 } else id

end HiTraceIdStruct

namespace Accessors

inductive Setter
  | setChainId (chainId : UInt64)
  | setSpanId (spanId : UInt64)
  | setParentSpanId (parentSpanId : UInt64)
  | setFlags (flags : Int)
  | enableFlag (flag : UInt32)
deriving Repr, DecidableEq

def call (id : HiTraceIdStruct) : Setter → HiTraceIdStruct
  | .setChainId chainId => id.setChainId chainId
  | .setSpanId spanId => id.setSpanId spanId
  | .setParentSpanId parentSpanId => id.setParentSpanId parentSpanId
  | .setFlags flags => id.setFlags flags
  | .enableFlag flag => id.enableFlag flag

def run (id : HiTraceIdStruct) (setters : List Setter) : HiTraceIdStruct :=
  setters.foldl call id

/-! What each call writes to each field of a valid id. -/

def setsChainId : Setter → Bool
  | .setChainId chainId => chainId != 0
  | _ => false

def chainIdWrite : Setter → Write Nat
  | .setChainId chainId => if chainId = 0 then .keep else .set chainId.toNat
  | _ => .keep

def spanIdWrite : Setter → Write Nat
  | .setSpanId spanId => .set spanId.toNat
  | _ => .keep

def parentSpanIdWrite : Setter → Write Nat
  | .setParentSpanId parentSpanId => .set parentSpanId.toNat
  | _ => .keep

def flagsWrite : Setter → Write Nat
  | .setFlags flags =>
      if hitraceFlagMin ≤ flags ∧ flags < hitraceFlagMax then .set flags.toNat else .keep
  | .enableFlag flag => .merge flag.toNat
  | _ => .keep

/-- The id from which on calls are accepted, and these calls: those from the first chain id
on, when the id is not valid before. -/
def accepted (id : HiTraceIdStruct) (setters : List Setter) : HiTraceIdStruct × List Setter :=
  if id.isValid then (id, setters)
  else (.initId, setters.dropWhile fun setter => !setsChainId setter)

/-- What the getters return: the last values, cut to the width of their fields. -/
structure Tracked (start : HiTraceIdStruct) (setters : List Setter) (final : HiTraceIdStruct) :
    Prop where
  chainId : final.getChainId.toNat =
    Write.lastSet start.chainId.toNat (setters.map chainIdWrite) % 2 ^ 60
  spanId : final.getSpanId.toNat =
    Write.lastSet start.spanId.toNat (setters.map spanIdWrite) % 2 ^ 26
  parentSpanId : final.getParentSpanId.toNat =
    Write.lastSet start.parentSpanId.toNat (setters.map parentSpanIdWrite) % 2 ^ 26
  flags : final.getFlags.toNat =
    ((Write.merged (setters.map flagsWrite)).foldl (· ||| ·)
      (Write.lastSet start.flags.toNat (setters.map flagsWrite))) % 2 ^ 12
  flagsWithin : (∀ flag, Setter.enableFlag flag ∈ setters → flag.toNat < 2 ^ 12) →
    final.getFlags.toNat = (Write.merged (setters.map flagsWrite)).foldl (· ||| ·)
      (Write.lastSet start.flags.toNat (setters.map flagsWrite))

inductive Field
  | valid
  | ver
  | chainId
  | flags
  | spanId
  | parentSpanId
deriving Repr, DecidableEq

def field (id : HiTraceIdStruct) : Field → Nat
  | .valid => id.valid.toNat
  | .ver => id.ver.toNat
  | .chainId => id.chainId.toNat
  | .flags => id.flags.toNat
  | .spanId => id.spanId.toNat
  | .parentSpanId => id.parentSpanId.toNat

def Field.width : Field → Nat
  | .valid => 1
  | .ver => 3
  | .chainId => 60
  | .flags => 12
  | .spanId => 26
  | .parentSpanId => 26

def Setter.target : Setter → Field
  | .setChainId _ => .chainId
  | .setSpanId _ => .spanId
  | .setParentSpanId _ => .parentSpanId
  | .setFlags _ => .flags
  | .enableFlag _ => .flags

def fieldWrite : Field → Setter → Write Nat
  | .chainId => chainIdWrite
  | .spanId => spanIdWrite
  | .parentSpanId => parentSpanIdWrite
  | .flags => flagsWrite
  | _ => fun _ => .keep

/-- The value is stored in every valid id. -/
def SetFlagsAccepts (flags : Int) : Prop :=
  ∀ id : HiTraceIdStruct, id.isValid = true → ((id.setFlags flags).getFlags.toNat : Int) = flags

/-- The thread gets a valid id with the value. -/
def BeginAccepts (flags : Int) : Prop :=
  ∀ (platform : Platform) (source : ChainIdSource) (thread : HiTraceIdStruct),
    thread.isValid = false → (thread.chainBegin platform flags source).1.isValid = true

/-! One call. -/

section Call

variable {id : HiTraceIdStruct}

theorem isValid_call (setter : Setter) (hvalid : id.isValid = true) :
    (call id setter).isValid = true := by
  cases setter with
  | setChainId chainId =>
      rw [call, HiTraceIdStruct.setChainId]
      split
      · exact hvalid
      · simp only [hvalid, Bool.not_true, Bool.false_eq_true, if_false]
        exact hvalid
  | setSpanId spanId =>
      rw [call, HiTraceIdStruct.setSpanId, if_pos hvalid]
      exact hvalid
  | setParentSpanId parentSpanId =>
      rw [call, HiTraceIdStruct.setParentSpanId, if_pos hvalid]
      exact hvalid
  | setFlags flags =>
      rw [call, HiTraceIdStruct.setFlags]
      split <;> exact hvalid
  | enableFlag flag =>
      rw [call, HiTraceIdStruct.enableFlag, if_pos hvalid]
      exact hvalid

/-- A call writes its own field only. -/
theorem field_call (setter : Setter) (hvalid : id.isValid = true) {place : Field}
    (hplace : place ≠ setter.target) : field (call id setter) place = field id place := by
  cases setter with
  | setChainId chainId =>
      rw [call, HiTraceIdStruct.setChainId]
      split
      · rfl
      · simp only [hvalid, Bool.not_true, Bool.false_eq_true, if_false]
        cases place <;> first | rfl | exact absurd rfl hplace
  | setSpanId spanId =>
      rw [call, HiTraceIdStruct.setSpanId, if_pos hvalid]
      cases place <;> first | rfl | exact absurd rfl hplace
  | setParentSpanId parentSpanId =>
      rw [call, HiTraceIdStruct.setParentSpanId, if_pos hvalid]
      cases place <;> first | rfl | exact absurd rfl hplace
  | setFlags flags =>
      rw [call, HiTraceIdStruct.setFlags]
      split
      · cases place <;> first | rfl | exact absurd rfl hplace
      · rfl
  | enableFlag flag =>
      rw [call, HiTraceIdStruct.enableFlag, if_pos hvalid]
      cases place <;> first | rfl | exact absurd rfl hplace

theorem call_of_invalid {setter : Setter} (hinvalid : id.isValid = false)
    (hsetter : setsChainId setter = false) : call id setter = id := by
  cases setter with
  | setChainId chainId =>
      have hzero : chainId = 0 := by simpa [setsChainId] using hsetter
      rw [call, HiTraceIdStruct.setChainId, if_pos hzero]
  | setSpanId spanId => simp [call, HiTraceIdStruct.setSpanId, hinvalid]
  | setParentSpanId parentSpanId =>
      simp [call, HiTraceIdStruct.setParentSpanId, hinvalid]
  | setFlags flags => simp [call, HiTraceIdStruct.setFlags, hinvalid]
  | enableFlag flag => simp [call, HiTraceIdStruct.enableFlag, hinvalid]

/-- The first chain id makes an id valid, and clears what it held. -/
theorem setChainId_of_invalid {chainId : UInt64} (hinvalid : id.isValid = false)
    (hchainId : chainId ≠ 0) :
    id.setChainId chainId =
      { valid := hitraceIdValid
        ver := hitraceVer1
        chainId := chainId.toBitVec.setWidth 60 } := by
  rw [HiTraceIdStruct.setChainId, if_neg hchainId, hinvalid]
  rfl

theorem setFlags_accepted {flags : Int} (hvalid : id.isValid = true)
    (hlow : hitraceFlagMin ≤ flags) (hhigh : flags < hitraceFlagMax) :
    id.setFlags flags = { id with flags := .ofInt 12 flags } := by
  simp [HiTraceIdStruct.setFlags, hvalid, hlow, hhigh]

theorem setFlags_refused {flags : Int}
    (hrefused : ¬ (hitraceFlagMin ≤ flags ∧ flags < hitraceFlagMax)) :
    id.setFlags flags = id := by
  have htests : (id.isValid && decide (flags ≥ hitraceFlagMin) &&
      decide (flags < hitraceFlagMax)) = false := by
    rw [Bool.and_assoc, ← Bool.decide_and, decide_eq_false hrefused, Bool.and_false]
  rw [HiTraceIdStruct.setFlags, htests, if_neg Bool.false_ne_true]

theorem enableFlag_of_valid (flag : UInt32) (hvalid : id.isValid = true) :
    id.enableFlag flag =
      { id with flags := (id.flags.setWidth 64 ||| flag.toBitVec.setWidth 64).setWidth 12 } :=
  if_pos hvalid

theorem toNat_ofInt_flags {flags : Int} (hlow : hitraceFlagMin ≤ flags)
    (hhigh : flags < hitraceFlagMax + 1) : (BitVec.ofInt 12 flags).toNat = flags.toNat := by
  rw [hitraceFlagMin] at hlow
  rw [hitraceFlagMax] at hhigh
  rw [BitVec.toNat_ofInt]
  omega

theorem fieldWrite_of_ne {place : Field} {setter : Setter} (hplace : place ≠ setter.target) :
    fieldWrite place setter = .keep := by
  cases setter <;> cases place <;> first | rfl | exact absurd rfl hplace

/-- A call on a valid id writes a field as its kind says, up to the width of the field. -/
theorem field_call_write {place : Field} {value : Nat} (setter : Setter)
    (hvalid : id.isValid = true) (hvalue : field id place = value % 2 ^ place.width) :
    field (call id setter) place =
      ((fieldWrite place setter).apply (· ||| ·) value) % 2 ^ place.width := by
  by_cases hplace : place = setter.target
  · subst hplace
    cases setter with
    | setChainId chainId =>
        by_cases hzero : chainId = 0
        · have hkeep : fieldWrite (Setter.setChainId chainId).target (.setChainId chainId) =
              .keep := if_pos hzero
          rw [hkeep, call, HiTraceIdStruct.setChainId, if_pos hzero]
          exact hvalue
        · have hset : fieldWrite (Setter.setChainId chainId).target (.setChainId chainId) =
              .set chainId.toNat := if_neg hzero
          rw [hset, call, HiTraceIdStruct.setChainId, if_neg hzero]
          exact BitVec.toNat_setWidth ..
    | setSpanId spanId =>
        rw [call, HiTraceIdStruct.setSpanId, if_pos hvalid]
        exact BitVec.toNat_setWidth ..
    | setParentSpanId parentSpanId =>
        rw [call, HiTraceIdStruct.setParentSpanId, if_pos hvalid]
        exact BitVec.toNat_setWidth ..
    | setFlags flags =>
        by_cases haccepted : hitraceFlagMin ≤ flags ∧ flags < hitraceFlagMax
        · have hset : fieldWrite (Setter.setFlags flags).target (.setFlags flags) =
              .set flags.toNat := if_pos haccepted
          obtain ⟨hlow, hhigh⟩ := haccepted
          have hsmall : flags.toNat < 2 ^ 12 := by
            rw [hitraceFlagMax] at hhigh
            omega
          rw [hset, call, setFlags_accepted hvalid hlow hhigh, Write.apply]
          exact (toNat_ofInt_flags hlow (by omega)).trans (Nat.mod_eq_of_lt hsmall).symm
        · have hkeep : fieldWrite (Setter.setFlags flags).target (.setFlags flags) =
              .keep := if_neg haccepted
          rw [hkeep, call, setFlags_refused haccepted]
          exact hvalue
    | enableFlag flag =>
        have hflags : id.flags.toNat = value % 2 ^ 12 := hvalue
        have hwide : value % 2 ^ 12 % 2 ^ 64 = value % 2 ^ 12 := Nat.mod_eq_of_lt (by omega)
        have hflag : flag.toNat % 2 ^ 64 = flag.toNat :=
          Nat.mod_eq_of_lt (flag.toNat_lt.trans (by decide))
        have hmerged : (id.flags.setWidth 64 ||| flag.toBitVec.setWidth 64).toNat % 2 ^ 12 =
            (value ||| flag.toNat) % 2 ^ 12 := by
          rw [BitVec.toNat_or, BitVec.toNat_setWidth, BitVec.toNat_setWidth, hflags, hwide,
            UInt32.toNat_toBitVec, hflag, Nat.or_mod_two_pow, Nat.mod_mod,
            ← Nat.or_mod_two_pow]
        rw [call, enableFlag_of_valid flag hvalid]
        exact (BitVec.toNat_setWidth ..).trans hmerged
  · rw [fieldWrite_of_ne hplace, field_call setter hvalid hplace]
    exact hvalue

end Call

/-! All calls. -/

section Run

variable {id : HiTraceIdStruct}

theorem isValid_run (setters : List Setter) (hvalid : id.isValid = true) :
    (run id setters).isValid = true := by
  induction setters generalizing id with
  | nil => exact hvalid
  | cons setter rest ih => exact ih (isValid_call setter hvalid)

theorem field_run {place : Field} {value : Nat} (hvalid : id.isValid = true)
    (hvalue : field id place = value % 2 ^ place.width) (setters : List Setter) :
    field (run id setters) place =
      Write.result (· ||| ·) value (setters.map (fieldWrite place)) % 2 ^ place.width := by
  have hinvariant : ∀ (id : HiTraceIdStruct) (setter : Setter), id.isValid = true →
      (call id setter).isValid = true := fun _ setter hvalid => isValid_call setter hvalid
  have hstep : ∀ (id : HiTraceIdStruct) (setter : Setter) (value : Nat), id.isValid = true →
      field id place = value % 2 ^ place.width →
      field (call id setter) place =
        ((fieldWrite place setter).apply (· ||| ·) value) % 2 ^ place.width :=
    fun _ setter _ hvalid hvalue => field_call_write setter hvalid hvalue
  exact @Write.foldl_tracks Nat _ _ _ call (fun id => id.isValid = true)
    (fun id => field id place) (fun value => value % 2 ^ place.width) (fieldWrite place)
    (· ||| ·) hinvariant hstep id value hvalid hvalue setters

theorem field_lt (id : HiTraceIdStruct) (place : Field) :
    field id place < 2 ^ place.width := by
  cases place <;> exact BitVec.isLt _

/-- The first chain id of an id that is not valid. -/
theorem field_call_initId {setter : Setter} (hsetter : setsChainId setter = true)
    {place : Field} (hplace : place ≠ .valid) :
    field (call .initId setter) place =
      ((fieldWrite place setter).apply (· ||| ·) (field .initId place)) % 2 ^ place.width := by
  cases setter with
  | setChainId chainId =>
      have hchainId : chainId ≠ 0 := by simpa [setsChainId] using hsetter
      have hset : chainIdWrite (.setChainId chainId) = .set chainId.toNat := if_neg hchainId
      rw [call, setChainId_of_invalid rfl hchainId]
      cases place with
      | chainId =>
          rw [fieldWrite, hset]
          exact BitVec.toNat_setWidth ..
      | valid => exact absurd rfl hplace
      | _ => rfl
  | _ => cases hsetter

/-- Calls on an id that is not valid do nothing up to the first chain id, and it does not
matter what the id held. -/
theorem run_of_invalid (hinvalid : id.isValid = false) (setters : List Setter) :
    run id setters =
      if setters.any setsChainId then
        run .initId (setters.dropWhile fun setter => !setsChainId setter)
      else id := by
  induction setters with
  | nil => rfl
  | cons setter rest ih =>
      cases hsetter : setsChainId setter with
      | false =>
          have hcall : run id (setter :: rest) = run id rest := by
            rw [run, List.foldl_cons, call_of_invalid hinvalid hsetter]
            rfl
          rw [hcall, ih]
          simp [hsetter]
      | true =>
          have hcall : call id setter = call .initId setter := by
            cases setter with
            | setChainId chainId =>
                have hchainId : chainId ≠ 0 := by simpa [setsChainId] using hsetter
                rw [call, call, setChainId_of_invalid hinvalid hchainId,
                  setChainId_of_invalid rfl hchainId]
            | _ => cases hsetter
          simp [run, hsetter, hcall]

/-- The calls from the first chain id on. -/
theorem dropWhile_setsChainId {setters : List Setter}
    (hsets : setters.any setsChainId = true) :
    ∃ first rest, setters.dropWhile (fun setter => !setsChainId setter) = first :: rest ∧
      setsChainId first = true := by
  induction setters with
  | nil => cases hsets
  | cons setter rest ih =>
      cases hsetter : setsChainId setter with
      | true => exact ⟨setter, rest, by simp [hsetter], hsetter⟩
      | false =>
          obtain ⟨first, tail, hdrop, hfirst⟩ := ih (by simpa [hsetter] using hsets)
          exact ⟨first, tail, by simpa [hsetter] using hdrop, hfirst⟩

theorem isValid_call_initId {setter : Setter} (hsetter : setsChainId setter = true) :
    (call .initId setter).isValid = true := by
  cases setter with
  | setChainId chainId =>
      have hchainId : chainId ≠ 0 := by simpa [setsChainId] using hsetter
      rw [call, setChainId_of_invalid rfl hchainId]
      rfl
  | _ => cases hsetter

/-- An id is valid behind the calls when it was before or a chain id was set. -/
theorem isValid_run_iff (id : HiTraceIdStruct) (setters : List Setter) :
    (run id setters).isValid = (id.isValid || setters.any setsChainId) := by
  cases hvalid : id.isValid with
  | true => simpa using isValid_run setters hvalid
  | false =>
      rw [run_of_invalid hvalid, Bool.false_or]
      split
      · next hsets =>
          obtain ⟨first, rest, hdrop, hfirst⟩ := dropWhile_setsChainId hsets
          rw [hdrop, hsets]
          exact isValid_run rest (isValid_call_initId hfirst)
      · next hsets => simp [hvalid, hsets]

/-- Every field of an id that is valid in the end holds what the accepted calls wrote. -/
theorem field_run_accepted (id : HiTraceIdStruct) (setters : List Setter)
    (hfinal : (run id setters).isValid = true) {place : Field} (hplace : place ≠ .valid) :
    field (run id setters) place =
      Write.result (· ||| ·) (field (accepted id setters).1 place)
        ((accepted id setters).2.map (fieldWrite place)) % 2 ^ place.width := by
  cases hvalid : id.isValid with
  | true =>
      rw [accepted, if_pos hvalid]
      apply field_run hvalid
      exact (Nat.mod_eq_of_lt (field_lt id place)).symm
  | false =>
      have hsets : setters.any setsChainId = true := by
        simpa [hvalid] using (isValid_run_iff id setters).symm.trans hfinal
      obtain ⟨first, rest, hdrop, hfirst⟩ := dropWhile_setsChainId hsets
      have hrun : run id setters = run (call .initId first) rest := by
        rw [run_of_invalid hvalid, if_pos hsets, hdrop]
        rfl
      rw [hrun, accepted, hvalid, if_neg Bool.false_ne_true, hdrop, List.map_cons,
        Write.result_cons]
      exact field_run (isValid_call_initId hfirst) (field_call_initId hfirst hplace) rest

end Run

/-! What the getters return. -/

section Getters

variable {id : HiTraceIdStruct}

theorem getChainId_of_valid (hvalid : id.isValid = true) : id.getChainId = id.chainId :=
  if_pos hvalid

theorem getSpanId_of_valid (hvalid : id.isValid = true) : id.getSpanId = id.spanId := by
  simp [HiTraceIdStruct.getSpanId, hvalid]

theorem getParentSpanId_of_valid (hvalid : id.isValid = true) :
    id.getParentSpanId = id.parentSpanId := by
  simp [HiTraceIdStruct.getParentSpanId, hvalid]

theorem getFlags_of_valid (hvalid : id.isValid = true) : id.getFlags = id.flags := by
  simp [HiTraceIdStruct.getFlags, hvalid]

/-- Only the flags are merged. -/
theorem mergeValue_fieldWrite {place : Field} (hplace : place ≠ .flags) (setter : Setter) :
    (fieldWrite place setter).mergeValue = none := by
  cases place with
  | chainId =>
      cases setter with
      | setChainId chainId =>
          rw [fieldWrite, chainIdWrite]
          split <;> rfl
      | _ => rfl
  | spanId => cases setter <;> rfl
  | parentSpanId => cases setter <;> rfl
  | flags => exact absurd rfl hplace
  | _ => rfl

theorem result_fieldWrite {place : Field} (hplace : place ≠ .flags) (start : Nat)
    (setters : List Setter) :
    Write.result (· ||| ·) start (setters.map (fieldWrite place)) =
      Write.lastSet start (setters.map (fieldWrite place)) := by
  apply Write.result_of_no_merge
  intro write hmem
  obtain ⟨setter, -, rfl⟩ := List.mem_map.mp hmem
  exact mergeValue_fieldWrite hplace setter

/-- The flags fit their field when those that are enabled do. -/
theorem result_flagsWrite_lt {start : Nat} (hstart : start < 2 ^ 12) {setters : List Setter}
    (henabled : ∀ flag, Setter.enableFlag flag ∈ setters → flag.toNat < 2 ^ 12) :
    Write.result (· ||| ·) start (setters.map flagsWrite) < 2 ^ 12 := by
  have hor : ∀ left right : Nat, left < 2 ^ 12 → right < 2 ^ 12 → left ||| right < 2 ^ 12 :=
    fun _ _ hleft hright => Nat.or_lt_two_pow hleft hright
  apply @Write.result_of_forall Nat _ (fun value => value < 2 ^ 12) hor _ hstart
  · intro value hmem
    obtain ⟨setter, -, hwrite⟩ := List.mem_map.mp hmem
    cases setter with
    | setFlags flags =>
        rw [flagsWrite] at hwrite
        split at hwrite
        · next haccepted =>
            have hvalue : flags.toNat = value := Write.set.inj hwrite
            rw [hitraceFlagMax] at haccepted
            omega
        · cases hwrite
    | _ => cases hwrite
  · intro value hmem
    obtain ⟨setter, hsetter, hwrite⟩ := List.mem_map.mp hmem
    cases setter with
    | enableFlag flag =>
        have hvalue : flag.toNat = value := Write.merge.inj hwrite
        exact hvalue ▸ henabled flag hsetter
    | setFlags flags =>
        rw [flagsWrite] at hwrite
        split at hwrite <;> cases hwrite
    | _ => cases hwrite

theorem tracked_run (id : HiTraceIdStruct) (setters : List Setter)
    (hfinal : (run id setters).isValid = true) :
    Tracked (accepted id setters).1 (accepted id setters).2 (run id setters) := by
  have hflags : (run id setters).getFlags.toNat =
      Write.result (· ||| ·) (accepted id setters).1.flags.toNat
        ((accepted id setters).2.map flagsWrite) % 2 ^ 12 := by
    rw [getFlags_of_valid hfinal]
    exact @field_run_accepted id setters hfinal .flags (by decide)
  constructor
  · rw [getChainId_of_valid hfinal]
    have hrun := @field_run_accepted id setters hfinal .chainId (by decide)
    rw [result_fieldWrite (by decide)] at hrun
    exact hrun
  · rw [getSpanId_of_valid hfinal]
    have hrun := @field_run_accepted id setters hfinal .spanId (by decide)
    rw [result_fieldWrite (by decide)] at hrun
    exact hrun
  · rw [getParentSpanId_of_valid hfinal]
    have hrun := @field_run_accepted id setters hfinal .parentSpanId (by decide)
    rw [result_fieldWrite (by decide)] at hrun
    exact hrun
  · exact hflags
  · intro henabled
    have hsmall := result_flagsWrite_lt (accepted id setters).1.flags.isLt henabled
    exact hflags.trans (Nat.mod_eq_of_lt hsmall)

end Getters

/-! The range of the flags. -/

theorem setFlagsAccepts_iff (flags : Int) :
    SetFlagsAccepts flags ↔ hitraceFlagMin ≤ flags ∧ flags < hitraceFlagMax := by
  constructor
  · intro haccepts
    by_contra hrefused
    -- An id whose flags are not the value already.
    have hother : ∃ id : HiTraceIdStruct, id.isValid = true ∧
        (id.getFlags.toNat : Int) ≠ flags := by
      by_cases hzero : flags = 0
      · exact ⟨{ valid := 1, flags := 1 }, rfl, by rw [hzero]; decide⟩
      · exact ⟨{ valid := 1 }, rfl, fun hflags => hzero hflags.symm⟩
    obtain ⟨id, hvalid, hflags⟩ := hother
    have hset := haccepts id hvalid
    rw [setFlags_refused hrefused] at hset
    exact hflags hset
  · intro haccepted id hvalid
    obtain ⟨hlow, hhigh⟩ := haccepted
    have hset := setFlags_accepted hvalid hlow hhigh
    have hstill : ({ id with flags := .ofInt 12 flags } : HiTraceIdStruct).isValid = true :=
      hvalid
    rw [hset, getFlags_of_valid hstill, toNat_ofInt_flags hlow (by omega)]
    exact Int.toNat_of_nonneg hlow

theorem beginAccepts_iff (flags : Int) :
    BeginAccepts flags ↔ hitraceFlagMin ≤ flags ∧ flags ≤ hitraceFlagMax := by
  constructor
  · intro haccepts
    by_contra hrefused
    let source : ChainIdSource := { tv := ⟨0, 0, by decide⟩, deviceId := 0, cpuId := 0 }
    have hvalid := haccepts ⟨.little, true⟩ source .initId rfl
    rw [ChainCall.chainBegin_of_not_begins _ _ fun hbegins => hrefused hbegins.2] at hvalid
    cases hvalid
  · intro haccepted platform source thread hthread
    obtain ⟨id, hbegin, hvalid, -⟩ :=
      ChainCall.chainBegin_of_begins platform thread ⟨hthread, haccepted⟩ source
    rw [hbegin]
    exact hvalid

/-- The two ranges differ in the largest value. -/
theorem accepts_iff (flags : Int) :
    (SetFlagsAccepts flags ↔ BeginAccepts flags) ↔ flags ≠ hitraceFlagMax := by
  rw [setFlagsAccepts_iff, beginAccepts_iff, hitraceFlagMin, hitraceFlagMax]
  omega

/-! Building an id with the setters. -/

/-- An argument of `HiTraceChainSetChainId` for every chain id, zero included. -/
def chainIdArgument (chainId : BitVec 60) : UInt64 :=
  .ofNat (chainId.toNat + 2 ^ 60)

theorem chainIdArgument_ne_zero (chainId : BitVec 60) : chainIdArgument chainId ≠ 0 := by
  intro hzero
  have hnat := congrArg UInt64.toNat hzero
  have hlt := chainId.isLt
  rw [chainIdArgument, UInt64.toNat_ofNat', UInt64.toNat_zero] at hnat
  omega

theorem setWidth_chainIdArgument (chainId : BitVec 60) :
    (chainIdArgument chainId).toBitVec.setWidth 60 = chainId := by
  apply BitVec.eq_of_toNat_eq
  have hlt := chainId.isLt
  rw [BitVec.toNat_setWidth, UInt64.toNat_toBitVec, chainIdArgument, UInt64.toNat_ofNat']
  omega

/-- The calls that build an id without spans. -/
def building (chainId : BitVec 60) (flags : Int) : List Setter :=
  .setChainId (chainIdArgument chainId) ::
    if flags < hitraceFlagMax then [.setFlags flags]
    else [.setFlags (hitraceFlagMax - 1), .enableFlag 1]

theorem run_building (chainId : BitVec 60) {flags : Int} (hlow : hitraceFlagMin ≤ flags)
    (hhigh : flags ≤ hitraceFlagMax) :
    run .initId (building chainId flags) =
      { valid := hitraceIdValid
        ver := hitraceVer1
        chainId := chainId
        flags := .ofInt 12 flags } := by
  have hchainId := @setChainId_of_invalid .initId _ rfl (chainIdArgument_ne_zero chainId)
  rw [setWidth_chainIdArgument] at hchainId
  rw [building, run, List.foldl_cons, call, hchainId]
  split
  · next hbelow => exact setFlags_accepted rfl hlow hbelow
  · next hbelow =>
      have hmax : flags = hitraceFlagMax := by omega
      have hset := @setFlags_accepted
        { valid := hitraceIdValid, ver := hitraceVer1, chainId := chainId }
        (hitraceFlagMax - 1) rfl (by decide) (by decide)
      -- The lowest bit is what the largest value has on top of the one before.
      have hmerge : ((BitVec.ofInt 12 (hitraceFlagMax - 1)).setWidth 64 |||
          (1 : UInt32).toBitVec.setWidth 64).setWidth 12 = BitVec.ofInt 12 flags := by
        rw [hmax]
        decide
      rw [List.foldl_cons, call, hset, List.foldl_cons, List.foldl_nil, call,
        enableFlag_of_valid 1 rfl, hmerge]

/-- Whatever id `HiTraceChainBegin` creates, the setters build too. -/
theorem chainBegin_is_built (platform : Platform) (source : ChainIdSource)
    {thread : HiTraceIdStruct} {flags : Int}
    (hbegun : (thread.chainBegin platform flags source).1.isValid = true) :
    ∃ setters, run .initId setters = (thread.chainBegin platform flags source).1 := by
  by_cases hbegins : ChainCall.Begins thread flags
  · obtain ⟨hinvalid, hlow, hhigh⟩ := hbegins
    refine ⟨building (.ofNat 60 (hiTraceChainCreateChainId platform.order source)) flags, ?_⟩
    rw [run_building _ hlow hhigh, HiTraceIdStruct.chainBegin, if_neg (by omega), hinvalid,
      if_neg Bool.false_ne_true]
  · rw [ChainCall.chainBegin_of_not_begins platform thread hbegins] at hbegun
    cases hbegun

/-! The accessors as a whole. -/

/-- What the accessors promise of an id, calls on it and a value of the flags. -/
structure Contract (id : HiTraceIdStruct) (setters : List Setter) (flags : Int) : Prop where
  isValid : (run id setters).isValid = (id.isValid || setters.any setsChainId)
  tracked : (run id setters).isValid = true →
    Tracked (accepted id setters).1 (accepted id setters).2 (run id setters)
  others : id.isValid = true → ∀ (setter : Setter) (place : Field),
    place ≠ setter.target → field (call id setter) place = field id place
  invalid : id.isValid = false → ∀ setter : Setter,
    setter.target ≠ .chainId → call id setter = id
  range : SetFlagsAccepts flags ↔ BeginAccepts flags
  built : ∀ (platform : Platform) (source : ChainIdSource) (thread : HiTraceIdStruct),
    (thread.chainBegin platform flags source).1.isValid = true →
      ∃ setters, run .initId setters = (thread.chainBegin platform flags source).1

/-- The promises are kept but for the largest value of the flags, which `HiTraceChainBegin`
takes and `HiTraceChainSetFlags` does not. -/
theorem accessors_iff (id : HiTraceIdStruct) (setters : List Setter) (flags : Int) :
    Contract id setters flags ↔ flags ≠ hitraceFlagMax := by
  constructor
  · intro hcontract
    exact (accepts_iff flags).mp hcontract.range
  · intro hflags
    constructor
    · exact isValid_run_iff id setters
    · exact tracked_run id setters
    · intro hvalid setter place hplace
      exact field_call setter hvalid hplace
    · intro hinvalid setter hsetter
      apply call_of_invalid hinvalid
      cases setter with
      | setChainId chainId => exact absurd rfl hsetter
      | _ => rfl
    · exact (accepts_iff flags).mpr hflags
    · intro platform source thread hbegun
      exact chainBegin_is_built platform source hbegun

/-- A valid id keeps its flags when they are set to the largest value, and a thread that
begins a chain with it gets them. -/
theorem setFlags_refuses_the_largest :
    ¬ Contract .initId [.setChainId 5, .setFlags hitraceFlagMax] hitraceFlagMax ∧
      (run .initId [.setChainId 5, .setFlags hitraceFlagMax]).getFlags = 0 ∧
      ((HiTraceIdStruct.initId.chainBegin ⟨.little, true⟩ hitraceFlagMax
        { tv := ⟨0, 0, by decide⟩, deviceId := 0, cpuId := 0 }).1).getFlags = 127 := by
  refine ⟨?_, by decide, by decide⟩
  intro hcontract
  exact (accepts_iff hitraceFlagMax).mp hcontract.range rfl

end Accessors

end Hitrace
