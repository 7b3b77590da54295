import Hitrace.HitraceDump.OpenTrace
import Hitrace.Library.Transition
import Hitrace.Utils.ScanNumber

namespace Hitrace

open Library

/-! The number of links to a trace file, kept in its extended attribute `user.linknum` by
`AddSymlinkXattr` and `RemoveSymlinkXattr` of `hitrace_dump.cpp`. -/

namespace LinkCounter

def defaultXattrValueSize : Nat := 32

def intMax : Int := 2 ^ 31 - 1

/-- The `errno` with which each call on the attribute fails, behind the repetitions of
`TEMP_FAILURE_RETRY`. -/
structure XattrErrors where
  getxattr : Option Int := none
  setxattr : Option Int := none
  removexattr : Option Int := none
deriving Repr, DecidableEq

/-- The value that is read; `none` is the result -1.  A value that does not fit the buffer
is an error of the call. -/
def getxattr (linkNum : Option (List Char)) (error : Option Int) : Option (List Char) :=
  match error with
  | some _ => none
  | none => linkNum.filter fun value => value.length ≤ defaultXattrValueSize

/-- What a call returns, the attribute behind it, and whether `val++` has left `int`. -/
structure LinkResult where
  returned : Bool
  linkNum : Option (List Char)
  overflow : Bool := false
deriving Repr, DecidableEq

section Calls

variable (legal : Bool) (errors : XattrErrors) (linkNum : Option (List Char))

/-- `legal` is the answer of `IsTraceFilePathLegal`. -/
def addSymlinkXattr : LinkResult :=
  if !legal then ⟨false, linkNum, false⟩
  else
    match getxattr linkNum errors.getxattr with
    | none =>
        if errors.setxattr.isSome then ⟨false, linkNum, false⟩
        else ⟨true, some "1".toList, false⟩
    | some valueStr =>
        if valueStr.length ≥ defaultXattrValueSize then ⟨false, linkNum, false⟩
        else
          match stringToInt valueStr with
          | none => ⟨false, linkNum, false⟩
          | some val =>
              let next := (Int32.ofInt val + 1).toInt
              if errors.setxattr.isSome then ⟨false, linkNum, decide (val = intMax)⟩
              else ⟨true, some (intToString next), decide (val = intMax)⟩

def removeSymlinkXattr : LinkResult :=
  if !legal then ⟨false, linkNum, false⟩
  else
    match getxattr linkNum errors.getxattr with
    | none => ⟨false, linkNum, false⟩
    | some valueStr =>
        if valueStr.length ≥ defaultXattrValueSize then ⟨false, linkNum, false⟩
        else
          match stringToInt valueStr with
          | none => ⟨false, linkNum, false⟩
          | some val =>
              if val = 1 then
                if errors.removexattr.isSome then ⟨false, linkNum, false⟩
                else ⟨true, none, false⟩
              else if val > 1 then
                if errors.setxattr.isSome then ⟨false, linkNum, false⟩
                else ⟨true, some (intToString (val - 1)), false⟩
              else ⟨false, linkNum, false⟩

end Calls

/-! Calls on one file. -/

/-- The attribute, with the successful calls so far; `overflow` is set by the first
increment that leaves `int`. -/
structure LinkLog where
  linkNum : Option (List Char) := none
  adds : Nat := 0
  removes : Nat := 0
  overflow : Bool := false
deriving Repr, DecidableEq

inductive LinkCall
  | addSymlinkXattr (errors : XattrErrors)
  | removeSymlinkXattr (errors : XattrErrors)
deriving Repr, DecidableEq

def LinkCall.result (linkNum : Option (List Char)) : LinkCall → LinkResult
  | .addSymlinkXattr errors => LinkCounter.addSymlinkXattr true errors linkNum
  | .removeSymlinkXattr errors => LinkCounter.removeSymlinkXattr true errors linkNum

def LinkLog.step (log : LinkLog) (call : LinkCall) : LinkLog :=
  let result := call.result log.linkNum
  { linkNum := result.linkNum
    adds := match call with
      | .addSymlinkXattr _ => log.adds + result.returned.toNat
      | .removeSymlinkXattr _ => log.adds
    removes := match call with
      | .addSymlinkXattr _ => log.removes
      | .removeSymlinkXattr _ => log.removes + result.returned.toNat
    overflow := log.overflow || result.overflow }

def linkCounter : Machine LinkLog LinkCall where
  init := fun log => log = {}
  step := fun log call => some (log.step call)

/-- The attribute for a count. -/
def countText (count : Nat) : Option (List Char) :=
  if count = 0 then none else some (Decimal.text count)

/-- The stored count is that of the successful calls, and no increment has left `int`. -/
structure Exact (log : LinkLog) : Prop where
  ordered : log.removes ≤ log.adds
  linkNum : log.linkNum = countText (log.adds - log.removes)
  overflow : log.overflow = false

/-- The calls that keep the count: no add takes a read that fails for a missing attribute,
and none increments the largest `int`. -/
def Counts (log : LinkLog) : LinkCall → Prop
  | .removeSymlinkXattr _ => True
  | .addSymlinkXattr errors =>
      if errors.getxattr.isSome then log.linkNum = none ∨ errors.setxattr.isSome
      else log.linkNum ≠ some (intToString intMax)

/-! What the calls do to a count. -/

section Calls

variable {errors : XattrErrors} {count : Nat}

theorem stringToInt_text (hcount : count < 2 ^ 31) :
    stringToInt (Decimal.text count) = some (count : Int) := by
  have hscan : scanNumber (Decimal.text count).length (Decimal.text count ++ []) =
      some (false, Decimal.value (Decimal.text count), []) :=
    scanNumber_digits (fun _ => Decimal.isDigit_of_mem_text) (Decimal.text_ne_nil count)
      (.inl rfl)
  rw [List.append_nil, Decimal.value_text] at hscan
  simp only [stringToInt, Option.bind_eq_bind, Option.bind_eq_some_iff,
    Option.ite_none_right_eq_some, Bool.and_eq_true, decide_eq_true_eq,
    Option.some.injEq]
  have hlow : -2 ^ 31 ≤ (count : Int) := by omega
  have hhigh : (count : Int) < 2 ^ 31 := by omega
  exact ⟨(false, count, []), hscan, ⟨rfl, hlow, hhigh⟩, rfl⟩

theorem toInt_ofInt_succ (hcount : count + 1 < 2 ^ 31) :
    (Int32.ofInt (count : Int) + 1).toInt = (count + 1 : Nat) := by
  have hsame : (Int32.ofInt (count : Int)).toInt = count :=
    Int32.toInt_ofInt_of_le (by omega) (by omega)
  have hone : (1 : Int32).toInt = 1 := rfl
  rw [Int32.toInt_add, hsame, hone, Int.bmod_eq_of_le (by omega) (by omega)]
  omega

theorem intToString_natCast (count : Nat) : intToString (count : Int) = Decimal.text count :=
  rfl

theorem length_countText (hcount : count < 2 ^ 31) :
    (Decimal.text count).length < defaultXattrValueSize := by
  have hle : (Decimal.text count).length ≤ 10 :=
    Decimal.length_text_le (by decide) (by omega)
  exact Nat.lt_of_le_of_lt hle (by decide)

theorem getxattr_countText (hcount : count < 2 ^ 31) :
    getxattr (countText count) none = countText count := by
  have hlength := length_countText hcount
  rw [getxattr, countText]
  split
  · rfl
  · simp [hlength.le]

@[simp] theorem countText_zero : countText 0 = none := rfl

@[simp] theorem countText_succ (count : Nat) :
    countText (count + 1) = some (Decimal.text (count + 1)) := rfl

theorem countText_of_pos (hpos : 0 < count) : countText count = some (Decimal.text count) :=
  if_neg (by omega)

theorem countText_injective : Function.Injective countText := by
  intro left right htext
  cases left with
  | zero =>
      cases right with
      | zero => rfl
      | succ right => cases htext
  | succ left =>
      cases right with
      | zero => cases htext
      | succ right => exact Decimal.text_injective (Option.some.inj htext)

theorem countText_intMax (hcount : count + 1 = 2 ^ 31) :
    countText count = some (intToString intMax) := by
  have hint : intMax = (count : Int) := by
    rw [intMax]
    omega
  rw [hint, intToString_natCast, countText_of_pos (by omega)]

/-- A call that fails leaves the attribute alone. -/
theorem result_of_failed {linkNum : Option (List Char)} (call : LinkCall)
    (hfailed : (call.result linkNum).returned = false) :
    (call.result linkNum).linkNum = linkNum := by
  cases call with
  | addSymlinkXattr errors =>
      simp only [LinkCall.result, addSymlinkXattr] at hfailed ⊢
      grind
  | removeSymlinkXattr errors =>
      simp only [LinkCall.result, removeSymlinkXattr] at hfailed ⊢
      grind

/-- The read failed, or there is nothing to read. -/
theorem addSymlinkXattr_unread {linkNum : Option (List Char)}
    (hread : getxattr linkNum errors.getxattr = none) :
    addSymlinkXattr true errors linkNum =
      if errors.setxattr.isSome then ⟨false, linkNum, false⟩
      else ⟨true, some "1".toList, false⟩ := by
  simp [addSymlinkXattr, hread]

/-- What either call reads of a count. -/
theorem getxattr_of_pos (hpos : 0 < count) (hcount : count < 2 ^ 31) :
    getxattr (countText count) none = some (Decimal.text count) := by
  rw [getxattr_countText hcount, countText_of_pos hpos]

theorem addSymlinkXattr_read (hread : errors.getxattr = none) (hpos : 0 < count)
    (hcount : count < 2 ^ 31) :
    (addSymlinkXattr true errors (countText count)).overflow =
      decide ((count : Int) = intMax) := by
  have hlength := length_countText hcount
  have htext := getxattr_of_pos hpos hcount
  simp only [addSymlinkXattr, hread, htext, stringToInt_text hcount]
  rw [if_neg (by decide), if_neg (by omega)]
  split <;> rfl

theorem addSymlinkXattr_count (hread : errors.getxattr = none) (hpos : 0 < count)
    (hcount : count + 1 < 2 ^ 31) :
    addSymlinkXattr true errors (countText count) =
      if errors.setxattr.isSome then ⟨false, countText count, false⟩
      else ⟨true, countText (count + 1), false⟩ := by
  have hbound : count < 2 ^ 31 := Nat.lt_of_succ_lt hcount
  have hlength := length_countText hbound
  have htext := getxattr_of_pos hpos hbound
  have hint : ¬ (count : Int) = intMax := by
    rw [intMax]
    omega
  simp only [addSymlinkXattr, hread, htext, stringToInt_text hbound, toInt_ofInt_succ hcount,
    intToString_natCast, countText_succ, decide_eq_false hint]
  rw [if_neg (by decide), if_neg (by omega)]

/-- What an add makes of a count. -/
inductive AddStep (errors : XattrErrors) (count : Nat) : LinkResult → Prop
  | failed (hset : errors.setxattr.isSome = true)
      (hroom : errors.getxattr = none → count + 1 < 2 ^ 31) :
      AddStep errors count ⟨false, countText count, false⟩
  | first (hset : errors.setxattr.isSome = false)
      (hunread : errors.getxattr.isSome = true ∨ count = 0) :
      AddStep errors count ⟨true, countText 1, false⟩
  | next (hset : errors.setxattr.isSome = false) (hread : errors.getxattr = none)
      (hcount : count + 1 < 2 ^ 31) :
      AddStep errors count ⟨true, countText (count + 1), false⟩
  | leavesInt {result : LinkResult} (hread : errors.getxattr = none)
      (hcount : count + 1 = 2 ^ 31) (hoverflow : result.overflow = true) :
      AddStep errors count result

theorem addStep_unread (hread : getxattr (countText count) errors.getxattr = none)
    (hunread : errors.getxattr.isSome = true ∨ count = 0) :
    AddStep errors count (addSymlinkXattr true errors (countText count)) := by
  rw [addSymlinkXattr_unread hread]
  split
  · next hset =>
      refine .failed hset fun hnone => ?_
      rcases hunread with hsome | rfl
      · simp [hnone] at hsome
      · decide
  · next hset => exact .first (Bool.eq_false_iff.mpr hset) hunread

theorem addStep (hcount : count < 2 ^ 31) :
    AddStep errors count (addSymlinkXattr true errors (countText count)) := by
  cases hread : errors.getxattr with
  | some errno =>
      apply addStep_unread
      · rw [hread]
        rfl
      · simp [hread]
  | none =>
      rcases Nat.eq_zero_or_pos count with hzero | hpos
      · apply addStep_unread
        · rw [hread, hzero]
          rfl
        · exact .inr hzero
      · by_cases hlast : count + 1 = 2 ^ 31
        · refine .leavesInt hread hlast ?_
          have hint : (count : Int) = intMax := by
            rw [intMax]
            omega
          rw [addSymlinkXattr_read hread hpos hcount, decide_eq_true hint]
        · have hroom : count + 1 < 2 ^ 31 := by omega
          rw [addSymlinkXattr_count hread hpos hroom]
          split
          · next hset => exact .failed hset fun _ => hroom
          · next hset => exact .next (Bool.eq_false_iff.mpr hset) hread hroom

theorem removeSymlinkXattr_zero :
    removeSymlinkXattr true errors (countText 0) = ⟨false, countText 0, false⟩ := by
  cases hread : errors.getxattr <;> simp [removeSymlinkXattr, hread, getxattr]

/-- A remove either fails or takes one from the count. -/
theorem removeSymlinkXattr_count (errors : XattrErrors) (hcount : count + 1 < 2 ^ 31) :
    removeSymlinkXattr true errors (countText (count + 1)) =
        ⟨false, countText (count + 1), false⟩ ∨
      removeSymlinkXattr true errors (countText (count + 1)) =
        ⟨true, countText count, false⟩ := by
  cases hread : errors.getxattr with
  | some errno =>
      apply Or.inl
      simp [removeSymlinkXattr, hread, getxattr]
  | none =>
      have hlength := length_countText hcount
      have htext := getxattr_of_pos count.add_one_pos hcount
      simp only [removeSymlinkXattr, hread, htext, stringToInt_text hcount]
      rw [if_neg (by decide), if_neg (by omega)]
      cases count with
      | zero =>
          rw [if_pos (by rfl)]
          split
          · exact .inl rfl
          · exact .inr rfl
      | succ count =>
          have hbefore : ((count + 1 + 1 : Nat) : Int) - 1 = (count + 1 : Nat) := by omega
          rw [if_neg (by omega), if_pos (by omega), hbefore]
          split
          · exact .inl rfl
          · exact .inr rfl

end Calls

/-! Runs. -/

section Runs

variable {log : LinkLog}

/-- As long as no increment has left `int`, the attribute is absent or a positive count. -/
def Stored (log : LinkLog) : Prop :=
  log.overflow = false → ∃ count < 2 ^ 31, log.linkNum = countText count

theorem step_overflow {call : LinkCall} (hnext : (log.step call).overflow = false) :
    log.overflow = false ∧ (call.result log.linkNum).overflow = false :=
  Bool.or_eq_false_iff.mp hnext

theorem Stored.step (hstored : Stored log) (call : LinkCall) : Stored (log.step call) := by
  intro hnext
  obtain ⟨hlog, hresult⟩ := step_overflow hnext
  obtain ⟨count, hcount, hlinkNum⟩ := hstored hlog
  rw [hlinkNum] at hresult
  show ∃ count < 2 ^ 31, (call.result log.linkNum).linkNum = countText count
  rw [hlinkNum]
  cases call with
  | removeSymlinkXattr errors =>
      rw [LinkCall.result]
      cases count with
      | zero =>
          rw [removeSymlinkXattr_zero]
          exact ⟨0, hcount, rfl⟩
      | succ count =>
          rcases removeSymlinkXattr_count errors hcount with hsame | hless
          · rw [hsame]
            exact ⟨count + 1, hcount, rfl⟩
          · rw [hless]
            exact ⟨count, Nat.lt_of_succ_lt hcount, rfl⟩
  | addSymlinkXattr errors =>
      rw [LinkCall.result] at hresult ⊢
      generalize hadd : addSymlinkXattr true errors (countText count) = result at hresult
      cases hadd ▸ addStep hcount with
      | failed => exact ⟨count, hcount, rfl⟩
      | first => exact ⟨1, by omega, rfl⟩
      | next hset hread hroom => exact ⟨count + 1, hroom, rfl⟩
      | leavesInt hread hlast hoverflow =>
          rw [hoverflow] at hresult
          cases hresult

/-- The attribute read is not the largest `int`. -/
theorem countText_ne_intMax {count : Nat} (hcount : count + 1 < 2 ^ 31) :
    countText count ≠ some (intToString intMax) := by
  intro heq
  have hmax : countText (2 ^ 31 - 1) = some (intToString intMax) := countText_intMax rfl
  have hlast := countText_injective (heq.trans hmax.symm)
  omega

theorem Exact.step_iff (hexact : Exact log) (hstored : Stored log) (call : LinkCall) :
    Exact (log.step call) ↔ Counts log call := by
  obtain ⟨hordered, hlinkNum, hoverflow⟩ := hexact
  obtain ⟨count, hcount, hstoredCount⟩ := hstored hoverflow
  have hdiff : log.adds - log.removes = count :=
    countText_injective (hlinkNum.symm.trans hstoredCount)
  cases call with
  | removeSymlinkXattr errors =>
      rw [Counts, iff_true]
      generalize hremove : removeSymlinkXattr true errors (countText count) = result
      have hstep : log.step (.removeSymlinkXattr errors) =
          { linkNum := result.linkNum
            adds := log.adds
            removes := log.removes + result.returned.toNat
            overflow := log.overflow || result.overflow } := by
        simp only [LinkLog.step, LinkCall.result, hstoredCount, hremove]
      rw [hstep, hoverflow]
      cases count with
      | zero =>
          rw [removeSymlinkXattr_zero] at hremove
          subst hremove
          refine ⟨hordered, ?_, rfl⟩
          exact congrArg countText hdiff.symm
      | succ count =>
          rcases removeSymlinkXattr_count errors hcount with hsame | hless
          · rw [hsame] at hremove
            subst hremove
            refine ⟨hordered, ?_, rfl⟩
            exact congrArg countText hdiff.symm
          · rw [hless] at hremove
            subst hremove
            have hafter : log.adds - (log.removes + 1) = count := by omega
            refine ⟨?_, ?_, rfl⟩
            · show log.removes + 1 ≤ log.adds
              omega
            · exact congrArg countText hafter.symm
  | addSymlinkXattr errors =>
      rw [Counts, hstoredCount]
      generalize hadd : addSymlinkXattr true errors (countText count) = result
      have hstep : log.step (.addSymlinkXattr errors) =
          { linkNum := result.linkNum
            adds := log.adds + result.returned.toNat
            removes := log.removes
            overflow := log.overflow || result.overflow } := by
        simp only [LinkLog.step, LinkCall.result, hstoredCount, hadd]
      rw [hstep, hoverflow]
      have hmore : log.adds + 1 - log.removes = count + 1 := by omega
      cases hadd ▸ addStep hcount with
      | failed hset hroom =>
          refine iff_of_true ⟨hordered, congrArg countText hdiff.symm, rfl⟩ ?_
          split
          · exact .inr hset
          · next hread => exact countText_ne_intMax (hroom (by simpa using hread))
      | first hset hunread =>
          have hexact : Exact ⟨countText 1, log.adds + 1, log.removes, false⟩ ↔ count = 0 := by
            constructor
            · intro hnext
              have htext : countText 1 = countText (count + 1) :=
                hnext.linkNum.trans (congrArg countText hmore)
              have hone := countText_injective htext
              omega
            · intro hzero
              refine ⟨Nat.le_succ_of_le hordered, ?_, rfl⟩
              rw [hmore, hzero]
          refine hexact.trans ?_
          split
          · have hnone : countText count = none ↔ count = 0 :=
              countText_injective.eq_iff' rfl
            rw [hnone, hset]
            simp
          · next hread =>
              have hzero : count = 0 := hunread.resolve_left hread
              rw [hzero]
              refine iff_of_true rfl ?_
              intro hnone
              cases hnone
      | next hset hread hroom =>
          refine iff_of_true ⟨Nat.le_succ_of_le hordered, congrArg countText hmore.symm, rfl⟩ ?_
          rw [hread]
          exact countText_ne_intMax hroom
      | leavesInt hread hlast hleft =>
          refine iff_of_false ?_ ?_
          · intro hnext
            have hnever := hnext.overflow
            simp [hleft] at hnever
          · rw [hread]
            exact fun hother => hother (countText_intMax hlast)

theorem linkCounter_run (log : LinkLog) (calls : List LinkCall) :
    ∃ final, linkCounter.run log calls = some final := by
  induction calls generalizing log with
  | nil => exact ⟨log, rfl⟩
  | cons call rest ih => exact ih (log.step call)

theorem exact_init : Exact {} where
  ordered := Nat.le_refl 0
  linkNum := rfl
  overflow := rfl

/-- A call that returns false leaves the attribute unchanged. In a run from a file without
it, the count is that of the successful calls and no increment leaves `int`, all along,
if and only if no add takes a failed read of a count for a missing one and none counts
past the largest `int`. -/
theorem link_count_iff (calls : List LinkCall) :
    (∀ (linkNum : Option (List Char)) (call : LinkCall),
      (call.result linkNum).returned = false → (call.result linkNum).linkNum = linkNum) ∧
    (linkCounter.Along (fun _ log => Exact log) {} calls ↔
      linkCounter.Obeys Counts {} calls) := by
  refine ⟨fun _ call => result_of_failed call, ?_⟩
  obtain ⟨final, hrun⟩ := linkCounter_run {} calls
  have hinit : Stored {} := fun _ => ⟨0, by decide, rfl⟩
  refine @Machine.along_iff_obeys _ _ linkCounter _ (fun _ log => Stored log) _ _
    hinit exact_init ?_ ?_ _ _ hrun
  · intro _ log call next _ hstored hstep
    cases hstep
    exact hstored.step call
  · intro _ log call next _ hstored hexact hstep
    cases hstep
    exact hexact.step_iff hstored call

/-- Two links, then an add whose read fails with EIO: the count is 1 again. -/
theorem failed_read_restarts_the_count :
    ¬ ∀ calls, linkCounter.Along (fun _ log => Exact log) {} calls := by
  intro hall
  have hexact := hall
    [.addSymlinkXattr {}, .addSymlinkXattr {}, .addSymlinkXattr { getxattr := some 5 }] _ []
    ⟨some "1".toList, 3, 0, false⟩ (List.append_nil _).symm (by decide)
  exact absurd hexact.linkNum (by decide)

end Runs

end LinkCounter

end Hitrace
