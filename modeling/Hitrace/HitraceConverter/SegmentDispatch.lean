import Hitrace.HitraceConverter.TraceFile

namespace Hitrace.HitraceConverter

/-! Which operator parses a segment of a given type. -/

namespace FieldType

def segmentEventsFormat : Int := 1
def segmentCmdlines : Int := 2
def segmentTgids : Int := 3
def segmentRawTrace : Int := 4
def segmentHeaderPage : Int := 30
def segmentPrintkFormats : Int := 31
def segmentKallsyms : Int := 32
def segmentUnsupport : Int := -1

end FieldType

inductive FieldOperator
  | cmdLinesSegment
  | tidGroupsSegment
  | eventFormatSegment
  | rawTraceSegment
  | printkFormatSegment
  | kallSymsSegment
  | headerPageSegment
  | unSupportSegment
deriving Repr, DecidableEq

def FieldOperator.fieldType : FieldOperator → Int
  | .cmdLinesSegment => FieldType.segmentCmdlines
  | .tidGroupsSegment => FieldType.segmentTgids
  | .eventFormatSegment => FieldType.segmentEventsFormat
  | .rawTraceSegment => FieldType.segmentRawTrace
  | .printkFormatSegment => FieldType.segmentPrintkFormats
  | .kallSymsSegment => FieldType.segmentKallsyms
  | .headerPageSegment => FieldType.segmentHeaderPage
  | .unSupportSegment => FieldType.segmentUnsupport

namespace SegmentWrapper

/-- The field list that `TraceFileFormat` hands to `SegmentWrapper`. -/
def fields : List FieldOperator :=
  [.cmdLinesSegment, .tidGroupsSegment, .eventFormatSegment, .rawTraceSegment,
    .printkFormatSegment, .kallSymsSegment, .headerPageSegment]

def getSegment : List FieldOperator → Nat → Nat → FieldOperator
  | [], _, _ => .unSupportSegment
  | field :: rest, segmentType, cpuNum =>
      if field.fieldType = segmentType then field
      else if field.fieldType < FieldType.segmentRawTrace then
        getSegment rest segmentType cpuNum
      else if field.fieldType > FieldType.segmentRawTrace + cpuNum then
        getSegment rest segmentType cpuNum
      else field

/-- The operator declared for a segment type. -/
def ownSegment (segmentType cpuNum : Nat) : FieldOperator :=
  if segmentType = 1 then .eventFormatSegment
  else if segmentType = 2 then .cmdLinesSegment
  else if segmentType = 3 then .tidGroupsSegment
  else if 4 ≤ segmentType ∧ segmentType < min (4 + cpuNum) 30 then .rawTraceSegment
  else if segmentType = 30 then .headerPageSegment
  else if segmentType = 31 then .printkFormatSegment
  else if segmentType = 32 then .kallSymsSegment
  else .unSupportSegment

/-! A field is passed over exactly when it is of another type and lies outside the
range that the raw segments use. -/

theorem getSegment_skip {field : FieldOperator} {rest : List FieldOperator}
    {segmentType cpuNum : Nat} (hother : field.fieldType ≠ segmentType)
    (hrange : field.fieldType < FieldType.segmentRawTrace) :
    getSegment (field :: rest) segmentType cpuNum =
      getSegment rest segmentType cpuNum := by
  rw [getSegment, if_neg hother, if_pos hrange]

theorem getSegment_inRange {field : FieldOperator} {rest : List FieldOperator}
    (segmentType : Nat) {cpuNum : Nat}
    (hlow : FieldType.segmentRawTrace ≤ field.fieldType)
    (hhigh : field.fieldType ≤ FieldType.segmentRawTrace + cpuNum) :
    getSegment (field :: rest) segmentType cpuNum = field := by
  rw [getSegment, if_neg (not_lt.mpr hlow), if_neg (not_lt.mpr hhigh), ite_self]

/-- The range tests look at the field, so every type that none of the three text
operators claims ends at the raw operator. -/
theorem getSegment_fields (segmentType cpuNum : Nat) :
    getSegment fields segmentType cpuNum =
      if segmentType = 1 then .eventFormatSegment
      else if segmentType = 2 then .cmdLinesSegment
      else if segmentType = 3 then .tidGroupsSegment
      else .rawTraceSegment := by
  have hraw : ∀ rest, getSegment (.rawTraceSegment :: rest) segmentType cpuNum =
      .rawTraceSegment := by
    intro rest
    apply getSegment_inRange
    · exact le_refl _
    · exact Int.le_add_of_nonneg_right (Int.natCast_nonneg cpuNum)
  by_cases hcmd : segmentType = 2
  · subst hcmd
    rfl
  by_cases htgids : segmentType = 3
  · subst htgids
    rfl
  by_cases hformat : segmentType = 1
  · subst hformat
    rfl
  rw [fields, getSegment_skip, getSegment_skip, getSegment_skip, hraw,
    if_neg hformat, if_neg hcmd, if_neg htgids]
  · simp only [FieldOperator.fieldType, FieldType.segmentEventsFormat]
    omega
  · decide
  · simp only [FieldOperator.fieldType, FieldType.segmentTgids]
    omega
  · decide
  · simp only [FieldOperator.fieldType, FieldType.segmentCmdlines]
    omega
  · decide

/-- A segment reaches the operator of its own type exactly when it is one of the
three text segments or a raw segment of a processor the header announces. -/
theorem getSegment_own_iff (segmentType cpuNum : Nat) :
    getSegment fields segmentType cpuNum = ownSegment segmentType cpuNum ↔
      (1 ≤ segmentType ∧ segmentType ≤ 3) ∨
        (4 ≤ segmentType ∧ segmentType < min (4 + cpuNum) 30) := by
  rw [getSegment_fields, ownSegment]
  by_cases htext : segmentType ≤ 3 ∧ 1 ≤ segmentType
  · obtain ⟨hhigh, hlow⟩ := htext
    interval_cases segmentType <;> simp
  · rw [if_neg (by omega), if_neg (by omega), if_neg (by omega), if_neg (by omega),
      if_neg (by omega), if_neg (by omega)]
    constructor
    · intro hsame
      split_ifs at hsame with hraw
      exact Or.inr hraw
    · rintro (hlow | hraw)
      · omega
      · rw [if_pos hraw]

theorem getSegment_printkFormats :
    ¬ ∀ segmentType cpuNum : Nat, segmentType < 2 ^ 32 → 1 ≤ cpuNum → cpuNum ≤ 31 →
      getSegment fields segmentType cpuNum = ownSegment segmentType cpuNum := by
  intro hown
  have hprintk := hown 31 8 (by norm_num) (by decide) (by decide)
  revert hprintk
  decide

end SegmentWrapper

end Hitrace.HitraceConverter
