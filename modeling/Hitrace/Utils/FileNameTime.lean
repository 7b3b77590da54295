import Hitrace.TracedumpExecutor.NamedFile
import Hitrace.Utils.ScanNumber

namespace Hitrace

open Library

/-! The times in the name of a trace file, written by one function of
`utils/trace_file_utils.cpp` and read back by another. -/

/-- The fields of a `struct tm` that `localtime_r` has filled. -/
structure BrokenTime.InRange (time : BrokenTime) : Prop where
  mon : 0 ≤ time.mon ∧ time.mon ≤ 11
  mday : 1 ≤ time.mday ∧ time.mday ≤ 31
  hour : 0 ≤ time.hour ∧ time.hour ≤ 23
  min : 0 ≤ time.min ∧ time.min ≤ 59
  sec : 0 ≤ time.sec ∧ time.sec ≤ 60

/-- The years a name is made for. -/
def BrokenTime.Dated (time : BrokenTime) : Prop :=
  1971 ≤ time.year + 1900 ∧ time.year + 1900 ≤ 9999

instance (time : BrokenTime) : Decidable time.Dated :=
  inferInstanceAs (Decidable (_ ∧ _))

/-- The local time zone of the C library. -/
structure LocalTimeZone where
  localtimeR : UInt64 → Option BrokenTime
  mktime : BrokenTime → Option Int
  inRange : ∀ seconds time, localtimeR seconds = some time → time.InRange
  inverse : ∀ seconds time, localtimeR seconds = some time → time.Dated →
    mktime time = some (seconds.toNat : Int)

/-- `strftime` with `%Y%m%d%H%M%S`, for a time whose text fits `TIME_BUFFER_SIZE`. -/
def strftime (time : BrokenTime) : List Char :=
  Decimal.text (time.year + 1900).toNat ++ Decimal.padded 2 (time.mon + 1).toNat ++
    Decimal.padded 2 time.mday.toNat ++ Decimal.padded 2 time.hour.toNat ++
    Decimal.padded 2 time.min.toNat ++ Decimal.padded 2 time.sec.toNat

/-- The clocks and the file system in this time zone. -/
def LocalTimeZone.files (zone : LocalTimeZone) (environment : FileEnvironment) :
    FileEnvironment :=
  { environment with localTime := fun seconds => (zone.localtimeR seconds).map strftime }

/-! The text behind `trace_` is scanned field by field. -/

section Scan

variable {time : BrokenTime}

theorem scanInt_padded {number : Int} (hnumber : 0 ≤ number ∧ number < 10 ^ 2)
    (rest : List Char) :
    scanInt 2 (Decimal.padded 2 number.toNat ++ rest) = some (number, rest) := by
  have hlength : (Decimal.padded 2 number.toNat).length = 2 :=
    Decimal.length_padded (by decide) (by omega)
  have hscan := @scanNumber_digits _ rest 2 (fun _ => Decimal.isDigit_of_mem_padded)
    Decimal.padded_ne_nil (Or.inl hlength)
  rw [scanInt, hscan, Decimal.value_padded]
  simp only [Option.map_some, Bool.false_eq_true, if_false, Int.toNat_of_nonneg hnumber.1]

theorem scanInt_year (hdated : time.Dated) (rest : List Char) :
    scanInt 4 (Decimal.text (time.year + 1900).toNat ++ rest) =
      some (time.year + 1900, rest) := by
  obtain ⟨hfirst, hlast⟩ := hdated
  have hlength : (Decimal.text (time.year + 1900).toNat).length = 4 := by
    apply Nat.le_antisymm
    · exact Decimal.length_text_le (by decide) (by omega)
    · apply Nat.lt_of_not_le
      intro hshort
      have hless := (Nat.length_repr_le_iff (by decide)).mp hshort
      omega
  have hscan := @scanNumber_digits _ rest 4 (fun _ => Decimal.isDigit_of_mem_text)
    (Decimal.text_ne_nil _) (Or.inl hlength)
  rw [scanInt, hscan, Decimal.value_text]
  have hyear : ((time.year + 1900).toNat : Int) = time.year + 1900 := by omega
  simp only [Option.map_some, Bool.false_eq_true, if_false, hyear]

theorem scanUntilDash_text (number : Nat) (rest : List Char) :
    scanUntilDash (Decimal.text number ++ '-' :: rest) = some ('-' :: rest) := by
  have hdash : ∀ char ∈ Decimal.text number, (decide (char ≠ '-')) = true := by
    intro char hmem
    have hdigit := Decimal.isDigit_of_mem_text hmem
    rw [decide_eq_true_eq]
    rintro rfl
    exact absurd hdigit (by decide)
  obtain ⟨first, others, htext⟩ := List.exists_cons_of_ne_nil (Decimal.text_ne_nil number)
  have hfirst : first ≠ '-' := by
    have hmem := hdash first (htext ▸ List.mem_cons_self)
    exact of_decide_eq_true hmem
  have hdrop : (Decimal.text number ++ '-' :: rest).dropWhile (· ≠ '-') = '-' :: rest := by
    rw [List.dropWhile_append_of_pos hdash]
    rfl
  rw [htext, List.cons_append] at hdrop ⊢
  rw [scanUntilDash, if_neg hfirst, hdrop]

theorem scanUnsigned_text {number : Nat} (hnumber : number < 2 ^ 32) (rest : List Char) :
    scanUnsigned (Decimal.text number ++ '.' :: rest) =
      some (UInt32.ofNat number, '.' :: rest) := by
  have hstop : (Decimal.text number).length ≤ (Decimal.text number ++ '.' :: rest).length ∧
      ∀ char ∈ ('.' :: rest).head?, char.isDigit = false := by
    constructor
    · rw [List.length_append]
      omega
    · rintro char ⟨⟩
      rfl
  have hscan := scanNumber_digits (fun _ => Decimal.isDigit_of_mem_text)
    (Decimal.text_ne_nil number) (Or.inr hstop)
  have hsmall : min number (2 ^ 64 - 1) = number := by omega
  rw [scanUnsigned, hscan, Decimal.value_text]
  simp only [Option.map_some, Bool.false_eq_true, if_false, hsmall]

/-- The text of a name behind its prefix. -/
def nameTail (time : BrokenTime) (bootSec duration : Nat) : List Char :=
  strftime time ++ '@' :: Decimal.text bootSec ++ '-' :: Decimal.text duration ++
    ".sys".toList

theorem scanTraceName_nameTail (hrange : time.InRange) (hdated : time.Dated) (bootSec : Nat)
    {duration : Nat} (hduration : duration < 2 ^ 32) :
    scanTraceName (traceSnapshotPrefix ++ nameTail time bootSec duration) =
      some (time, UInt32.ofNat duration) := by
  obtain ⟨hmon, hmday, hhour, hmin, hsec⟩ := hrange
  have hsys : ".sys".toList = '.' :: "sys".toList := rfl
  have hyear : time.year + 1900 - 1900 = time.year := by omega
  have hmonth : time.mon + 1 - 1 = time.mon := by omega
  rw [scanTraceName, List.drop_left, nameTail, strftime, hsys]
  simp only [List.append_assoc, List.cons_append]
  simp only [Option.bind_eq_bind, scanInt_year hdated, Option.bind_some]
  rw [scanInt_padded (by omega), Option.bind_some, scanInt_padded (by omega),
    Option.bind_some, scanInt_padded (by omega), Option.bind_some,
    scanInt_padded (by omega), Option.bind_some, scanInt_padded (by omega),
    Option.bind_some]
  simp only [scanChar, if_true, Option.bind_some, scanUntilDash_text,
    scanUnsigned_text hduration, hyear, hmonth]
  rfl

end Scan

/-! The round trip. -/

section RoundTrip

variable (zone : LocalTimeZone) (environment : FileEnvironment)

/-- What is read of a name with these stamps. -/
def ReadsBack (first last : UInt64) (name : List Char) : Prop :=
  getStartAndEndTraceUtTimeFromFileName zone.mktime name =
    some (environment.convertPageTraceTimeToUtTimeMs first / sToMs * sToMs,
      environment.convertPageTraceTimeToUtTimeMs first / sToMs * sToMs +
        (last - first) / msToNs)

variable {zone environment} {first last : UInt64} {time : BrokenTime}

/-- A name is read from the first `trace_` on, which stands behind a known front. -/
theorem readsBack_nameTail
    (htime : zone.localtimeR (environment.convertPageTraceTimeToUtTimeMs first / sToMs) =
      some time)
    (hdated : time.Dated) (hduration : ((last - first) / msToNs).toNat < 2 ^ 32)
    {front : List Char} (bootSec : Nat)
    (hfront : ∀ rest, findWord traceSnapshotPrefix (front ++ (traceSnapshotPrefix ++ rest)) =
      some front.length) :
    ReadsBack zone environment first last
      (front ++ (traceSnapshotPrefix ++
        nameTail time bootSec ((last - first) / msToNs).toNat)) := by
  have hscan := scanTraceName_nameTail (zone.inRange _ _ htime) hdated bootSec hduration
  have hmktime := zone.inverse _ _ htime hdated
  have hnumber : (UInt32.ofNat ((last - first) / msToNs).toNat).toUInt64 =
      (last - first) / msToNs := by
    apply UInt64.toNat_inj.mp
    rw [UInt32.toNat_toUInt64, UInt32.toNat_ofNat_of_lt' hduration]
  have hseconds (seconds : UInt64) : UInt64.ofInt (seconds.toNat : Int) = seconds := by
    have hless := seconds.toNat_lt
    have hmod : ((seconds.toNat : Int) % 2 ^ 64).toNat = seconds.toNat := by omega
    rw [UInt64.ofInt, hmod, UInt64.ofNat_toNat]
  rw [ReadsBack, getStartAndEndTraceUtTimeFromFileName, hfront]
  simp only [Option.bind_eq_bind, Option.bind_some, List.drop_left, hscan, hmktime,
    hnumber, hseconds]
  rfl

/-- A file of this type in the default directory. -/
def storedName (traceType : TraceDumpType) (rest : List Char) : List Char :=
  traceFileDefaultDir ++ tracePrefixMap traceType ++ rest

/-- What stands in front of `trace_` in the names of a type. -/
def nameFront : TraceDumpType → List Char
  | .traceRecording => traceFileDefaultDir ++ "record_".toList
  | .traceCache => traceFileDefaultDir ++ "cache_".toList
  | _ => traceFileDefaultDir

theorem storedName_eq (traceType : TraceDumpType) (rest : List Char) :
    storedName traceType rest = nameFront traceType ++ (traceSnapshotPrefix ++ rest) := by
  cases traceType <;> rfl

theorem findWord_nameFront (traceType : TraceDumpType) (rest : List Char) :
    findWord traceSnapshotPrefix (nameFront traceType ++ (traceSnapshotPrefix ++ rest)) =
      some (nameFront traceType).length := by
  cases traceType <;> rfl

section Names

variable
  (htime : zone.localtimeR (environment.convertPageTraceTimeToUtTimeMs first / sToMs) =
    some time)

include htime

theorem generateTraceFileNameByTraceTime_eq (hordered : first < last)
    (traceType : TraceDumpType) :
    (zone.files environment).generateTraceFileNameByTraceTime traceType first last =
      storedName traceType
        (nameTail time (first / sToNs).toNat ((last - first) / msToNs).toNat) := by
  have hlocal : (zone.files environment).localTime
      ((zone.files environment).convertPageTraceTimeToUtTimeMs first / sToMs) =
        some (strftime time) := by
    rw [LocalTimeZone.files]
    exact congrArg (Option.map strftime) htime
  rw [FileEnvironment.generateTraceFileNameByTraceTime, if_neg (UInt64.not_le.mpr hordered)]
  dsimp only
  rw [hlocal]
  simp only [storedName, nameTail, List.append_assoc, List.cons_append]
  rfl

theorem regenerateTraceFileName_eq (traceType : TraceDumpType) (rest : List Char) :
    (zone.files environment).regenerateTraceFileName (storedName traceType rest) first
        ((last - first) / msToNs) [] =
      storedName traceType
        (nameTail time (first / sToNs).toNat ((last - first) / msToNs).toNat) := by
  have hlocal : (zone.files environment).localTime
      ((zone.files environment).convertPageTraceTimeToUtTimeMs first / sToMs) =
        some (strftime time) := by
    rw [LocalTimeZone.files]
    exact congrArg (Option.map strftime) htime
  have hnonempty : nameFront traceType ++ (traceSnapshotPrefix ++ rest) ≠ [] :=
    List.append_ne_nil_of_right_ne_nil _ (List.cons_ne_nil _ _)
  rw [storedName_eq, storedName_eq, FileEnvironment.regenerateTraceFileName]
  simp only [findWord_nameFront, Option.isNone_some, Bool.false_and, Bool.false_eq_true,
    if_false, hnonempty, hlocal, List.take_left]
  simp only [nameTail, List.append_assoc, List.cons_append]
  rfl

/-- Every name that is built from two page stamps gives their times back. -/
theorem file_name_time_round_trip (hdated : time.Dated) (hordered : first < last)
    (hdifference : (last - first).toNat < 2 ^ 32 * 10 ^ 6) :
    ReadsBack zone environment first last
        ((zone.files environment).generateTraceFileNameByTraceTime .traceSnapshot first
          last) ∧
      ∀ traceType rest,
        ReadsBack zone environment first last
            ((zone.files environment).regenerateTraceFileName (storedName traceType rest)
              first ((last - first) / msToNs) []) ∧
          ∀ newFileName, (zone.files environment).renameTraceFile
              (storedName traceType rest) ⟨first, last⟩ [] = some newFileName →
            ReadsBack zone environment first last newFileName := by
  have hduration : ((last - first) / msToNs).toNat < 2 ^ 32 := by
    have hms : msToNs.toNat = 10 ^ 6 := rfl
    rw [UInt64.toNat_div, hms]
    omega
  have hstored (traceType : TraceDumpType) : ReadsBack zone environment first last
      (storedName traceType
        (nameTail time (first / sToNs).toNat ((last - first) / msToNs).toNat)) := by
    rw [storedName_eq]
    exact readsBack_nameTail htime hdated hduration _ (findWord_nameFront traceType)
  refine ⟨?_, ?_⟩
  · rw [generateTraceFileNameByTraceTime_eq htime hordered]
    exact hstored _
  · intro traceType rest
    have hname := @regenerateTraceFileName_eq _ _ _ last _ htime traceType rest
    refine ⟨?_, ?_⟩
    · rw [hname]
      exact hstored traceType
    · intro newFileName hrename
      simp only [FileEnvironment.renameTraceFile, hname] at hrename
      rw [if_neg (UInt64.not_le.mpr hordered)] at hrename
      split at hrename
      · cases hrename
      · split at hrename
        · cases hrename
          exact hstored traceType
        · cases hrename

end Names

end RoundTrip

/-- One second of the autumn of 2023, in UTC. -/
def utcSecond : LocalTimeZone where
  localtimeR seconds := if seconds = 1700000000 then some ⟨123, 10, 14, 22, 13, 20⟩ else none
  mktime time := if time = ⟨123, 10, 14, 22, 13, 20⟩ then some 1700000000 else none
  inRange := by
    intro seconds time htime
    split at htime
    · cases htime
      exact ⟨by decide, by decide, by decide, by decide, by decide⟩
    · cases htime
  inverse := by
    intro seconds time htime _
    split at htime
    · next hseconds =>
        cases htime
        rw [if_pos rfl, hseconds]
        rfl
    · cases htime

/-- The clocks five seconds behind the start of the system. -/
def bootedEnvironment : FileEnvironment where
  clockOffset := 1699999995000
  localTime := fun _ => none
  fileExists := fun _ => true
  isDirectory := fun _ => false
  renames := fun _ _ => true
  fileSize := fun _ => none

theorem file_name_time_round_trip_second :
    ReadsBack utcSecond bootedEnvironment 5000000000 6500000000
        ((utcSecond.files bootedEnvironment).generateTraceFileNameByTraceTime .traceSnapshot
          5000000000 6500000000) ∧
      ∀ traceType rest,
        ReadsBack utcSecond bootedEnvironment 5000000000 6500000000
            ((utcSecond.files bootedEnvironment).regenerateTraceFileName
              (storedName traceType rest) 5000000000 ((6500000000 - 5000000000) / msToNs)
              []) ∧
          ∀ newFileName, (utcSecond.files bootedEnvironment).renameTraceFile
              (storedName traceType rest) ⟨5000000000, 6500000000⟩ [] = some newFileName →
            ReadsBack utcSecond bootedEnvironment 5000000000 6500000000 newFileName := by
  have htime : utcSecond.localtimeR
      (bootedEnvironment.convertPageTraceTimeToUtTimeMs 5000000000 / sToMs) =
        some ⟨123, 10, 14, 22, 13, 20⟩ := by decide
  exact file_name_time_round_trip htime (by decide) (by decide) (by decide)

end Hitrace
