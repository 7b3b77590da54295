import Hitrace.HitraceMeter.AppCapture
import Hitrace.HitraceMeter.MarkerRecord

namespace Hitrace.AppTrace

open Library

/-! The room `WriteAppTrace` reserves for a record, against the text `SetAppTraceBuffer`
formats. -/

/-! The parts of a record. -/

theorem length_padLeft_le {width length : Nat} (fill : UInt8) {text : List UInt8}
    (hwidth : width ≤ length) (htext : text.length ≤ length) :
    (padLeft width fill text).length ≤ length := by
  rw [padLeft, List.length_append, List.length_replicate]
  omega

theorem length_padRight_le {width : Nat} {text : List UInt8} (htext : text.length ≤ width) :
    (padRight width text).length ≤ width := by
  rw [padRight, List.length_append, List.length_replicate]
  omega

theorem length_setCommStr (name : List UInt8) : (setCommStr name).length = commStrMax := by
  rw [setCommStr]
  split
  · rw [List.length_drop]
    omega
  · rw [padLeft, List.length_append, List.length_replicate]
    omega

theorem length_idColumns_le (first second : ProcId) :
    (idColumns first second).length ≤ 18 := by
  have hfirst := length_padRight_le (length_decimal_le (by decide) first.bounded)
  have hsecond := length_padLeft_le 32 (Nat.le_refl pidStrMax)
    (length_decimal_le (by decide) second.bounded)
  have hdash : (bytesOf "-").length = 1 := rfl
  have hopen : (bytesOf " (").length = 2 := rfl
  have hclose : (bytesOf ")").length = 1 := rfl
  simp only [idColumns, List.length_append, hdash, hopen, hclose]
  simp only [pidStrMax] at hfirst hsecond ⊢
  omega

/-- The longest prefix: `comm-pid (tgid)`. -/
def prefixMax : Nat := 32

theorem length_threadInfo_le (name : List UInt8) (first second : ProcId) :
    (setCommStr name ++ idColumns first second).length ≤ prefixMax := by
  have hcolumns := length_idColumns_le first second
  rw [List.length_append, length_setCommStr, commStrMax, prefixMax]
  omega

theorem length_twoDigits {number : Nat} (hnumber : number < 64) :
    (twoDigits number).length = 2 := by
  have hdecimal : (decimal number).length ≤ 2 :=
    length_decimal_le (by decide) (Nat.lt_trans hnumber (by decide))
  rw [twoDigits, padLeft, List.length_append, List.length_replicate]
  omega

theorem length_flatMap_twoDigits_le {bits : List Nat} {count : Nat}
    (hbits : ∀ bit ∈ bits, bit < 64) :
    ((bits.take count).flatMap twoDigits).length ≤ 2 * count := by
  induction bits generalizing count with
  | nil => simp
  | cons bit rest ih =>
      obtain ⟨hbit, hrest⟩ := List.forall_mem_cons.mp hbits
      cases count with
      | zero => simp
      | succ count =>
          have hle : ((rest.take count).flatMap twoDigits).length ≤ 2 * count := ih hrest
          simp only [List.take_succ_cons, List.flatMap_cons, List.length_append,
            length_twoDigits hbit]
          omega

theorem length_parseTagBits_le (tag : UInt64) : (parseTagBits tag).length ≤ 4 := by
  have hfront (tagOption : UInt64) :
      (if tagOption = 1 then bytesOf "00" else if tagOption = 32 then bytesOf "05"
        else []).length ≤ 2 := by
    split
    · exact Nat.le_refl 2
    · split
      · exact Nat.le_refl 2
      · exact Nat.zero_le 2
  have hone (select : Nat → Bool) :
      ((((List.range 64).filter select).take 1).flatMap twoDigits).length ≤ 2 * 1 := by
    apply length_flatMap_twoDigits_le
    intro bit hbit
    exact List.mem_range.mp (List.mem_of_mem_filter hbit)
  have htwo (select : Nat → Bool) :
      (((((List.range 64).drop 1).filter select).take 2).flatMap twoDigits).length ≤
        2 * 2 := by
    apply length_flatMap_twoDigits_le
    intro bit hbit
    exact List.mem_range.mp (List.mem_of_mem_drop (List.mem_of_mem_filter hbit))
  rw [parseTagBits]
  split
  · exact Nat.le_trans (hfront _) (by decide)
  · split
    · rw [List.length_append]
      exact Nat.add_le_add (hfront _) (hone _)
    · exact htwo _

theorem length_value_le (value : Int64) : (bytesOf (toString value.toInt)).length ≤ 20 := by
  have hlow := value.le_toInt
  have hhigh := value.toInt_lt
  have hdigits : (decimal value.toInt.natAbs).length ≤ 19 :=
    length_decimal_le (by decide) (by omega)
  have hsign : (if value < 0 then bytesOf "-" else []).length ≤ 1 := by
    split
    · exact Nat.le_refl 1
    · exact Nat.zero_le 1
  have hvalue := MarkerRecord.signedDecimal_eq value
  rw [MarkerRecord.signedDecimal] at hvalue
  rw [hvalue, List.length_append]
  exact Nat.add_le_add hsign hdigits

theorem length_additionalParams_le (marker : TraceMarker) :
    (additionalParams marker).length ≤
      2 + marker.customArgs.length + marker.customCategory.length := by
  have hbar : (bytesOf "|").length = 1 := rfl
  rw [additionalParams]
  split
  · split
    · exact Nat.zero_le _
    · rw [List.length_append]
      omega
  · split
    · simp only [List.length_append]
      omega
    · split
      · rw [List.length_append]
        omega
      · exact Nat.zero_le _
  · exact Nat.zero_le _

/-- All that stands in front of the marker's own fields. -/
theorem length_recordText_le {appTracePrefix : List UInt8} {cpu : Nat} {call : MarkerCall}
    (hfront : appTracePrefix.length ≤ prefixMax) (hcpu : cpu < 10 ^ 3)
    (hsec : call.sec < 10 ^ 10) (hnsec : call.nsec < 10 ^ 9) :
    (recordText appTracePrefix cpu call).length < prefixMaxSize + call.marker.name.length +
      call.marker.customArgs.length + call.marker.customCategory.length := by
  have hmicro : call.nsec / 1000 < 10 ^ 6 := by omega
  have hcpuText := length_padLeft_le 48 (Nat.le_refl 3) (length_decimal_le (by decide) hcpu)
  have hsecText := length_decimal_le (by decide) hsec
  have hmicroText := length_padLeft_le 48 (Nat.le_refl 6)
    (length_decimal_le (by decide) hmicro)
  have hpid := length_decimal_le (by decide) call.marker.pid.bounded
  have hvalue := length_value_le call.marker.value
  have hbits := length_parseTagBits_le call.marker.tag
  have hparams := length_additionalParams_le call.marker
  have hlevel : (traceLevel call.marker.level).length = 1 := by
    cases call.marker.level <;> rfl
  have htype (type : MarkerType) : (markType type).length = 1 := by
    cases type <;> rfl
  have hspaces : (bytesOf "  ").length = 2 := rfl
  have hopen : (bytesOf " [").length = 2 := rfl
  have hclose : (bytesOf "] .... ").length = 7 := rfl
  have hpoint : (bytesOf ".").length = 1 := rfl
  have hwrite : (bytesOf ": tracing_mark_write: ").length = 22 := rfl
  have hbar : (bytesOf "|").length = 1 := rfl
  have hbegin : (bytesOf "B|").length = 2 := rfl
  have hend : (bytesOf "E|").length = 2 := rfl
  have hname : (bytesOf "|H:").length = 3 := rfl
  have hline : (bytesOf "\n").length = 1 := rfl
  simp only [recordText, List.length_append, hspaces, hopen, hclose, hpoint, hwrite, hline]
  simp only [prefixMax] at hfront
  simp only [prefixMaxSize]
  split
  · simp only [List.length_append, hlevel, hbegin, hname, hbar]
    omega
  · simp only [List.length_append, hlevel, hend, hbar]
    omega
  · simp only [List.length_append, hlevel, htype, hname, hbar]
    omega

/-! The prefix over whole runs. -/

namespace Capture

variable {capture next : Capture}

def PrefixBounded (capture : Capture) : Prop :=
  capture.appTracePrefix.length ≤ prefixMax

/-- A thread that finds no name goes on under the prefix that is there. -/
theorem PrefixBounded.setThreadInfo (hbounded : capture.PrefixBounded) (call : MarkerCall) :
    (capture.setThreadInfo call).PrefixBounded := by
  rw [Capture.setThreadInfo]
  split
  · split
    · exact length_threadInfo_le _ _ _
    · exact hbounded
  · simp only [PrefixBounded, allThreadInfo]
    split
    · exact hbounded
    · exact hbounded
    · exact length_threadInfo_le _ _ _

theorem setAppTrace_appTracePrefix {len : Int} {call : MarkerCall}
    (hset : capture.setAppTrace len call = some next) :
    next.appTracePrefix = capture.appTracePrefix := by
  have hbuffer : (capture.getTraceBuffer len).appTracePrefix = capture.appTracePrefix := by
    rw [getTraceBuffer]
    split <;> rfl
  simp only [setAppTrace] at hset
  split at hset
  · cases hset
  · split at hset
    · cases hset
      exact hbuffer
    · cases hset
      exact hbuffer

theorem writeAppTraceLong_appTracePrefix {len : Int} {call : MarkerCall}
    (hset : capture.writeAppTraceLong len call = some next) :
    next.appTracePrefix = capture.appTracePrefix := by
  simp only [writeAppTraceLong] at hset
  split at hset
  · cases hset
  · split at hset
    · cases hset
      rfl
    · cases hset
      rfl

theorem writeRecord_appTracePrefix {call : MarkerCall}
    (hwrite : capture.writeRecord call = some next) :
    next.appTracePrefix = (capture.setThreadInfo call).appTracePrefix := by
  rw [writeRecord] at hwrite
  split at hwrite
  · exact setAppTrace_appTracePrefix hwrite
  · exact writeAppTraceLong_appTracePrefix hwrite

end Capture

def PrefixBounded (app : AppTrace) : Prop :=
  ∀ capture, app.capture = some capture → capture.PrefixBounded

variable {app next : AppTrace}

theorem PrefixBounded.start (hbounded : app.PrefixBounded) (args : StartArgs) :
    (app.startCaptureAppTrace args).2.PrefixBounded := by
  rw [startCaptureAppTrace]
  split
  · exact hbounded
  · split
    · exact hbounded
    · split
      · exact hbounded
      · split
        · exact hbounded
        · intro capture hcapture
          cases hcapture
          exact Nat.zero_le _

theorem PrefixBounded.stop (hbounded : app.PrefixBounded) :
    app.stopCaptureAppTrace.2.PrefixBounded := by
  rw [stopCaptureAppTrace]
  split
  · exact hbounded
  · next capture hcapture =>
      split
      · intro other hother
        cases hother
        exact hbounded capture hcapture
      · intro other hother
        cases hother

theorem PrefixBounded.marker (hbounded : app.PrefixBounded) {call : MarkerCall}
    (hmarker : app.addHitraceMeterMarker call = some next) : next.PrefixBounded := by
  rw [addHitraceMeterMarker] at hmarker
  split at hmarker
  · cases hmarker
    exact hbounded
  · next capture hcapture =>
      split at hmarker
      · rw [writeAppTrace] at hmarker
        split at hmarker
        · cases hmarker
          exact hbounded
        · split at hmarker
          · cases hmarker
            exact hbounded.stop
          · obtain ⟨written, hwrite, hnext⟩ := Option.map_eq_some_iff.mp hmarker
            subst hnext
            intro other hother
            cases hother
            rw [Capture.PrefixBounded, Capture.writeRecord_appTracePrefix hwrite]
            exact (hbounded capture hcapture).setThreadInfo call
      · cases hmarker
        exact hbounded

theorem prefixBounded_step {log next : CaptureLog} {label : CaptureLog.Label}
    (hbounded : log.app.PrefixBounded) (hstep : log.step label = some next) :
    next.app.PrefixBounded := by
  have hfollow (record : Option (List UInt8)) (app : AppTrace) :
      (log.follow record app).app = app := by
    rw [CaptureLog.follow]
    split <;> rfl
  cases label with
  | startCaptureAppTrace args =>
      cases hstep
      rw [hfollow]
      exact hbounded.start args
  | addHitraceMeterMarker call =>
      obtain ⟨app, hmarker, hnext⟩ := Option.map_eq_some_iff.mp hstep
      rw [← hnext, hfollow]
      exact hbounded.marker hmarker
  | stopCaptureAppTrace =>
      cases hstep
      rw [hfollow]
      exact hbounded.stop

theorem prefixBounded_of_reachable {log : CaptureLog} (hreach : captureLog.Reachable log) :
    log.app.PrefixBounded := by
  apply captureLog.invariant_of_step _ _ hreach
  · intro start hstart capture hcapture
    cases hstart
    cases hcapture
  · intro state label next hbounded hstep
    exact prefixBounded_step hbounded hstep

/-- The room that `WriteAppTrace` computes is the one for the texts of the marker, the
record fits it, and `snprintf_s` reports its length. -/
structure Fits (appTracePrefix : List UInt8) (cpu : Nat) (call : MarkerCall) : Prop where
  reserved : recordLen call.marker = prefixMaxSize + call.marker.name.length +
    call.marker.customArgs.length + call.marker.customCategory.length
  text : (recordText appTracePrefix cpu call).length ≤ recordLen call.marker - 1
  formatted : ∀ (buffer : List UInt8) (start : Nat),
    start + recordLen call.marker ≤ buffer.length →
      ∃ next, setAppTraceBuffer buffer start (recordLen call.marker) appTracePrefix call =
        some (((recordText appTracePrefix cpu call).length : Int), next)

theorem setAppTraceBuffer_bytes {appTracePrefix : List UInt8} {cpu : Nat} {call : MarkerCall}
    (hcpu : call.cpu = some cpu) {len : Int}
    (htext : (recordText appTracePrefix cpu call).length < len) {buffer : List UInt8}
    {start : Nat} (hroom : start + len ≤ buffer.length) :
    ∃ next, setAppTraceBuffer buffer start len appTracePrefix call =
      some (((recordText appTracePrefix cpu call).length : Int), next) := by
  obtain ⟨bytes, next, hset, hstored⟩ :=
    setAppTraceBuffer_stored (fun _ => hroom) appTracePrefix call
  have hformatted : formatted appTracePrefix len call =
      some (recordText appTracePrefix cpu call) := by
    simp only [formatted, hcpu, htext, if_true]
  have hbytes := hstored.bytes
  rw [hformatted] at hbytes
  rw [hset, hbytes]
  exact ⟨next, rfl⟩

/-- Every record of a capture fits the room reserved for it, as long as that room is an
`int`. -/
theorem app_record_fits_iff {log : CaptureLog} (hreach : captureLog.Reachable log)
    {capture : Capture} (hcapture : log.app.capture = some capture) {call : MarkerCall}
    {cpu : Nat} (hcpu : call.cpu = some cpu) (hcpuNum : cpu < 1000)
    (hsec : call.sec < 10 ^ 10) (hnsec : call.nsec < 10 ^ 9) :
    Fits (capture.setThreadInfo call).appTracePrefix cpu call ↔
      call.marker.name.length + call.marker.customArgs.length +
        call.marker.customCategory.length < 2 ^ 31 - 128 := by
  have hbounded := (prefixBounded_of_reachable hreach capture hcapture).setThreadInfo call
  have hlength := length_recordText_le hbounded hcpuNum hsec hnsec
  simp only [prefixMaxSize] at hlength
  constructor
  · rintro ⟨hreserved, _, _⟩
    have hlen := (Capture.recordLen_bounds call.marker).2
    rw [hreserved, prefixMaxSize] at hlen
    omega
  · intro hsmall
    have hreserved : recordLen call.marker = prefixMaxSize + call.marker.name.length +
        call.marker.customArgs.length + call.marker.customCategory.length := by
      rw [recordLen, toInt, prefixMaxSize]
      exact Int.bmod_eq_of_le (by omega) (by omega)
    have htext : (recordText (capture.setThreadInfo call).appTracePrefix cpu call).length <
        recordLen call.marker := by
      rw [hreserved, prefixMaxSize]
      omega
    refine ⟨hreserved, by omega, ?_⟩
    intro buffer start hroom
    exact setAppTraceBuffer_bytes hcpu htext hroom

/-- A capture of all threads that has just begun. -/
def sampleArgs : StartArgs where
  flag := .allThread
  tags := hitraceTagApp
  limitSize := 4096
  tgid := (sampleCall .begin).marker.pid
  opened := .succ

def startedLog : CaptureLog where
  app := { capture := some (initTraceHead sampleArgs reservedHeader) }

theorem reachable_startedLog : captureLog.Reachable startedLog := by
  have hheader : formatHeader [] [] = some reservedHeader := formatHeader_eq rfl
  have hstart : (startCaptureAppTrace {} sampleArgs).2 = startedLog.app := by
    rw [startCaptureAppTrace, if_neg (by decide), if_neg (by decide), if_neg (by decide),
      hheader]
    rfl
  refine ⟨[.startCaptureAppTrace sampleArgs], {}, rfl, ?_⟩
  simp only [Machine.run, captureLog, CaptureLog.step, hstart]
  rfl

theorem app_record_fits_iff_begin :
    Fits ((initTraceHead sampleArgs reservedHeader).setThreadInfo
      (sampleCall .begin)).appTracePrefix 3 (sampleCall .begin) :=
  (app_record_fits_iff reachable_startedLog rfl rfl (by decide) (by decide) (by decide)).mpr
    (by decide)

/-- A call of the API with a name of this many bytes. -/
def namedCall (length : Nat) : MarkerCall :=
  { sampleCall .begin with
    marker := { (sampleCall .begin).marker with name := List.replicate length 97 } }

theorem length_name_le (appTracePrefix : List UInt8) (cpu : Nat) (call : MarkerCall)
    (htype : call.marker.type = .begin) :
    call.marker.name.length ≤ (recordText appTracePrefix cpu call).length := by
  simp only [recordText, htype, List.length_append]
  omega

/-- The sum for a name of 4 GB comes down to an `int` of 131, and the record is dropped. -/
theorem four_gb_name_is_dropped :
    ¬ ∀ (log : CaptureLog) (capture : Capture) (call : MarkerCall) (cpu : Nat),
      captureLog.Reachable log → log.app.capture = some capture → call.cpu = some cpu →
        cpu < 1000 → call.sec < 10 ^ 10 → call.nsec < 10 ^ 9 →
          ((recordText (capture.setThreadInfo call).appTracePrefix cpu call).length : Int) ≤
            recordLen call.marker - 1 := by
  intro hclaim
  have hle := hclaim startedLog _ (namedCall (2 ^ 32)) 3 reachable_startedLog rfl rfl
    (by decide) (by decide) (by decide)
  have hname : (namedCall (2 ^ 32)).marker.name.length = 2 ^ 32 := List.length_replicate
  have hargs : (namedCall (2 ^ 32)).marker.customArgs.length = 3 := rfl
  have hcategory : (namedCall (2 ^ 32)).marker.customCategory.length = 0 := rfl
  have hlen : recordLen (namedCall (2 ^ 32)).marker = 131 := by
    simp only [recordLen, toInt, hname, hargs, hcategory, prefixMaxSize]
    decide
  have hlong := length_name_le
    ((initTraceHead sampleArgs reservedHeader).setThreadInfo
      (namedCall (2 ^ 32))).appTracePrefix 3 (namedCall (2 ^ 32)) rfl
  rw [hname] at hlong
  rw [hlen] at hle
  omega

end Hitrace.AppTrace
