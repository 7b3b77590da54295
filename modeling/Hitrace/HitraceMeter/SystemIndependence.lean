import Hitrace.HitraceMeter.AppCapture
import Hitrace.HitraceMeter.TraceMarker
import Hitrace.Library.Dependence

namespace Hitrace

open Library

namespace AppTrace

/-! Two captures of the same markers, at different times and on different
processors. -/

/-- The width of the columns that depend on the processor and the time. -/
def stampWidth (cpu : Option Nat) (sec nsec : Nat) : Option Nat :=
  cpu.map fun cpu => (padLeft 3 48 (decimal cpu)).length + (decimal sec).length +
    (padLeft 6 48 (decimal (nsec / 1000))).length

/-- The same call apart from the time and the processor. -/
structure MarkerCall.Alike (left right : MarkerCall) : Prop where
  marker : left.marker = right.marker
  tid : left.tid = right.tid
  procName : left.procName = right.procName
  comm : left.comm = right.comm
  stamp : stampWidth left.cpu left.sec left.nsec = stampWidth right.cpu right.sec right.nsec

/-- The same record apart from the time and the processor. -/
def SameText (left right : List UInt8) : Prop :=
  ∃ (appTracePrefix : List UInt8) (leftCpu rightCpu : Nat) (leftCall rightCall : MarkerCall),
    leftCall.Alike rightCall ∧ left = recordText appTracePrefix leftCpu leftCall ∧
      right = recordText appTracePrefix rightCpu rightCall

/-- Two captures that differ in what their records say about the time and the processor
only. -/
def Capture.Alike (left right : Capture) : Prop :=
  ∃ (file : PosixFile) (traceBuffer : List UInt8),
    traceBuffer.length = left.traceBuffer.length ∧ right = { left with file, traceBuffer }

variable {left right : MarkerCall}

theorem MarkerCall.Alike.cpus (halike : left.Alike right) :
    (left.cpu = none ∧ right.cpu = none) ∨
      ∃ leftCpu rightCpu, left.cpu = some leftCpu ∧ right.cpu = some rightCpu := by
  have hstamp := congrArg Option.isSome halike.stamp
  rw [stampWidth, stampWidth, Option.isSome_map, Option.isSome_map] at hstamp
  cases hleft : left.cpu with
  | none =>
      rw [hleft, Option.isSome_none, eq_comm, Option.isSome_eq_false_iff,
        Option.isNone_iff_eq_none] at hstamp
      exact Or.inl ⟨rfl, hstamp⟩
  | some leftCpu =>
      rw [hleft, Option.isSome_some, eq_comm, Option.isSome_iff_exists] at hstamp
      obtain ⟨rightCpu, hright⟩ := hstamp
      exact Or.inr ⟨leftCpu, rightCpu, rfl, hright⟩

theorem length_recordText (halike : left.Alike right) (appTracePrefix : List UInt8)
    {leftCpu rightCpu : Nat} (hleft : left.cpu = some leftCpu)
    (hright : right.cpu = some rightCpu) :
    (recordText appTracePrefix leftCpu left).length =
      (recordText appTracePrefix rightCpu right).length := by
  have hstamp := halike.stamp
  rw [hleft, hright, stampWidth, stampWidth, Option.map_some, Option.map_some,
    Option.some_inj] at hstamp
  simp only [recordText, List.length_append, halike.marker]
  omega

theorem length_overwrite {content content' : List UInt8} (offset : Nat)
    {bytes bytes' : List UInt8} (hcontent : content.length = content'.length)
    (hbytes : bytes.length = bytes'.length) :
    (PosixFile.overwrite content offset bytes).length =
      (PosixFile.overwrite content' offset bytes').length := by
  simp only [PosixFile.overwrite, List.length_append, List.length_take, List.length_drop,
    List.length_replicate, hcontent, hbytes]

def SameLength (left right : Int × List UInt8) : Prop :=
  left.1 = right.1 ∧ left.2.length = right.2.length

theorem snprintfS_alike {buffer buffer' : List UInt8} (start : Nat) (len : Int)
    {text text' : List UInt8} (hbuffer : buffer.length = buffer'.length)
    (htext : text.length = text'.length) :
    Option.Rel SameLength (snprintfS buffer start len text)
      (snprintfS buffer' start len text') := by
  rw [snprintfS, snprintfS, ← hbuffer, ← htext]
  split
  · exact .some ⟨rfl, hbuffer⟩
  split
  · exact .none
  split
  · exact .some ⟨rfl, length_overwrite start hbuffer (by simp [htext])⟩
  · exact .some ⟨rfl, length_overwrite start hbuffer (by simp [htext])⟩

theorem setAppTraceBuffer_alike (halike : left.Alike right) {buffer buffer' : List UInt8}
    (start : Nat) (len : Int) (appTracePrefix : List UInt8)
    (hbuffer : buffer.length = buffer'.length) :
    Option.Rel SameLength (setAppTraceBuffer buffer start len appTracePrefix left)
      (setAppTraceBuffer buffer' start len appTracePrefix right) := by
  rw [setAppTraceBuffer, setAppTraceBuffer]
  rcases halike.cpus with ⟨hleft, hright⟩ | ⟨leftCpu, rightCpu, hleft, hright⟩
  · rw [hleft, hright]
    exact .some ⟨rfl, hbuffer⟩
  · rw [hleft, hright]
    exact snprintfS_alike start len hbuffer
      (length_recordText halike appTracePrefix hleft hright)

theorem formatted_alike (halike : left.Alike right) (appTracePrefix : List UInt8)
    (len : Int) :
    Option.Rel SameText (formatted appTracePrefix len left)
      (formatted appTracePrefix len right) := by
  rw [formatted, formatted]
  rcases halike.cpus with ⟨hleft, hright⟩ | ⟨leftCpu, rightCpu, hleft, hright⟩
  · rw [hleft, hright]
    exact .none
  · rw [hleft, hright]
    dsimp only
    rw [length_recordText halike appTracePrefix hleft hright]
    split
    · exact .some ⟨appTracePrefix, leftCpu, rightCpu, left, right, halike, rfl, rfl⟩
    · exact .none

namespace Capture

variable {capture other : Capture}

theorem Alike.refl (capture : Capture) : capture.Alike capture :=
  ⟨capture.file, capture.traceBuffer, rfl, rfl⟩

theorem Alike.writeTraceToFile (halike : capture.Alike other) {bytes bytes' : List UInt8}
    (hbytes : bytes.length = bytes'.length) :
    (capture.writeTraceToFile bytes).Alike (other.writeTraceToFile bytes') := by
  obtain ⟨file, traceBuffer, hlength, rfl⟩ := halike
  refine ⟨file.write bytes', traceBuffer, hlength, ?_⟩
  simp only [Capture.writeTraceToFile, hbytes]

theorem Alike.flush (halike : capture.Alike other) : capture.flush.Alike other.flush := by
  apply halike.writeTraceToFile
  obtain ⟨file, traceBuffer, hlength, rfl⟩ := halike
  simp only [List.length_take, hlength]

theorem Alike.getTraceBuffer (halike : capture.Alike other) (size : Int) :
    (capture.getTraceBuffer size).Alike (other.getTraceBuffer size) := by
  have hoffset : capture.writeOffset = other.writeOffset := by
    obtain ⟨file, traceBuffer, hlength, rfl⟩ := halike
    rfl
  rw [Capture.getTraceBuffer, Capture.getTraceBuffer, hoffset]
  split
  · exact halike.flush
  · exact halike

theorem Alike.setAppTrace (halike : capture.Alike other) (hcall : left.Alike right)
    (len : Int) :
    Option.Rel Capture.Alike (capture.setAppTrace len left) (other.setAppTrace len right) := by
  have hready := halike.getTraceBuffer len
  rw [Capture.setAppTrace, Capture.setAppTrace]
  generalize capture.getTraceBuffer len = ready at hready
  generalize other.getTraceBuffer len = ready' at hready
  obtain ⟨file, traceBuffer, hlength, rfl⟩ := hready
  dsimp only
  have hstored := setAppTraceBuffer_alike hcall ready.writeOffset.toNat len
    ready.appTracePrefix hlength.symm
  generalize setAppTraceBuffer ready.traceBuffer ready.writeOffset.toNat len
    ready.appTracePrefix left = stored at hstored
  generalize setAppTraceBuffer traceBuffer ready.writeOffset.toNat len
    ready.appTracePrefix right = stored' at hstored
  cases hstored with
  | none => exact .none
  | @some first second hsame =>
      obtain ⟨bytes, buffer⟩ := first
      obtain ⟨bytes', buffer'⟩ := second
      obtain ⟨rfl, hbuffer⟩ := hsame
      dsimp only at hbuffer ⊢
      split
      · exact .some ⟨file, buffer', hbuffer.symm, rfl⟩
      · exact .some ⟨file, buffer', hbuffer.symm, rfl⟩

theorem Alike.writeAppTraceLong (halike : capture.Alike other) (hcall : left.Alike right)
    (len : Int) :
    Option.Rel Capture.Alike (capture.writeAppTraceLong len left)
      (other.writeAppTraceLong len right) := by
  have hready := halike.flush
  rw [Capture.writeAppTraceLong, Capture.writeAppTraceLong]
  generalize capture.flush = ready at hready
  generalize other.flush = ready' at hready
  have hthread : ready.appTracePrefix = ready'.appTracePrefix := by
    obtain ⟨file, traceBuffer, hlength, rfl⟩ := hready
    rfl
  dsimp only
  have hstored := setAppTraceBuffer_alike hcall 0 len ready.appTracePrefix
    (rfl : (List.replicate len.toNat (0 : UInt8)).length = _)
  rw [← hthread]
  generalize setAppTraceBuffer (List.replicate len.toNat 0) 0 len ready.appTracePrefix left =
    stored at hstored
  generalize setAppTraceBuffer (List.replicate len.toNat 0) 0 len ready.appTracePrefix right =
    stored' at hstored
  cases hstored with
  | none => exact .none
  | @some first second hsame =>
      obtain ⟨bytes, buffer⟩ := first
      obtain ⟨bytes', buffer'⟩ := second
      obtain ⟨rfl, hbuffer⟩ := hsame
      dsimp only at hbuffer ⊢
      split
      · have hwritten : (ready.writeTraceToFile (buffer.take bytes.toNat)).Alike
            (ready'.writeTraceToFile (buffer'.take bytes.toNat)) := by
          apply hready.writeTraceToFile
          simp only [List.length_take, hbuffer]
        obtain ⟨file, traceBuffer, hlength, hsame⟩ := hwritten
        rw [hsame]
        exact .some ⟨file, traceBuffer, hlength, rfl⟩
      · exact .some hready

theorem Alike.handles (halike : capture.Alike other) (hcall : left.Alike right) :
    capture.handles left = other.handles right := by
  obtain ⟨file, traceBuffer, hlength, rfl⟩ := halike
  rw [Capture.handles, Capture.handles, hcall.tid]

theorem Alike.exceedsLimit (halike : capture.Alike other) (len : Int) :
    capture.exceedsLimit len = other.exceedsLimit len := by
  obtain ⟨file, traceBuffer, hlength, rfl⟩ := halike
  rfl

theorem Alike.setThreadInfo (halike : capture.Alike other) (hcall : left.Alike right) :
    (capture.setThreadInfo left).Alike (other.setThreadInfo right) := by
  obtain ⟨file, traceBuffer, hlength, rfl⟩ := halike
  have hmain : mainThreadInfo left = mainThreadInfo right := by
    rw [mainThreadInfo, mainThreadInfo, hcall.procName, hcall.marker]
  have hall : allThreadInfo left = allThreadInfo right := by
    funext appTracePrefix
    rw [allThreadInfo, allThreadInfo, hcall.comm, hcall.tid, hcall.marker]
  rw [Capture.setThreadInfo, Capture.setThreadInfo]
  dsimp only
  rw [hmain, hall]
  split
  · split
    · exact ⟨file, traceBuffer, hlength, rfl⟩
    · exact ⟨file, traceBuffer, hlength, rfl⟩
  · exact ⟨file, traceBuffer, hlength, rfl⟩

theorem Alike.writeRecord (halike : capture.Alike other) (hcall : left.Alike right) :
    Option.Rel Capture.Alike (capture.writeRecord left) (other.writeRecord right) := by
  rw [Capture.writeRecord, Capture.writeRecord, hcall.marker]
  split
  · exact (halike.setThreadInfo hcall).setAppTrace hcall _
  · exact (halike.setThreadInfo hcall).writeAppTraceLong hcall _

theorem Alike.formats (halike : capture.Alike other) (hcall : left.Alike right) :
    Option.Rel SameText (capture.formats left) (other.formats right) := by
  have hthread : (capture.setThreadInfo left).appTracePrefix =
      (other.setThreadInfo right).appTracePrefix := by
    obtain ⟨file, traceBuffer, hlength, hsame⟩ := halike.setThreadInfo hcall
    rw [hsame]
  rw [Capture.formats, Capture.formats, halike.handles hcall, hcall.marker,
    halike.exceedsLimit, hthread]
  split
  · exact formatted_alike hcall _ _
  · exact .none

theorem Alike.eventNumStr (halike : capture.Alike other) :
    capture.eventNumStr = other.eventNumStr := by
  obtain ⟨file, traceBuffer, hlength, rfl⟩ := halike
  rfl

theorem Alike.reaches (halike : capture.Alike other) (hcall : left.Alike right) :
    AppTrace.reaches capture left = AppTrace.reaches other right := by
  obtain ⟨file, traceBuffer, hlength, rfl⟩ := halike
  rw [AppTrace.reaches, AppTrace.reaches, hcall.marker]

end Capture

def Alike (left right : AppTrace) : Prop :=
  Option.Rel Capture.Alike left.capture right.capture

variable {app other : AppTrace}

theorem Alike.cases (halike : app.Alike other) :
    (app.capture = none ∧ other.capture = none) ∨
      ∃ capture capture', app.capture = some capture ∧ other.capture = some capture' ∧
        capture.Alike capture' := by
  rw [Alike] at halike
  generalize app.capture = first at halike
  generalize other.capture = second at halike
  cases halike with
  | none => exact Or.inl ⟨rfl, rfl⟩
  | some hcapture => exact Or.inr ⟨_, _, rfl, rfl, hcapture⟩

theorem Alike.stop (halike : app.Alike other) :
    app.stopCaptureAppTrace.2.Alike other.stopCaptureAppTrace.2 := by
  rw [stopCaptureAppTrace, stopCaptureAppTrace]
  rcases halike.cases with ⟨hleft, hright⟩ | ⟨capture, capture', hleft, hright, hcapture⟩
  · rw [hleft, hright]
    exact halike
  · rw [hleft, hright]
    dsimp only
    rw [hcapture.eventNumStr]
    split
    · exact .some hcapture.flush
    · exact .none

theorem Alike.start (halike : app.Alike other) (args : StartArgs) :
    (app.startCaptureAppTrace args).2.Alike (other.startCaptureAppTrace args).2 := by
  have hon : app.capture.isSome = other.capture.isSome := by
    rcases halike.cases with ⟨hleft, hright⟩ | ⟨capture, capture', hleft, hright, _⟩
    · rw [hleft, hright]
    · rw [hleft, hright]
      rfl
  rw [startCaptureAppTrace, startCaptureAppTrace, hon]
  split
  · exact halike
  split
  · exact halike
  split
  · exact halike
  split
  · exact halike
  · exact .some (Capture.Alike.refl _)

theorem Alike.addHitraceMeterMarker (halike : app.Alike other) (hcall : left.Alike right) :
    Option.Rel Alike (app.addHitraceMeterMarker left) (other.addHitraceMeterMarker right) := by
  rw [AppTrace.addHitraceMeterMarker, AppTrace.addHitraceMeterMarker]
  rcases halike.cases with ⟨hleft, hright⟩ | ⟨capture, capture', hleft, hright, hcapture⟩
  · rw [hleft, hright]
    exact .some halike
  · rw [hleft, hright]
    dsimp only
    rw [hcapture.reaches hcall]
    split
    · rw [writeAppTrace, writeAppTrace, hcapture.handles hcall, hcall.marker,
        hcapture.exceedsLimit]
      split
      · exact .some halike
      split
      · exact .some halike.stop
      · exact rel_map (hcapture.writeRecord hcall) fun _ _ hnext => .some hnext
    · exact .some halike

namespace CaptureLog

/-- The logs of two runs list the same records. -/
structure SameRecords (left right : CaptureLog) : Prop where
  app : left.app.Alike right.app
  records : List.Forall₂ SameText left.records right.records
  closed : List.Forall₂ (List.Forall₂ SameText) left.closed right.closed

variable {log log' : CaptureLog}

theorem SameRecords.record (hsame : log.SameRecords log') (hcall : left.Alike right) :
    Option.Rel SameText (log.record left) (log'.record right) := by
  rw [CaptureLog.record, CaptureLog.record]
  rcases hsame.app.cases with ⟨hleft, hright⟩ | ⟨capture, capture', hleft, hright, hcapture⟩
  · rw [hleft, hright]
    exact .none
  · rw [hleft, hright]
    dsimp only
    rw [hcapture.reaches hcall]
    split
    · exact hcapture.formats hcall
    · exact .none

theorem SameRecords.follow (hsame : log.SameRecords log') {record record' : Option (List UInt8)}
    (hrecord : Option.Rel SameText record record') {app app' : AppTrace}
    (happ : app.Alike app') :
    (log.follow record app).SameRecords (log'.follow record' app') := by
  have hadded : List.Forall₂ SameText (log.records ++ record.toList)
      (log'.records ++ record'.toList) := by
    apply List.rel_append hsame.records
    cases hrecord with
    | none => exact .nil
    | some htext => exact .cons htext .nil
  have hclosing : (log.app.capture.isSome && app.capture.isNone) =
      (log'.app.capture.isSome && app'.capture.isNone) := by
    rcases hsame.app.cases with ⟨hleft, hright⟩ | ⟨capture, capture', hleft, hright, _⟩
    · rw [hleft, hright]
      rfl
    · rcases happ.cases with ⟨hnext, hnext'⟩ | ⟨next, next', hnext, hnext', _⟩
      · rw [hleft, hright, hnext, hnext']
        rfl
      · rw [hleft, hright, hnext, hnext']
        rfl
  rw [CaptureLog.follow, CaptureLog.follow, hclosing]
  split
  · exact ⟨happ, .nil, List.rel_append hsame.closed (.cons hadded .nil)⟩
  · exact ⟨happ, hadded, hsame.closed⟩

theorem step_idle {call : MarkerCall}
    (hidle : ∀ capture, log.app.capture = some capture → reaches capture call = true →
      capture.handles call = true → False) :
    log.step (.addHitraceMeterMarker call) = some log := by
  rw [CaptureLog.step, AppTrace.addHitraceMeterMarker, CaptureLog.record]
  cases hcapture : log.app.capture with
  | none =>
      dsimp only
      rw [Option.map_some, follow_same]
  | some capture =>
      dsimp only
      cases hreaches : reaches capture call with
      | false => simp [follow_same]
      | true =>
          have hhandles : capture.handles call = false := by
            rw [← Bool.not_eq_true]
            exact hidle capture hcapture hreaches
          simp [writeAppTrace, Capture.formats, hhandles, follow_same]

theorem SameRecords.step (hsame : log.SameRecords log') (hcall : left.Alike right) :
    Option.Rel SameRecords (log.step (.addHitraceMeterMarker left))
      (log'.step (.addHitraceMeterMarker right)) :=
  rel_map (hsame.app.addHitraceMeterMarker hcall) fun _ _ happ =>
    hsame.follow (hsame.record hcall) happ

end CaptureLog

end AppTrace

namespace HitraceMeter

open AppTrace

namespace SystemSettings

/-- The system branch ends the call. -/
def filters (settings : SystemSettings) (marker : TraceMarker) : Bool :=
  settings.matchesTag marker.tag && settings.drops (raiseLevel marker)

/-- The marker as the system branch leaves it. -/
def leveled (settings : SystemSettings) (marker : TraceMarker) : TraceMarker :=
  if settings.matchesTag marker.tag then raiseLevel marker else marker

end SystemSettings

/-- The marker that is offered to the app capture. -/
def offered (settings : SystemSettings) (prepared : Bool) (caller : Caller)
    (request : MarkerRequest) : Option MarkerCall :=
  match request.marker caller.pid with
  | none => none
  | some marker =>
      if !prepared || settings.filters marker then none
      else some (caller.call (settings.leveled marker))

theorem addHitraceMeterMarker_app (settings : SystemSettings) (prepared : Bool)
    (caller : Caller) (request : MarkerRequest) (app : AppTrace) :
    (addHitraceMeterMarker settings prepared caller request app).map Prod.fst =
      match offered settings prepared caller request with
      | none => some app
      | some call => app.addHitraceMeterMarker call := by
  rw [addHitraceMeterMarker, offered]
  cases request.marker caller.pid with
  | none => rfl
  | some marker =>
      dsimp only
      cases prepared with
      | false => rfl
      | true =>
          rw [SystemSettings.filters, SystemSettings.leveled]
          cases settings.matchesTag marker.tag with
          | false => simp [Function.comp_def]
          | true =>
              cases hdrops : settings.drops (raiseLevel marker) with
              | true => simp
              | false => simp [Function.comp_def]

/-! Two processes with the same capture and different system-wide settings. -/

inductive MeterLabel
  | startCaptureAppTrace (args : StartArgs)
  | addHitraceMeterMarker (settings : SystemSettings) (prepared : Bool) (caller : Caller)
      (request : MarkerRequest)
  | stopCaptureAppTrace

def meterStep (log : CaptureLog) : MeterLabel → Option CaptureLog
  | .startCaptureAppTrace args =>
      some (log.follow none (log.app.startCaptureAppTrace args).2)
  | .addHitraceMeterMarker settings prepared caller request =>
      (addHitraceMeterMarker settings prepared caller request log.app).map fun result =>
        log.follow ((offered settings prepared caller request).bind log.record) result.1
  | .stopCaptureAppTrace => some (log.follow none log.app.stopCaptureAppTrace.2)

def meterLog : Machine CaptureLog MeterLabel where
  init := fun log => log = {}
  step := meterStep

theorem meterStep_marker (log : CaptureLog) (settings : SystemSettings) (prepared : Bool)
    (caller : Caller) (request : MarkerRequest) :
    meterStep log (.addHitraceMeterMarker settings prepared caller request) =
      match offered settings prepared caller request with
      | none => some log
      | some call => log.step (.addHitraceMeterMarker call) := by
  have happ := addHitraceMeterMarker_app settings prepared caller request log.app
  have hstep : meterStep log (.addHitraceMeterMarker settings prepared caller request) =
      ((addHitraceMeterMarker settings prepared caller request log.app).map Prod.fst).map
        (log.follow ((offered settings prepared caller request).bind log.record)) := by
    rw [meterStep, Option.map_map]
    rfl
  rw [hstep, happ]
  cases offered settings prepared caller request with
  | none =>
      dsimp only
      rw [Option.bind_none, Option.map_some, CaptureLog.follow_same]
  | some call => rfl

/-- The limit leaves room for the reserved header. -/
def MeterLabel.LimitHolds : MeterLabel → Prop
  | .startCaptureAppTrace args => reservedHeader.length ≤ args.limitSize.toNat
  | _ => True

theorem sound_meterStep {log : CaptureLog} (hsound : log.Sound) {label : MeterLabel}
    (hlimit : label.LimitHolds) : ∃ next, meterStep log label = some next ∧ next.Sound := by
  cases label with
  | startCaptureAppTrace args => exact ⟨_, rfl, hsound.start hlimit⟩
  | stopCaptureAppTrace => exact ⟨_, rfl, hsound.stop⟩
  | addHitraceMeterMarker settings prepared caller request =>
      rw [meterStep_marker]
      cases offered settings prepared caller request with
      | none => exact ⟨log, rfl, hsound⟩
      | some call => exact hsound.marker call

theorem sound_meterLog {log : CaptureLog} (hsound : log.Sound) {labels : List MeterLabel}
    (hlimits : ∀ label ∈ labels, label.LimitHolds) :
    ∃ final, meterLog.run log labels = some final ∧ final.Sound := by
  induction labels generalizing log with
  | nil => exact ⟨log, rfl, hsound⟩
  | cons label rest ih =>
      obtain ⟨hlimit, hrest⟩ := List.forall_mem_cons.mp hlimits
      obtain ⟨next, hstep, hnext⟩ := sound_meterStep hsound hlimit
      rw [meterLog.run_cons_of_step hstep]
      exact ih hnext hrest

theorem sound_start : CaptureLog.Sound {} where
  capturing := by
    intro capture hcapture
    cases hcapture
  idle := fun _ => rfl
  closed := .nil

/-- The same thread, at another time and on another processor. -/
structure Caller.Alike (left right : Caller) : Prop where
  pid : left.pid = right.pid
  tid : left.tid = right.tid
  procName : left.procName = right.procName
  comm : left.comm = right.comm
  stamp : stampWidth left.cpu left.sec left.nsec = stampWidth right.cpu right.sec right.nsec

/-- The same call in both runs, under any settings. -/
inductive Paired : MeterLabel → MeterLabel → Prop
  | startCaptureAppTrace (args : StartArgs) :
      Paired (.startCaptureAppTrace args) (.startCaptureAppTrace args)
  | addHitraceMeterMarker (settings settings' : SystemSettings) (prepared : Bool)
      {caller caller' : Caller} (halike : caller.Alike caller') (request : MarkerRequest) :
      Paired (.addHitraceMeterMarker settings prepared caller request)
        (.addHitraceMeterMarker settings' prepared caller' request)
  | stopCaptureAppTrace : Paired .stopCaptureAppTrace .stopCaptureAppTrace

theorem Paired.limitHolds {left right : MeterLabel} (hpaired : Paired left right)
    (hlimit : left.LimitHolds) : right.LimitHolds := by
  cases hpaired with
  | startCaptureAppTrace args => exact hlimit
  | addHitraceMeterMarker settings settings' prepared halike request => trivial
  | stopCaptureAppTrace => trivial

/-- A marker that is for the capture is filtered in both runs or in none, and then gets
the same level. -/
def Undisturbed (log : CaptureLog) : MeterLabel × MeterLabel → Prop
  | (.addHitraceMeterMarker settings _ caller request,
      .addHitraceMeterMarker settings' _ _ _) =>
      ∀ capture marker, log.app.capture = some capture →
        request.marker caller.pid = some marker →
        reaches capture (caller.call marker) = true →
        capture.handles (caller.call marker) = true →
          settings.filters marker = settings'.filters marker ∧
            (settings.filters marker = false →
              (settings.leveled marker).level = (settings'.leveled marker).level)
  | _ => True

theorem Caller.Alike.call {caller caller' : Caller} (halike : caller.Alike caller')
    (marker : TraceMarker) : (caller.call marker).Alike (caller'.call marker) where
  marker := rfl
  tid := halike.tid
  procName := halike.procName
  comm := halike.comm
  stamp := halike.stamp

/-- The settings change the level of a marker only. -/
theorem leveled_eq (settings : SystemSettings) (marker : TraceMarker) :
    settings.leveled marker = { marker with level := (settings.leveled marker).level } := by
  rw [SystemSettings.leveled, raiseLevel]
  split
  · split <;> rfl
  · rfl

theorem leveled_congr {settings settings' : SystemSettings} {marker : TraceMarker}
    (hlevel : (settings.leveled marker).level = (settings'.leveled marker).level) :
    settings.leveled marker = settings'.leveled marker := by
  rw [leveled_eq settings, leveled_eq settings', hlevel]

theorem reaches_leveled (settings : SystemSettings) (capture : Capture) (caller : Caller)
    (marker : TraceMarker) :
    reaches capture (caller.call (settings.leveled marker)) =
      reaches capture (caller.call marker) := by
  rw [leveled_eq]
  rfl

theorem offered_eq (settings : SystemSettings) {caller : Caller} {request : MarkerRequest}
    {marker : TraceMarker} (hmarker : request.marker caller.pid = some marker) :
    offered settings true caller request =
      if settings.filters marker then none
      else some (caller.call (settings.leveled marker)) := by
  rw [offered, hmarker]
  rfl

theorem meterStep_idle {log : CaptureLog} (settings : SystemSettings) {caller : Caller}
    {request : MarkerRequest} {marker : TraceMarker}
    (hmarker : request.marker caller.pid = some marker)
    (hidle : ∀ capture, log.app.capture = some capture →
      reaches capture (caller.call marker) = true →
      capture.handles (caller.call marker) = true → False) :
    meterStep log (.addHitraceMeterMarker settings true caller request) = some log := by
  rw [meterStep_marker, offered_eq settings hmarker]
  split
  · rfl
  · next call hcall =>
      split at hcall
      · cases hcall
      · cases hcall
        apply CaptureLog.step_idle
        intro capture hcapture hreaches hhandles
        rw [reaches_leveled] at hreaches
        exact hidle capture hcapture hreaches hhandles

/-- What the first capture leaves alone the second one leaves alone. -/
theorem idle_alike {log log' : CaptureLog} (hsame : log.SameRecords log')
    {left right : MarkerCall} (hcall : left.Alike right)
    (hidle : ∀ capture, log.app.capture = some capture → reaches capture left = true →
      capture.handles left = true → False) :
    ∀ capture, log'.app.capture = some capture → reaches capture right = true →
      capture.handles right = true → False := by
  intro capture' hcapture' hreaches hhandles
  rcases hsame.app.cases with ⟨_, hright⟩ | ⟨capture, other, hleft, hright, halike⟩
  · rw [hright] at hcapture'
    cases hcapture'
  · rw [hright] at hcapture'
    cases hcapture'
    rw [← halike.reaches hcall] at hreaches
    rw [← halike.handles hcall] at hhandles
    exact hidle capture hleft hreaches hhandles

theorem sameRecords_marker {log log' : CaptureLog} (hsame : log.SameRecords log')
    {settings settings' : SystemSettings} {prepared : Bool} {caller caller' : Caller}
    (halike : caller.Alike caller') {request : MarkerRequest}
    (hundisturbed : Undisturbed log
      (.addHitraceMeterMarker settings prepared caller request,
        .addHitraceMeterMarker settings' prepared caller' request)) :
    Option.Rel CaptureLog.SameRecords
      (meterStep log (.addHitraceMeterMarker settings prepared caller request))
      (meterStep log' (.addHitraceMeterMarker settings' prepared caller' request)) := by
  cases hmarker : request.marker caller.pid with
  | none =>
      have hmarker' : request.marker caller'.pid = none := by rw [← halike.pid, hmarker]
      rw [meterStep_marker, meterStep_marker, offered, offered, hmarker, hmarker']
      exact .some hsame
  | some marker =>
      have hmarker' : request.marker caller'.pid = some marker := by
        rw [← halike.pid, hmarker]
      cases prepared with
      | false =>
          rw [meterStep_marker, meterStep_marker, offered, offered, hmarker, hmarker']
          exact .some hsame
      | true =>
          by_cases hfor : ∃ capture, log.app.capture = some capture ∧
              reaches capture (caller.call marker) = true ∧
              capture.handles (caller.call marker) = true
          · obtain ⟨capture, hcapture, hreaches, hhandles⟩ := hfor
            obtain ⟨hfilters, hlevel⟩ :=
              hundisturbed capture marker hcapture hmarker hreaches hhandles
            rw [meterStep_marker, meterStep_marker, offered_eq settings hmarker,
              offered_eq settings' hmarker', ← hfilters]
            cases hfiltered : settings.filters marker with
            | true => exact .some hsame
            | false =>
                rw [← leveled_congr (hlevel hfiltered)]
                exact hsame.step (halike.call _)
          · have hidle : ∀ capture, log.app.capture = some capture →
                reaches capture (caller.call marker) = true →
                capture.handles (caller.call marker) = true → False := by
              intro capture hcapture hreaches hhandles
              exact hfor ⟨capture, hcapture, hreaches, hhandles⟩
            rw [meterStep_idle settings hmarker hidle, meterStep_idle settings' hmarker'
              (idle_alike hsame (halike.call marker) hidle)]
            exact .some hsame

theorem sameRecords_step {log log' : CaptureLog} {label label' : MeterLabel}
    (hsame : log.SameRecords log') (hpaired : Paired label label')
    (hundisturbed : Undisturbed log (label, label')) :
    Option.Rel CaptureLog.SameRecords (meterStep log label) (meterStep log' label') := by
  cases hpaired with
  | startCaptureAppTrace args => exact .some (hsame.follow .none (hsame.app.start args))
  | stopCaptureAppTrace => exact .some (hsame.follow .none hsame.app.stop)
  | addHitraceMeterMarker settings settings' prepared halike request =>
      exact sameRecords_marker hsame halike hundisturbed

def firstRun : Machine CaptureLog (MeterLabel × MeterLabel) where
  init := fun log => log = {}
  step := fun log labels => meterStep log labels.1

theorem sameRecords_refl : CaptureLog.SameRecords {} {} where
  app := .none
  records := .nil
  closed := .nil

theorem sameRecords_run {log log' : CaptureLog} (hsame : log.SameRecords log')
    {labels : List (MeterLabel × MeterLabel)}
    (hpaired : ∀ pair ∈ labels, Paired pair.1 pair.2)
    (hundisturbed : firstRun.Obeys Undisturbed log labels) :
    Option.Rel CaptureLog.SameRecords (meterLog.run log (labels.map Prod.fst))
      (meterLog.run log' (labels.map Prod.snd)) := by
  induction labels generalizing log log' with
  | nil => exact .some hsame
  | cons pair rest ih =>
      obtain ⟨hfirst, hrest⟩ := List.forall_mem_cons.mp hpaired
      obtain ⟨hallowed, hothers⟩ := hundisturbed
      have hstep := sameRecords_step hsame hfirst hallowed
      have hleft : firstRun.step log pair = meterStep log pair.1 := rfl
      rw [hleft] at hothers
      cases hone : meterStep log pair.1 with
      | none =>
          cases htwo : meterStep log' pair.2 with
          | none =>
              have hstuck : meterLog.run log (pair.1 :: rest.map Prod.fst) = none := by
                simp only [Machine.run, meterLog, hone]
              have hstuck' : meterLog.run log' (pair.2 :: rest.map Prod.snd) = none := by
                simp only [Machine.run, meterLog, htwo]
              rw [List.map_cons, List.map_cons, hstuck, hstuck']
              exact .none
          | some next' =>
              rw [hone, htwo] at hstep
              cases hstep
      | some next =>
          cases htwo : meterStep log' pair.2 with
          | none =>
              rw [hone, htwo] at hstep
              cases hstep
          | some next' =>
              rw [hone, htwo] at hstep
              rw [hone] at hothers
              rw [List.map_cons, List.map_cons, meterLog.run_cons_of_step hone,
                meterLog.run_cons_of_step htwo]
              cases hstep with
              | some hnext => exact ih hnext hrest hothers

end HitraceMeter

open AppTrace HitraceMeter in
/-- Two runs that differ in the system-wide settings, and in the time and the processor,
capture the same records, as long as the settings filter the markers for the capture
alike and leave them the same level.  The files hold the records of the log. -/
theorem app_capture_independent (labels : List (MeterLabel × MeterLabel))
    (hpaired : ∀ pair ∈ labels, Paired pair.1 pair.2)
    (hundisturbed : firstRun.Obeys Undisturbed {} labels) :
    Option.Rel CaptureLog.SameRecords (meterLog.run {} (labels.map Prod.fst))
        (meterLog.run {} (labels.map Prod.snd)) ∧
      ((∀ pair ∈ labels, pair.1.LimitHolds) →
        ∃ left right, meterLog.run {} (labels.map Prod.fst) = some left ∧
          meterLog.run {} (labels.map Prod.snd) = some right ∧ left.Sound ∧ right.Sound) := by
  refine ⟨sameRecords_run sameRecords_refl hpaired hundisturbed, ?_⟩
  intro hlimits
  have hfirst : ∀ label ∈ labels.map Prod.fst, label.LimitHolds := by
    intro label hmem
    obtain ⟨pair, hpair, rfl⟩ := List.mem_map.mp hmem
    exact hlimits pair hpair
  have hsecond : ∀ label ∈ labels.map Prod.snd, label.LimitHolds := by
    intro label hmem
    obtain ⟨pair, hpair, rfl⟩ := List.mem_map.mp hmem
    exact (hpaired pair hpair).limitHolds (hlimits pair hpair)
  obtain ⟨left, hleft, hleftSound⟩ := sound_meterLog sound_start hfirst
  obtain ⟨right, hright, hrightSound⟩ := sound_meterLog sound_start hsecond
  exact ⟨left, right, hleft, hright, hleftSound, hrightSound⟩

namespace HitraceMeter

open AppTrace

def sampleArgs : StartArgs :=
  ⟨.allThread, hitraceTagApp, 4096, ⟨223, by decide⟩, .succ⟩

def sampleCaller : Caller where
  pid := ⟨223, by decide⟩
  tid := ⟨224, by decide⟩
  hiTraceId := {}
  procName := bytesOf "app"
  comm := some (bytesOf "worker\n")
  cpu := some 3
  sec := 77
  nsec := 123456789

def sampleRequest : MarkerRequest :=
  { type := .begin, level := 1, tag := hitraceTagApp, name := some (bytesOf "load") }

def systemOff : SystemSettings := ⟨0, 3, -1, true⟩

def systemOn (levelThreshold : Int) : SystemSettings :=
  ⟨hitraceTagApp, levelThreshold, -1, true⟩

def samplePairs (levelThreshold : Int) : List (MeterLabel × MeterLabel) :=
  [(.startCaptureAppTrace sampleArgs, .startCaptureAppTrace sampleArgs),
    (.addHitraceMeterMarker systemOff true sampleCaller sampleRequest,
      .addHitraceMeterMarker (systemOn levelThreshold) true sampleCaller sampleRequest)]

theorem samplePairs_paired (levelThreshold : Int) :
    ∀ pair ∈ samplePairs levelThreshold, Paired pair.1 pair.2 := by
  intro pair hmem
  rw [samplePairs, List.mem_pair] at hmem
  rcases hmem with rfl | rfl
  · exact .startCaptureAppTrace sampleArgs
  · exact .addHitraceMeterMarker _ _ _ ⟨rfl, rfl, rfl, rfl, rfl⟩ _

end HitraceMeter

open AppTrace HitraceMeter in
theorem app_capture_independent_low_threshold :
    Option.Rel CaptureLog.SameRecords (meterLog.run {} ((samplePairs 0).map Prod.fst))
      (meterLog.run {} ((samplePairs 0).map Prod.snd)) := by
  have hundisturbed : firstRun.Obeys Undisturbed {} (samplePairs 0) := by
    refine ⟨trivial, ?_⟩
    split
    · trivial
    · refine ⟨?_, ?_⟩
      · intro capture marker _ hmarker _ _
        cases hmarker
        decide
      · split <;> trivial
  exact (app_capture_independent (samplePairs 0) (samplePairs_paired 0) hundisturbed).1

namespace HitraceMeter

open AppTrace

def started : Capture := initTraceHead sampleArgs reservedHeader

def startedLog : CaptureLog := ⟨{ capture := some started }, [], []⟩

theorem meterStep_started :
    meterStep {} (.startCaptureAppTrace sampleArgs) = some startedLog := by
  have hheader : formatHeader [] [] = some reservedHeader := formatHeader_eq rfl
  rw [meterStep, startCaptureAppTrace, hheader]
  rfl

theorem run_sample (settings : SystemSettings) :
    meterLog.run {} [.startCaptureAppTrace sampleArgs,
        .addHitraceMeterMarker settings true sampleCaller sampleRequest] =
      match offered settings true sampleCaller sampleRequest with
      | none => some startedLog
      | some call => startedLog.step (.addHitraceMeterMarker call) := by
  have hstart : meterLog.step {} (.startCaptureAppTrace sampleArgs) = some startedLog :=
    meterStep_started
  rw [meterLog.run_cons_of_step hstart, ← meterStep_marker]
  cases hstep : meterStep startedLog
      (.addHitraceMeterMarker settings true sampleCaller sampleRequest) with
  | none => simp only [Machine.run, meterLog, hstep]
  | some next => simp only [Machine.run, meterLog, hstep]

def sampleMarkerCall : MarkerCall :=
  sampleCaller.call ⟨.begin, .info, hitraceTagApp, 0, bytesOf "load", [], [], ⟨223, by decide⟩⟩

theorem started_formats : ∃ text, started.formats sampleMarkerCall = some text := by
  have hlimit : started.exceedsLimit (recordLen sampleMarkerCall.marker) = false := by
    rw [Capture.exceedsLimit, started, initTraceHead, length_reservedHeader]
    decide +kernel
  have hfits : ((recordText (started.setThreadInfo sampleMarkerCall).appTracePrefix 3
      sampleMarkerCall).length : Int) < recordLen sampleMarkerCall.marker := by
    decide +kernel
  refine ⟨recordText (started.setThreadInfo sampleMarkerCall).appTracePrefix 3
    sampleMarkerCall, ?_⟩
  have hhandles : started.handles sampleMarkerCall = true := rfl
  have hcpu : sampleMarkerCall.cpu = some 3 := rfl
  rw [Capture.formats, hlimit, hhandles, formatted, hcpu]
  dsimp only
  rw [if_pos hfits]
  rfl

end HitraceMeter

open AppTrace HitraceMeter in
/-- With the tag on and the threshold of a fresh process, the marker is captured only
when the system trace is off. -/
theorem threshold_drops_captured_marker :
    (∀ pair ∈ samplePairs 3, Paired pair.1 pair.2) ∧
      ¬ Option.Rel CaptureLog.SameRecords
        (meterLog.run {} ((samplePairs 3).map Prod.fst))
        (meterLog.run {} ((samplePairs 3).map Prod.snd)) := by
  refine ⟨samplePairs_paired 3, ?_⟩
  have hoff : offered systemOff true sampleCaller sampleRequest = some sampleMarkerCall := rfl
  have hon : offered (systemOn 3) true sampleCaller sampleRequest = none := rfl
  have hfirst : meterLog.run {} ((samplePairs 3).map Prod.fst) =
      HitraceMeter.startedLog.step (.addHitraceMeterMarker sampleMarkerCall) := by
    rw [samplePairs, List.map_cons, List.map_cons, List.map_nil, run_sample, hoff]
  have hsecond : meterLog.run {} ((samplePairs 3).map Prod.snd) =
      some HitraceMeter.startedLog := by
    rw [samplePairs, List.map_cons, List.map_cons, List.map_nil, run_sample, hon]
  rw [hfirst, hsecond]
  intro hsame
  obtain ⟨text, htext⟩ := started_formats
  have hreaches : reaches started sampleMarkerCall = true := by decide
  have hrecord : HitraceMeter.startedLog.record sampleMarkerCall = some text := by
    rw [CaptureLog.record]
    dsimp only [HitraceMeter.startedLog]
    rw [hreaches, if_pos rfl, htext]
  rw [CaptureLog.step, hrecord] at hsame
  generalize HitraceMeter.startedLog.app.addHitraceMeterMarker sampleMarkerCall = next at hsame
  cases next with
  | none => cases hsame
  | some app =>
      rw [Option.map_some, CaptureLog.follow] at hsame
      cases hsame with
      | some hlogs =>
          split at hlogs
          · cases hlogs.closed
          · cases hlogs.records

end Hitrace
