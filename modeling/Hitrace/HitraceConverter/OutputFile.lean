import Hitrace.HitraceConverter.SysTraceViewer
import Hitrace.Library.Decimal
import Hitrace.Library.PosixFile
import Hitrace.Library.StableSort
import Hitrace.Library.Utf8
import Mathlib.Data.List.Forall2

namespace Hitrace.HitraceConverter

open Library

/-! The file that the viewers write. -/

namespace OutputFile

def traceTxtHeaderFormat : List Char :=
  "# tracer: nop\n".toList ++
    "#\n".toList ++
    "# entries-in-buffer/entries-written: %lu/%lu   #P:%d\n".toList ++
    "#\n".toList ++
    "#                                      _-----=> irqs-off\n".toList ++
    "#                                     / _----=> need-resched\n".toList ++
    "#                                    | / _---=> hardirq/softirq\n".toList ++
    "#                                    || / _--=> preempt-depth\n".toList ++
    "#                                    ||| /     delay\n".toList ++
    "#           TASK-PID    TGID   CPU#  ||||    TIMESTAMP  FUNCTION\n".toList ++
    "#              | |        |      |   ||||       |         |\n".toList

/-- A timestamp and the line of its event. -/
abbrev Line := Nat × List Char

structure Viewer where
  outFile : List Char
  systrace : List Line := []
deriving Repr, DecidableEq

/-- The files by their names. -/
abbrev Files := List Char → Option (List UInt8)

def lineBytes (line : Line) : List UInt8 :=
  Utf8.encode (line.2 ++ ['\n'])

/-- The file is opened without `O_TRUNC`, and is created when there is none. -/
def saveSystrace (viewer : Viewer) (files : Files) : Files := fun name =>
  if name = viewer.outFile then
    let result := StableSort.sortBy Prod.fst viewer.systrace
    let outfile : PosixFile := { content := (files viewer.outFile).getD [] }
    let outfile := outfile.write (Utf8.encode traceTxtHeaderFormat)
    some (result.foldl (fun outfile line => outfile.write (lineBytes line)) outfile).content
  else files name

section Viewers

variable (others : OtherFunctions) (names : Int → List Char) (state : ParserState)

/-- `SysTraceViewer.calculate`. -/
def Viewer.calculate (viewer : Viewer) (event : TraceEvent) : Option Viewer :=
  (HitraceConverter.calculate others names state event).map fun line =>
    { viewer with systrace := viewer.systrace ++ line.toList }

/-- Every event is given to every viewer. -/
def calculateEvents : List Viewer → List TraceEvent → Option (List Viewer)
  | viewers, [] => some viewers
  | viewers, event :: rest => do
      let viewers ← viewers.mapM fun viewer => viewer.calculate others names state event
      calculateEvents viewers rest

/-- `TraceViewer.calculate`; no file is touched when a line raises. -/
def traceViewerCalculate (viewers : List Viewer) (traceEvents : List TraceEvent)
    (files : Files) : Files :=
  match calculateEvents others names state viewers traceEvents with
  | none => files
  | some viewers => viewers.foldl (fun files viewer => saveSystrace viewer files) files

/-! What the file is to hold. -/

def inTable (event : TraceEvent) : Bool :=
  (state.eventFormat.lookup (event.eventId : Int)).isSome

/-- The line of an event whose id is in the table. -/
def IsLine (event : TraceEvent) (line : Line) : Prop :=
  ∃ format oneEvent text, state.eventFormat.lookup (event.eventId : Int) = some format ∧
    oneEventOf format event = some oneEvent ∧
    generateOneEventStr others names state.cmdLines state.tidGroups event.segment
      event.timestamp oneEvent = some text ∧
    line = (event.timestamp, text)

/-- One line for each event of the table, in decoding order. -/
def Lines (traceEvents : List TraceEvent) (lines : List Line) : Prop :=
  List.Forall₂ (IsLine others names state) (traceEvents.filter (inTable state)) lines

/-- No text that goes into the line of the event holds a newline: the name of its task, the
name of its format and what its print function says. -/
def OneLine (event : TraceEvent) : Prop :=
  ∀ format oneEvent, state.eventFormat.lookup (event.eventId : Int) = some format →
    oneEventOf format event = some oneEvent →
      (∀ pid, parseIntField oneEvent "common_pid".toList false = some pid → pid ≠ 0 →
        '\n' ∉ cmdLineOf state.cmdLines pid) ∧
      ∀ text, parsePrintFmt others names event.segment oneEvent = some (some text) →
        '\n' ∉ oneEvent.name ∧ '\n' ∉ text

end Viewers

def fileBytes (lines : List Line) : List UInt8 :=
  Utf8.encode traceTxtHeaderFormat ++ lines.flatMap lineBytes

/-- The header and the lines by their timestamps, those of one timestamp in decoding
order; each of them is one line. -/
def Exact (others : OtherFunctions) (names : Int → List Char) (state : ParserState)
    (traceEvents : List TraceEvent) (content : Option (List UInt8)) : Prop :=
  ∃ lines sorted, Lines others names state traceEvents lines ∧
    StableSort.Sorted Prod.fst lines sorted ∧ (∀ line ∈ lines, '\n' ∉ line.2) ∧
      content = some (fileBytes sorted)

/-! The newlines of a line. -/

theorem newline_rjust (width : Nat) (text : List Char) : '\n' ∈ rjust width text ↔ '\n' ∈ text := by
  simp [rjust]

theorem newline_ljust (width : Nat) (text : List Char) : '\n' ∈ ljust width text ↔ '\n' ∈ text := by
  simp [ljust]

theorem newline_zfill (width : Nat) (text : List Char) : '\n' ∈ zfill width text ↔ '\n' ∈ text := by
  simp [zfill]

theorem not_newline_natText (number : Nat) : '\n' ∉ natText number := by
  intro hmem
  have hdigit := @Decimal.isDigit_of_mem_text number '\n' hmem
  cases hdigit

theorem not_newline_intText (number : Int) : '\n' ∉ intText number := by
  rw [intText]
  split
  · rw [List.mem_cons, not_or]
    exact ⟨by decide, not_newline_natText _⟩
  · exact not_newline_natText _

theorem not_newline_traceFlagsToStr (flags preemptCount : Nat) :
    '\n' ∉ traceFlagsToStr flags preemptCount := by
  have hdigit : ∀ digit < 16, Nat.digitChar digit ≠ '\n' := by decide
  have hpreempt := hdigit (preemptCount % 16) (Nat.mod_lt _ (by decide))
  have hsplit {condition : Bool} {first second : Char} (hfirst : first ≠ '\n')
      (hsecond : second ≠ '\n') : (if condition then first else second) ≠ '\n' := by
    cases condition with
    | true => exact hfirst
    | false => exact hsecond
  simp only [traceFlagsToStr, List.mem_cons, List.not_mem_nil, or_false, not_or]
  refine ⟨Ne.symm ?_, Ne.symm ?_, Ne.symm ?_, Ne.symm ?_⟩
  · exact hsplit (by decide) (hsplit (by decide) (by decide))
  · exact hsplit (by decide) (hsplit (by decide) (hsplit (by decide) (by decide)))
  · exact hsplit (by decide) (hsplit (by decide) (hsplit (by decide) (hsplit (by decide)
      (hsplit (by decide) (by decide)))))
  · exact hsplit hpreempt (by decide)

theorem newline_pieces {comm tgid flags secs micros : List Char} (pid : Int) (cpuId : Nat)
    (htgid : '\n' ∉ tgid) (hflags : '\n' ∉ flags) (hsecs : '\n' ∉ secs)
    (hmicros : '\n' ∉ micros) :
    '\n' ∈ rjust 16 comm ++ ['-'] ++ ljust 6 (intText pid) ++ tgid ++ " [".toList ++
        zfill 3 (natText cpuId) ++ "] ".toList ++ flags ++ secs ++ ['.'] ++ micros ++
        ": ".toList ↔ '\n' ∈ comm := by
  simp [newline_rjust, newline_ljust, newline_zfill, not_newline_intText, not_newline_natText,
    htgid, hflags, hsecs, hmicros]

/-- In the front of a line only the name of the task can hold a newline. -/
theorem newline_lineHead {cmdLines : Dict (List Char)} {tgids : Dict Int} {timestamp : Nat}
    {oneEvent : OneEvent} {head : List Char}
    (hhead : lineHead cmdLines tgids timestamp oneEvent = some head) :
    '\n' ∉ head ↔ ∀ pid, parseIntField oneEvent "common_pid".toList false = some pid →
      pid ≠ 0 → '\n' ∉ cmdLineOf cmdLines pid := by
  unfold lineHead at hhead
  obtain ⟨pid, hpid, hhead⟩ := Option.bind_eq_some_iff.mp hhead
  obtain ⟨flags, _, hhead⟩ := Option.bind_eq_some_iff.mp hhead
  obtain ⟨preemptCount, _, hhead⟩ := Option.bind_eq_some_iff.mp hhead
  rw [← Option.some.inj hhead]
  refine (not_congr (newline_pieces pid oneEvent.cpuId ?_ ?_ ?_ ?_)).trans ?_
  · cases tgids.lookup pid with
    | none => decide
    | some tgid => simp [newline_rjust, not_newline_intText]
  · split
    · simp [not_newline_traceFlagsToStr]
    · decide
  · rw [newline_rjust]
    exact fun hmem => not_newline_natText _ (List.mem_of_mem_take hmem)
  · exact fun hmem => not_newline_natText _ (List.mem_of_mem_drop hmem)
  · rw [hpid]
    by_cases hidle : pid = 0
    · simp [hidle]
    · by_cases hnone : cmdLineOf cmdLines pid = []
      · simp [hidle, hnone]
      · simp [hidle, hnone]

theorem newline_eventText (oneEvent : OneEvent) (result : Option (List Char)) :
    '\n' ∉ eventText oneEvent result ↔
      ∀ text, result = some text → '\n' ∉ oneEvent.name ∧ '\n' ∉ text := by
  cases result with
  | none => simp [eventText]
  | some text => simp [eventText]

theorem newline_of_isLine {others : OtherFunctions} {names : Int → List Char}
    {state : ParserState} {event : TraceEvent} {line : Line}
    (hline : IsLine others names state event line) :
    '\n' ∉ line.2 ↔ OneLine others names state event := by
  obtain ⟨format, oneEvent, text, hlookup, hevent, htext, rfl⟩ := hline
  unfold generateOneEventStr at htext
  obtain ⟨head, hhead, htext⟩ := Option.bind_eq_some_iff.mp htext
  obtain ⟨result, hresult, htext⟩ := Option.bind_eq_some_iff.mp htext
  cases htext
  rw [List.mem_append, not_or, newline_lineHead hhead, newline_eventText]
  constructor
  · rintro ⟨hname, hresultText⟩ other otherEvent hother hotherEvent
    cases hlookup.symm.trans hother
    cases hevent.symm.trans hotherEvent
    refine ⟨hname, fun text hparsed => hresultText text ?_⟩
    exact Option.some.inj (hresult.symm.trans hparsed)
  · intro hone
    obtain ⟨hname, htexts⟩ := hone format oneEvent hlookup hevent
    exact ⟨hname, fun text hsome => htexts text (hresult.trans (congrArg some hsome))⟩

/-- All lines are one line exactly if the texts of all events of the table hold no newline. -/
theorem newline_of_lines {others : OtherFunctions} {names : Int → List Char}
    {state : ParserState} {traceEvents : List TraceEvent} {lines : List Line}
    (hlines : Lines others names state traceEvents lines) :
    (∀ line ∈ lines, '\n' ∉ line.2) ↔
      ∀ event ∈ traceEvents, inTable state event = true → OneLine others names state event := by
  have hfiltered : (∀ line ∈ lines, '\n' ∉ line.2) ↔
      ∀ event ∈ traceEvents.filter (inTable state), OneLine others names state event := by
    unfold Lines at hlines
    generalize traceEvents.filter (inTable state) = listed at hlines ⊢
    induction hlines with
    | nil => simp
    | cons hline _ ih =>
        rw [List.forall_mem_cons, List.forall_mem_cons, ih, newline_of_isLine hline]
  rw [hfiltered]
  simp only [List.mem_filter, and_imp]

section Collected

variable {others : OtherFunctions} {names : Int → List Char} {state : ParserState}

theorem calculate_of_miss {event : TraceEvent} (hmiss : inTable state event = false) :
    HitraceConverter.calculate others names state event = some none := by
  have hlookup : state.eventFormat.lookup (event.eventId : Int) = none := by
    simpa [inTable] using hmiss
  simp [HitraceConverter.calculate, hlookup]

theorem calculate_eq_line {event : TraceEvent} (line : Line) :
    HitraceConverter.calculate others names state event = some (some line) ↔
      IsLine others names state event line := by
  unfold HitraceConverter.calculate IsLine
  cases state.eventFormat.lookup (event.eventId : Int) with
  | none => simp
  | some format =>
      simp only [Option.bind_eq_bind, Option.bind_eq_some_iff, Option.some.injEq]
      constructor
      · rintro ⟨oneEvent, hevent, text, htext, rfl⟩
        exact ⟨format, oneEvent, text, rfl, hevent, htext, rfl⟩
      · rintro ⟨_, oneEvent, text, rfl, hevent, htext, rfl⟩
        exact ⟨oneEvent, hevent, text, htext, rfl⟩

theorem not_calculate_none {event : TraceEvent} (hin : inTable state event = true) :
    HitraceConverter.calculate others names state event ≠ some none := by
  obtain ⟨format, hlookup⟩ := Option.isSome_iff_exists.mp hin
  intro hnone
  simp only [HitraceConverter.calculate, hlookup, Option.bind_eq_bind,
    Option.bind_eq_some_iff] at hnone
  obtain ⟨_, _, _, _, hline⟩ := hnone
  cases hline

/-- The loop collects the lines in decoding order, or raises. -/
theorem calculateAll_eq_some (traceEvents : List TraceEvent) (lines : List Line) :
    calculateAll others names state traceEvents = some lines ↔
      Lines others names state traceEvents lines := by
  induction traceEvents generalizing lines with
  | nil => simp [calculateAll, Lines, List.forall₂_nil_left_iff, eq_comm]
  | cons event rest ih =>
      rw [calculateAll, Lines]
      cases hin : inTable state event with
      | false =>
          rw [calculate_of_miss hin, List.filter_cons_of_neg (by simp [hin])]
          have hrest := ih lines
          rw [Lines] at hrest
          simpa using hrest
      | true =>
          rw [List.filter_cons_of_pos hin]
          simp only [Option.bind_eq_bind, Option.bind_eq_some_iff, Option.some.injEq]
          constructor
          · rintro ⟨result, hresult, later, hlater, rfl⟩
            cases result with
            | none => exact absurd hresult (not_calculate_none hin)
            | some line =>
                exact .cons ((calculate_eq_line line).mp hresult) ((ih later).mp hlater)
          · intro hlines
            cases hlines with
            | cons hline hlater =>
                exact ⟨_, (calculate_eq_line _).mpr hline, _, (ih _).mpr hlater, rfl⟩

theorem calculateEvents_single (viewer : Viewer) (traceEvents : List TraceEvent) :
    calculateEvents others names state [viewer] traceEvents =
      (calculateAll others names state traceEvents).map fun lines =>
        [{ viewer with systrace := viewer.systrace ++ lines }] := by
  induction traceEvents generalizing viewer with
  | nil => simp [calculateEvents, calculateAll]
  | cons event rest ih =>
      rw [calculateEvents, calculateAll]
      cases hline : HitraceConverter.calculate others names state event with
      | none => simp [Viewer.calculate, hline]
      | some line =>
          simp only [Viewer.calculate, hline, List.mapM_cons, List.mapM_nil, Option.map_some,
            Option.bind_eq_bind, Option.bind_some, Option.pure_def, ih]
          cases calculateAll others names state rest with
          | none => rfl
          | some lines => simp

end Collected

/-! The writes. -/

theorem lines_write (file : PosixFile) (lines : List Line) :
    lines.foldl (fun outfile line => outfile.write (lineBytes line)) file =
      file.write (lines.flatMap lineBytes) := by
  induction lines generalizing file with
  | nil => simp
  | cons line rest ih => rw [List.foldl_cons, ih, PosixFile.write_append, List.flatMap_cons]

/-- What was behind the new text stays. -/
theorem saveSystrace_file (viewer : Viewer) (files : Files) :
    saveSystrace viewer files viewer.outFile =
      some (fileBytes (StableSort.sortBy Prod.fst viewer.systrace) ++
        ((files viewer.outFile).getD []).drop
          (fileBytes (StableSort.sortBy Prod.fst viewer.systrace)).length) := by
  have hsolid : ({ content := (files viewer.outFile).getD [] } : PosixFile).Solid :=
    Nat.zero_le _
  rw [saveSystrace, if_pos rfl]
  simp only [lines_write, PosixFile.write_append]
  rw [hsolid.write_content, PosixFile.past, List.take_zero, List.nil_append, Nat.zero_add]
  rfl

theorem length_fileBytes {left right : List Line} (hperm : left.Perm right) :
    (fileBytes left).length = (fileBytes right).length := by
  rw [fileBytes, fileBytes, List.length_append, List.length_append,
    (hperm.flatMap_right lineBytes).length_eq]

section Exact

variable {others : OtherFunctions} {names : Int → List Char} {state : ParserState}
  {traceEvents : List TraceEvent} {lines : List Line}

theorem traceViewerCalculate_file
    (hlines : Lines others names state traceEvents lines) (outFile : List Char)
    (files : Files) :
    traceViewerCalculate others names state [{ outFile }] traceEvents files outFile =
      some (fileBytes (StableSort.sortBy Prod.fst lines) ++
        ((files outFile).getD []).drop
          (fileBytes (StableSort.sortBy Prod.fst lines)).length) := by
  have hevents : calculateEvents others names state [{ outFile }] traceEvents =
      some [{ outFile, systrace := lines }] := by
    rw [calculateEvents_single, (calculateAll_eq_some traceEvents lines).mpr hlines]
    simp
  rw [traceViewerCalculate, hevents]
  exact saveSystrace_file { outFile, systrace := lines } files

theorem length_le_of_exact {outFile : List Char} {files : Files}
    (hexact : Exact others names state traceEvents
      (traceViewerCalculate others names state [{ outFile }] traceEvents files outFile)) :
    (∀ event ∈ traceEvents, inTable state event = true → OneLine others names state event) ∧
      ∃ lines, Lines others names state traceEvents lines ∧
        ((files outFile).getD []).length ≤ (fileBytes lines).length := by
  obtain ⟨lines, sorted, hlines, hsorted, hone, hfile⟩ := hexact
  refine ⟨(newline_of_lines hlines).mp hone, lines, hlines, ?_⟩
  have hsame := hsorted.unique (StableSort.sorted_sortBy lines)
  rw [traceViewerCalculate_file hlines, hsame, Option.some_inj, List.append_right_eq_self,
    List.drop_eq_nil_iff] at hfile
  rwa [length_fileBytes (StableSort.sortBy_perm lines)] at hfile

theorem exact_of_length_le {outFile : List Char} {files : Files}
    (hone : ∀ event ∈ traceEvents, inTable state event = true →
      OneLine others names state event)
    (hlines : Lines others names state traceEvents lines)
    (hlength : ((files outFile).getD []).length ≤ (fileBytes lines).length) :
    Exact others names state traceEvents
      (traceViewerCalculate others names state [{ outFile }] traceEvents files outFile) := by
  refine ⟨lines, StableSort.sortBy Prod.fst lines, hlines, StableSort.sorted_sortBy lines,
    (newline_of_lines hlines).mpr hone, ?_⟩
  rw [traceViewerCalculate_file hlines, List.drop_of_length_le, List.append_nil]
  rwa [length_fileBytes (StableSort.sortBy_perm lines)]

end Exact

/-- The output is exact when no text of an event holds a newline and the file was not longer
before: it is not truncated. -/
theorem output_is_exact_iff (others : OtherFunctions) (names : Int → List Char)
    (state : ParserState) (traceEvents : List TraceEvent) (outFile : List Char)
    (files : Files) :
    Exact others names state traceEvents
        (traceViewerCalculate others names state [{ outFile }] traceEvents files outFile) ↔
      (∀ event ∈ traceEvents, inTable state event = true →
        OneLine others names state event) ∧
      ∃ lines, Lines others names state traceEvents lines ∧
        ((files outFile).getD []).length ≤ (fileBytes lines).length := by
  constructor
  · intro hexact
    exact length_le_of_exact hexact
  · rintro ⟨hone, lines, hlines, hlength⟩
    exact exact_of_length_le hone hlines hlength

/-- A trace without events over a file of a thousand bytes. -/
theorem long_file_is_not_truncated :
    ¬ Exact (fun _ => none) (fun _ => []) {} []
      (traceViewerCalculate (fun _ => none) (fun _ => []) {} [{ outFile := [] }] []
        (fun _ => some (List.replicate 1000 65)) []) := by
  intro hexact
  obtain ⟨_, lines, hlines, hlength⟩ := length_le_of_exact hexact
  cases hlines
  rw [Option.getD_some, List.length_replicate] at hlength
  have hheader : (fileBytes []).length < 1000 := by decide +kernel
  omega

end OutputFile

end Hitrace.HitraceConverter
