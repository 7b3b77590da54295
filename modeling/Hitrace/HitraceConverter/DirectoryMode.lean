import Hitrace.HitraceConverter.CutFiles
import Hitrace.HitraceConverter.SysTraceViewer
import Hitrace.Library.Dependence
import Mathlib.Algebra.BigOperators.Group.List.Basic

namespace Hitrace.HitraceConverter

open Library

/-! The conversion of several files by one process. -/

/-- `parse_binary_trace_file`: the event lines of a file and the dict of the process
behind it. -/
def parseBinaryTraceFile (others : OtherFunctions) (content : List UInt8)
    (processCmdLines : Dict (List Char)) :
    Option (List (List Char) × Dict (List Char)) := do
  let (_, state) ← acceptFile content processCmdLines
  let lines ← eventLines others state
  some (lines, state.processCmdLines)

/-- The loop of `main` over the files of a directory. -/
def convertDirectory (others : OtherFunctions) :
    List (List UInt8) → Dict (List Char) → Option (List (List (List Char)))
  | [], _ => some []
  | content :: rest, processCmdLines => do
      let (lines, processCmdLines) ← parseBinaryTraceFile others content processCmdLines
      let converted ← convertDirectory others rest processCmdLines
      some (lines :: converted)

/-- The event lines of a file in a fresh process. -/
def convertAlone (others : OtherFunctions) (content : List UInt8) :
    Option (List (List Char)) :=
  (parseBinaryTraceFile others content []).map Prod.fst

/-! What an earlier file leaves behind. -/

/-- The state over what earlier files left in the dict. -/
def ParserState.over (state : ParserState) (earlier : Dict (List Char)) : ParserState :=
  { state with processCmdLines := state.processCmdLines ++ earlier }

theorem accept_over (operator : FieldOperator) (data : Option (List UInt8))
    (state : ParserState) (earlier : Dict (List Char)) :
    operator.accept data (state.over earlier) =
      (operator.accept data state).map fun next => next.over earlier := by
  cases operator with
  | eventFormatSegment =>
      simp only [FieldOperator.accept]
      cases parseEventFormat (orEmptyList data) <;> rfl
  | cmdLinesSegment =>
      simp only [FieldOperator.accept]
      cases parseCmdLines (orEmptyList data) with
      | none => rfl
      | some cmdLines => simp [ParserState.over]
  | tidGroupsSegment =>
      simp only [FieldOperator.accept]
      cases parseTidGroups (orEmptyList data) <;> rfl
  | rawTraceSegment =>
      simp only [FieldOperator.accept]
      cases acceptRawTrace data <;> rfl
  | printkFormatSegment => rfl
  | kallSymsSegment => rfl
  | headerPageSegment => rfl
  | unSupportSegment => rfl

theorem acceptSegments_over (room : Nat) (file : TraceFile) (state : ParserState)
    (earlier : Dict (List Char)) :
    SegmentWrapper.acceptSegments room file (state.over earlier) =
      (SegmentWrapper.acceptSegments room file state).map fun (infos, final) =>
        (infos, final.over earlier) := by
  induction room generalizing file state with
  | zero =>
      simp only [SegmentWrapper.acceptSegments]
      split <;> rfl
  | succ room ih =>
      simp only [SegmentWrapper.acceptSegments]
      split
      · rename_i segmentType segmentSize _
        have hcpuNum : (state.over earlier).cpuNum = state.cpuNum := rfl
        rw [hcpuNum, accept_over]
        cases (SegmentWrapper.getSegment SegmentWrapper.fields segmentType
            state.cpuNum).accept ((file.readData (getDataBytes
              SegmentWrapper.format)).2.readData segmentSize).1 state with
        | none => rfl
        | some accepted =>
            simp only [Option.map_some, Option.bind_eq_bind, Option.bind_some, ih]
            cases SegmentWrapper.acceptSegments room ((file.readData (getDataBytes
                SegmentWrapper.format)).2.readData segmentSize).2 accepted with
            | none => rfl
            | some result => rfl
      · rfl

theorem acceptFile_over (content : List UInt8) (earlier : Dict (List Char)) :
    acceptFile content earlier =
      (acceptFile content []).map fun (infos, final) => (infos, final.over earlier) := by
  unfold acceptFile
  cases FileHeader.accept { content } with
  | mk cpuNum file =>
      cases cpuNum with
      | none => rfl
      | some cpuNum =>
          exact acceptSegments_over SegmentWrapper.maxSegments file { cpuNum } earlier

/-! Two dicts that give an event line its names. -/

/-- Where the second dict gives another name, the first gives none. -/
def Fills (names filled : Int → List Char) : Prop :=
  ∀ tid, names tid = filled tid ∨ (names tid = [] ∧ filled tid ≠ [])

theorem fills_over (own earlier : Dict (List Char)) :
    Fills (cmdLineOf own) (cmdLineOf (own ++ earlier)) := by
  intro tid
  simp only [cmdLineOf, List.lookup_append]
  cases hown : own.lookup tid with
  | some name => exact Or.inl rfl
  | none =>
      cases hearlier : earlier.lookup tid with
      | none => exact Or.inl rfl
      | some name =>
          cases name with
          | nil => exact Or.inl rfl
          | cons first rest => exact Or.inr ⟨rfl, nofun⟩

/-- The names agree on the threads that are looked up. -/
def Agree (names filled : Int → List Char) (tids : List Int) : Prop :=
  ∀ tid ∈ tids, tid ≠ 0 → names tid = filled tid

theorem agree_append {names filled : Int → List Char} {first second : List Int} :
    Agree names filled (first ++ second) ↔
      Agree names filled first ∧ Agree names filled second := by
  simp only [Agree, List.mem_append]
  constructor
  · intro hagree
    exact ⟨fun tid hmem => hagree tid (Or.inl hmem), fun tid hmem => hagree tid (Or.inr hmem)⟩
  · rintro ⟨hfirst, hsecond⟩ tid (hmem | hmem)
    · exact hfirst tid hmem
    · exact hsecond tid hmem

section Names

variable {names filled : Int → List Char} (hfills : Fills names filled)

include hfills

theorem grown_liteName (oneEvent : OneEvent) (tid : Int) :
    Grown List.length (Agree names filled [tid]) (liteName names oneEvent tid)
      (liteName filled oneEvent tid) := by
  by_cases hidle : tid = 0
  · refine Or.inl ⟨?_, by simp [liteName, hidle]⟩
    intro other hmem hother
    exact absurd ((List.mem_singleton.mp hmem).trans hidle) hother
  · rcases hfills tid with hsame | ⟨hnone, hsome⟩
    · refine Or.inl ⟨?_, by simp [liteName, hidle, hsame]⟩
      intro other hmem _
      rw [List.mem_singleton.mp hmem, hsame]
    · refine Or.inr ⟨?_, ?_⟩
      · intro hagree
        exact hsome ((hagree tid (List.mem_singleton.mpr rfl) hidle).symm.trans hnone)
      · rw [liteName, if_neg hidle, liteName, if_neg hidle, hnone]
        exact List.length_pos_iff.mpr hsome

theorem grown_wakeup (oneEvent : OneEvent) :
    Option.Rel (Grown List.length (Agree names filled
        (parseIntField oneEvent pidField true).toList))
      (parseSchedWakeupHmLite names oneEvent) (parseSchedWakeupHmLite filled oneEvent) := by
  rw [parseSchedWakeupHmLite, parseSchedWakeupHmLite]
  apply rel_bind_same
  intro pid hpid
  apply rel_bind_same
  intro prio _
  apply rel_bind_same
  intro targetCpu _
  rw [hpid]
  exact Option.Rel.some (((grown_liteName hfills oneEvent pid).prepend _).extend _)

theorem grown_switch (oneEvent : OneEvent) :
    Option.Rel (Grown List.length (Agree names filled
        ((parseIntField oneEvent prevTidField true).toList ++
          (parseIntField oneEvent nextTidField true).toList)))
      (parseSchedSwitchHmLite names oneEvent) (parseSchedSwitchHmLite filled oneEvent) := by
  rw [parseSchedSwitchHmLite, parseSchedSwitchHmLite]
  apply rel_bind_same
  intro prevTid hprevTid
  apply rel_bind_same
  intro pprio _
  apply rel_bind_same
  intro pstate _
  apply rel_bind_same
  intro nextTid hnextTid
  apply rel_bind_same
  intro nprio _
  apply rel_bind_same
  intro ninfo _
  rw [hprevTid, hnextTid, agree_append]
  refine Option.Rel.some (Grown.extend ?_ _)
  apply Grown.append (fun _ _ => List.length_append)
  · exact ((grown_liteName hfills oneEvent prevTid).prepend _).extend _
  · exact grown_liteName hfills oneEvent nextTid

/-- The threads that the function of a print format looks up. -/
def lookedUp (oneEvent : OneEvent) : List Int :=
  if oneEvent.printFmt = printFmtSchedWakeupHmLite then
    (parseIntField oneEvent pidField true).toList
  else if oneEvent.printFmt = printFmtSchedSwitchHmLite then
    (parseIntField oneEvent prevTidField true).toList ++
      (parseIntField oneEvent nextTidField true).toList
  else []

theorem grown_parsePrintFmt (others : OtherFunctions) (data : List UInt8)
    (oneEvent : OneEvent) :
    Option.Rel (fun result grownResult =>
        Grown List.length (Agree names filled (lookedUp oneEvent)) (eventText oneEvent result)
          (eventText oneEvent grownResult))
      (parsePrintFmt others names data oneEvent)
      (parsePrintFmt others filled data oneEvent) := by
  unfold parsePrintFmt lookedUp
  split
  · exact rel_map (grown_wakeup hfills oneEvent) fun _ _ hgrown => hgrown.prepend _
  · split
    · exact rel_map (grown_switch hfills oneEvent) fun _ _ hgrown => hgrown.prepend _
    · split
      · refine Option.Rel.some (Grown.refl ?_ _)
        exact nofun
      · rename_i parse _
        cases parse data oneEvent with
        | none => exact Option.Rel.none
        | some text =>
            refine Option.Rel.some (Grown.refl ?_ _)
            exact nofun

theorem grown_generateOneEventStr (others : OtherFunctions) (cmdLines : Dict (List Char))
    (tgids : Dict Int) (data : List UInt8) (timestamp : Nat) (oneEvent : OneEvent) :
    Option.Rel (Grown List.length (Agree names filled (lookedUp oneEvent)))
      (generateOneEventStr others names cmdLines tgids data timestamp oneEvent)
      (generateOneEventStr others filled cmdLines tgids data timestamp oneEvent) := by
  rw [generateOneEventStr, generateOneEventStr]
  apply rel_bind_same
  intro head _
  refine rel_bind (grown_parsePrintFmt hfills others data oneEvent) ?_
  intro result grownResult hgrown
  exact Option.Rel.some (hgrown.prepend head)

end Names

/-- The threads whose names an event line takes from the dict of the process. -/
def eventTids (state : ParserState) (event : TraceEvent) : List Int :=
  match state.eventFormat.lookup (event.eventId : Int) with
  | none => []
  | some format =>
      match oneEventOf format event with
      | none => []
      | some oneEvent => lookedUp oneEvent

def totalLength (lines : List (Nat × List Char)) : Nat :=
  (lines.map fun line => line.2.length).sum

theorem totalLength_append (first second : List (Nat × List Char)) :
    totalLength (first ++ second) = totalLength first + totalLength second := by
  rw [totalLength, List.map_append, List.sum_append]
  rfl

section Lines

variable {names filled : Int → List Char} (hfills : Fills names filled)
  (others : OtherFunctions) (state : ParserState)

include hfills

theorem grown_calculate (event : TraceEvent) :
    Option.Rel (fun line grownLine =>
        Grown totalLength (Agree names filled (eventTids state event)) line.toList
          grownLine.toList)
      (calculate others names state event) (calculate others filled state event) := by
  unfold calculate eventTids
  cases state.eventFormat.lookup (event.eventId : Int) with
  | none => exact Option.Rel.some (Or.inl ⟨nofun, rfl⟩)
  | some format =>
      dsimp only
      cases oneEventOf format event with
      | none => exact Option.Rel.none
      | some oneEvent =>
          rw [Option.bind_eq_bind, Option.bind_some, Option.bind_eq_bind, Option.bind_some]
          refine rel_bind (grown_generateOneEventStr hfills others state.cmdLines
            state.tidGroups event.segment event.timestamp oneEvent) ?_
          intro line grownLine hgrown
          refine Option.Rel.some ?_
          apply hgrown.map (fun text => [(event.timestamp, text)])
          intro left right hlength
          simpa [totalLength] using hlength

theorem grown_calculateAll (events : List TraceEvent) :
    Option.Rel (Grown totalLength (∀ event ∈ events, Agree names filled (eventTids state event)))
      (calculateAll others names state events) (calculateAll others filled state events) := by
  induction events with
  | nil => exact Option.Rel.some (Or.inl ⟨nofun, rfl⟩)
  | cons event rest ih =>
      rw [calculateAll, calculateAll, List.forall_mem_cons]
      refine rel_bind (grown_calculate hfills others state event) ?_
      intro line grownLine hline
      refine rel_bind ih ?_
      intro lines grownLines hlines
      exact Option.Rel.some (hline.append totalLength_append hlines)

end Lines

/-- Every thread that a line of the file looks up is among the tasks of the file itself,
or has no name in what earlier files left. -/
def Unleaked (earlier : Dict (List Char)) (state : ParserState) : Prop :=
  ∀ event ∈ state.traceEvents, ∀ tid ∈ eventTids state event, tid ≠ 0 →
    (state.processCmdLines.lookup tid).isSome = true ∨ cmdLineOf earlier tid = []

instance (earlier : Dict (List Char)) (state : ParserState) :
    Decidable (Unleaked earlier state) :=
  inferInstanceAs (Decidable (∀ event ∈ state.traceEvents, ∀ tid ∈ eventTids state event,
    tid ≠ 0 → (state.processCmdLines.lookup tid).isSome = true ∨ cmdLineOf earlier tid = []))

theorem cmdLineOf_append_iff (own earlier : Dict (List Char)) (tid : Int) :
    cmdLineOf own tid = cmdLineOf (own ++ earlier) tid ↔
      (own.lookup tid).isSome = true ∨ cmdLineOf earlier tid = [] := by
  simp only [cmdLineOf, List.lookup_append]
  cases own.lookup tid with
  | some name => simp
  | none =>
      simp only [Option.isSome_none, Bool.false_eq_true, false_or]
      exact eq_comm

theorem calculateAll_over (others : OtherFunctions) (names : Int → List Char)
    (state : ParserState) (earlier : Dict (List Char)) (events : List TraceEvent) :
    calculateAll others names (state.over earlier) events =
      calculateAll others names state events := by
  induction events with
  | nil => rfl
  | cons event rest ih =>
      rw [calculateAll, calculateAll, ih]
      rfl

def byTimestamp (lines : List (Nat × List Char)) : List (List Char) :=
  (lines.mergeSort fun left right => decide (left.1 ≤ right.1)).map Prod.snd

theorem eventLines_eq (others : OtherFunctions) (state : ParserState) :
    eventLines others state =
      (calculateAll others (cmdLineOf state.processCmdLines) state
        state.traceEvents).map byTimestamp := by
  rw [Option.map_eq_bind]
  rfl

theorem totalLength_byTimestamp (lines : List (Nat × List Char)) :
    ((byTimestamp lines).map List.length).sum = totalLength lines := by
  have hperm := List.mergeSort_perm lines fun left right => decide (left.1 ≤ right.1)
  rw [byTimestamp, List.map_map]
  exact (hperm.map _).sum_eq

theorem byTimestamp_eq_iff {agree : Prop} {lines grown : List (Nat × List Char)}
    (hgrown : Grown totalLength agree lines grown) :
    byTimestamp lines = byTimestamp grown ↔ agree := by
  have hsorted : Grown (fun lines => (lines.map List.length).sum) agree (byTimestamp lines)
      (byTimestamp grown) := by
    apply hgrown.map byTimestamp
    intro left right hlength
    rw [totalLength_byTimestamp, totalLength_byTimestamp]
    exact hlength
  exact hsorted.eq_iff

/-- The lines of a file over what earlier files left. -/
theorem eventLines_over (others : OtherFunctions) (state : ParserState)
    (earlier : Dict (List Char)) :
    Option.Rel (fun lines linesOver => lines = linesOver ↔ Unleaked earlier state)
      (eventLines others state) (eventLines others (state.over earlier)) := by
  have hall := grown_calculateAll (fills_over state.processCmdLines earlier) others state
    state.traceEvents
  have hunleaked : (∀ event ∈ state.traceEvents,
      Agree (cmdLineOf state.processCmdLines)
        (cmdLineOf (state.processCmdLines ++ earlier)) (eventTids state event)) ↔
      Unleaked earlier state := by
    simp only [Agree, Unleaked, cmdLineOf_append_iff]
  rw [hunleaked] at hall
  have hover : eventLines others (state.over earlier) =
      (calculateAll others (cmdLineOf (state.processCmdLines ++ earlier)) state
        state.traceEvents).map byTimestamp := by
    rw [eventLines_eq, calculateAll_over]
    rfl
  rw [hover, eventLines_eq]
  exact rel_map hall fun _ _ hgrown => byTimestamp_eq_iff hgrown

/-! Directories. -/

/-- What a file puts into the dict. -/
def ownCmdLines (content : List UInt8) : Dict (List Char) :=
  match acceptFile content [] with
  | none => []
  | some (_, state) => state.processCmdLines

/-- What the files before it leave in the dict, the latest first. -/
def leftBehind : List (List UInt8) → Dict (List Char)
  | [] => []
  | content :: rest => leftBehind rest ++ ownCmdLines content

/-- The file takes no name from what earlier files left. -/
def Independent (earlier : Dict (List Char)) (content : List UInt8) : Prop :=
  match acceptFile content [] with
  | none => True
  | some (_, state) => Unleaked earlier state

/-- A file that is converted alone is converted behind others as well, and its lines
are the same exactly if it takes no name from them. -/
theorem parseBinaryTraceFile_over {others : OtherFunctions} {content : List UInt8}
    {lines : List (List Char)} (halone : convertAlone others content = some lines)
    (earlier : Dict (List Char)) :
    ∃ linesOver, parseBinaryTraceFile others content earlier =
        some (linesOver, ownCmdLines content ++ earlier) ∧
      (linesOver = lines ↔ Independent earlier content) := by
  rw [convertAlone, Option.map_eq_some_iff] at halone
  obtain ⟨⟨found, left⟩, hparsed, hfound⟩ := halone
  cases hfound
  rw [parseBinaryTraceFile] at hparsed
  cases haccept : acceptFile content [] with
  | none =>
      rw [haccept] at hparsed
      cases hparsed
  | some result =>
      obtain ⟨infos, state⟩ := result
      simp only [haccept, Option.bind_eq_bind, Option.bind_some,
        Option.bind_eq_some_iff] at hparsed
      obtain ⟨aloneLines, hlines, hresult⟩ := hparsed
      cases hresult
      have hrel := eventLines_over others state earlier
      rw [hlines] at hrel
      cases hover : eventLines others (state.over earlier) with
      | none =>
          rw [hover] at hrel
          cases hrel
      | some linesOver =>
          rw [hover, Option.rel_some_some] at hrel
          refine ⟨linesOver, ?_, ?_⟩
          · rw [parseBinaryTraceFile, acceptFile_over, haccept, ownCmdLines, haccept]
            simp only [Option.map_some, Option.bind_eq_bind, Option.bind_some, hover]
            rfl
          · rw [Independent, haccept, eq_comm]
            exact hrel

theorem convertDirectory_iff (others : OtherFunctions) {files : List (List UInt8)}
    {alone : List (List (List Char))}
    (halone : files.mapM (convertAlone others) = some alone) (earlier : Dict (List Char)) :
    convertDirectory others files earlier = some alone ↔
      ∀ before content after, files = before ++ content :: after →
        Independent (leftBehind before ++ earlier) content := by
  induction files generalizing alone earlier with
  | nil =>
      cases halone
      refine iff_of_true rfl ?_
      intro before content after hsplit
      cases before <;> cases hsplit
  | cons content rest ih =>
      rw [List.mapM_cons, Option.bind_eq_bind, Option.bind_eq_some_iff] at halone
      obtain ⟨lines, hlines, halone⟩ := halone
      rw [Option.bind_eq_bind, Option.bind_eq_some_iff] at halone
      obtain ⟨othersAlone, hothersAlone, halone⟩ := halone
      cases halone
      obtain ⟨linesOver, hparsed, hsame⟩ := parseBinaryTraceFile_over hlines earlier
      have hleft : ∀ before, leftBehind (content :: before) ++ earlier =
          leftBehind before ++ (ownCmdLines content ++ earlier) :=
        fun before => List.append_assoc _ _ _
      simp only [forall_split_cons, hleft]
      rw [← ih hothersAlone (ownCmdLines content ++ earlier)]
      have hfirst : linesOver = lines ↔ Independent (leftBehind [] ++ earlier) content :=
        hsame
      rw [← hfirst, convertDirectory, hparsed, Option.bind_eq_bind, Option.bind_some]
      constructor
      · intro hconverted
        obtain ⟨converted, hrest, hresult⟩ := Option.bind_eq_some_iff.mp hconverted
        cases hresult
        exact ⟨rfl, hrest⟩
      · rintro ⟨rfl, hrest⟩
        exact Option.bind_eq_some_iff.mpr ⟨othersAlone, hrest, rfl⟩

/-- The files of a directory are converted as each alone exactly if no file takes a name
from what the files before it left. -/
theorem directory_conversion_iff (others : OtherFunctions) {files : List (List UInt8)}
    {alone : List (List (List Char))}
    (halone : files.mapM (convertAlone others) = some alone) :
    convertDirectory others files [] = some alone ↔
      ∀ before content after, files = before ++ content :: after →
        Independent (leftBehind before) content := by
  have hiff := convertDirectory_iff others halone []
  simp only [List.append_nil] at hiff
  exact hiff

/-! A file with the name of thread 7, and one with a wakeup of that thread. -/

def aliceSegments : List Segment :=
  [⟨2, textBytes ([⟨digitNumber 7, ⟨"alice".toList, by decide⟩⟩].map CmdLine.line),
    some 0⟩]

def wakeupField (declaration : List Char) (hline : '\n' ∉ declaration)
    (hfield : ';' ∉ declaration) (offset size : Number) : FieldLine :=
  ⟨⟨declaration, hline⟩, hfield, offset, size, digitNumber 0⟩

def wakeupText : EventText where
  name := ⟨"sched_wakeup".toList, by decide⟩
  id := digitNumber 1
  commonFields :=
    [wakeupField "u8 common_flags".toList (by decide) (by decide)
        (digitNumber 2) (digitNumber 1),
      wakeupField "u8 common_preempt_count".toList (by decide) (by decide)
        (digitNumber 3) (digitNumber 1),
      wakeupField "int common_pid".toList (by decide) (by decide)
        (digitNumber 4) (digitNumber 1)]
  fields :=
    [wakeupField "int pid".toList (by decide) (by decide)
        (digitNumber 5) (digitNumber 1),
      wakeupField "int prio".toList (by decide) (by decide)
        (digitNumber 6) (digitNumber 1),
      wakeupField "int target_cpu".toList (by decide) (by decide)
        (digitNumber 7) (digitNumber 1)]
  printFmt := ⟨printFmtSchedWakeupHmLite, by decide +kernel⟩

def wakeupEvent : TraceEvent :=
  { timestamp := 1000, coreId := 0, eventId := 1, segment := [1, 0, 0, 0, 9, 7, 20, 1] }

/-- A page with the one event. -/
def wakeupPage : List UInt8 :=
  [0xe8, 3, 0, 0, 0, 0, 0, 0] ++ List.replicate 9 0 ++ [0, 0, 0, 0, 8, 0] ++
    wakeupEvent.segment ++ List.replicate 4065 0

def wakeupSegments : List Segment :=
  [⟨1, textBytes ([wakeupText].flatMap EventText.lines), some 0⟩, ⟨4, wakeupPage, some 0⟩]

def fileOf (segments : List Segment) : List UInt8 :=
  TraceFileHeader.bytes {} ++ encodeSegments segments

theorem acceptFile_of {segments : List Segment}
    (hcount : segments.length ≤ SegmentWrapper.maxSegments)
    (hfits : ∀ segment ∈ segments, segment.Fits) {state : ParserState}
    (happly : applyOperators segments { cpuNum := 0 } = some state) :
    ∃ infos, acceptFile (fileOf segments) [] = some (infos, state) := by
  obtain ⟨infos, haccept⟩ := acceptFile_segments {} hcount hfits []
  exact ⟨infos, haccept.trans (congrArg (Option.map _) happly)⟩

theorem acceptFile_alice : ∃ infos, acceptFile (fileOf aliceSegments) [] = some (infos,
    { cpuNum := 0
      cmdLines := [(7, "alice".toList)]
      processCmdLines := [(7, "alice".toList)] }) := by
  refine acceptFile_of (by decide) (by decide +kernel) ?_
  decide +kernel

theorem acceptFile_wakeup : ∃ infos, acceptFile (fileOf wakeupSegments) [] = some (infos,
    { cpuNum := 0
      eventFormat := [wakeupText.entry]
      traceEvents := [wakeupEvent] }) := by
  refine acceptFile_of (by decide) (by decide +kernel) ?_
  have hparse : parseEventFormat (orEmptyList (some (textBytes
      ([wakeupText].flatMap EventText.lines)))) = some [wakeupText.entry] := by
    rw [orEmptyList_some]
    · exact parseEventFormat_textBytes [wakeupText]
    · decide +kernel
  have hraw : acceptRawTrace (some wakeupPage) = some [wakeupEvent] := by decide +kernel
  have hformat : operator (1 : UInt8).toNat 0 = .eventFormatSegment := rfl
  have hpipe : operator (4 : UInt8).toNat 0 = .rawTraceSegment := rfl
  simp only [applyOperators, wakeupSegments, List.foldlM_cons, List.foldlM_nil, hformat, hpipe,
    FieldOperator.accept, hparse, hraw, Option.bind_eq_bind, Option.bind_some]
  rfl

def noFunctions : OtherFunctions := fun _ => none

theorem convertAlone_of {content : List UInt8} {infos : List SegmentInfo}
    {state : ParserState} (haccept : acceptFile content [] = some (infos, state))
    {systrace : List (Nat × List Char)}
    (hsystrace : calculateAll noFunctions (cmdLineOf state.processCmdLines) state
      state.traceEvents = some systrace) :
    convertAlone noFunctions content = some (byTimestamp systrace) := by
  have hlines : eventLines noFunctions state = some (byTimestamp systrace) := by
    rw [eventLines_eq, hsystrace, Option.map_some]
  rw [convertAlone, parseBinaryTraceFile, haccept, Option.bind_eq_bind, Option.bind_some]
  dsimp only
  rw [hlines]
  rfl

theorem convertAlone_alice :
    ∃ lines, convertAlone noFunctions (fileOf aliceSegments) = some lines := by
  obtain ⟨infos, haccept⟩ := acceptFile_alice
  exact ⟨_, convertAlone_of haccept rfl⟩

theorem convertAlone_wakeup :
    ∃ lines, convertAlone noFunctions (fileOf wakeupSegments) = some lines := by
  obtain ⟨infos, haccept⟩ := acceptFile_wakeup
  have hsome : (calculateAll noFunctions (cmdLineOf [])
      { cpuNum := 0, eventFormat := [wakeupText.entry], traceEvents := [wakeupEvent] }
      [wakeupEvent]).isSome = true := by decide +kernel
  obtain ⟨systrace, hsystrace⟩ := Option.isSome_iff_exists.mp hsome
  exact ⟨_, convertAlone_of haccept hsystrace⟩

/-- Converted behind the file that names thread 7, the wakeup of that thread gets its
name; alone it gets none. -/
theorem wakeup_named_by_earlier_file :
    ∃ alone, [fileOf aliceSegments, fileOf wakeupSegments].mapM
        (convertAlone noFunctions) = some alone ∧
      convertDirectory noFunctions [fileOf aliceSegments, fileOf wakeupSegments] [] ≠
        some alone := by
  obtain ⟨aliceLines, halice⟩ := convertAlone_alice
  obtain ⟨wakeupLines, hwakeup⟩ := convertAlone_wakeup
  have halone : [fileOf aliceSegments, fileOf wakeupSegments].mapM
      (convertAlone noFunctions) = some [aliceLines, wakeupLines] := by
    rw [List.mapM_cons, halice, List.mapM_cons, hwakeup, List.mapM_nil]
    rfl
  obtain ⟨aliceInfos, hacceptAlice⟩ := acceptFile_alice
  obtain ⟨wakeupInfos, hacceptWakeup⟩ := acceptFile_wakeup
  have hleaked : ¬ Unleaked [(7, "alice".toList)]
      { cpuNum := 0, eventFormat := [wakeupText.entry], traceEvents := [wakeupEvent] } := by
    decide +kernel
  refine ⟨_, halone, ?_⟩
  intro hconverted
  rw [convertDirectory_iff noFunctions halone, forall_split_cons, forall_split_cons,
    leftBehind, leftBehind, ownCmdLines, hacceptAlice, Independent, Independent,
    hacceptWakeup] at hconverted
  exact hleaked hconverted.2.1

/-- In the other order nothing is taken over. -/
theorem directory_conversion_iff_wakeup_first :
    ∃ alone, [fileOf wakeupSegments, fileOf aliceSegments].mapM
        (convertAlone noFunctions) = some alone ∧
      convertDirectory noFunctions [fileOf wakeupSegments, fileOf aliceSegments] [] =
        some alone := by
  obtain ⟨aliceLines, halice⟩ := convertAlone_alice
  obtain ⟨wakeupLines, hwakeup⟩ := convertAlone_wakeup
  obtain ⟨aliceInfos, hacceptAlice⟩ := acceptFile_alice
  obtain ⟨wakeupInfos, hacceptWakeup⟩ := acceptFile_wakeup
  have halone : [fileOf wakeupSegments, fileOf aliceSegments].mapM
      (convertAlone noFunctions) = some [wakeupLines, aliceLines] := by
    rw [List.mapM_cons, hwakeup, List.mapM_cons, halice, List.mapM_nil]
    rfl
  refine ⟨_, halone, (directory_conversion_iff noFunctions halone).mpr ?_⟩
  rw [forall_split_cons, forall_split_cons]
  refine ⟨?_, ?_, ?_⟩
  · rw [Independent, hacceptWakeup]
    intro event _ tid _ _
    exact Or.inr rfl
  · rw [Independent, hacceptAlice]
    exact nofun
  · intro before content after hsplit
    cases before <;> cases hsplit

end Hitrace.HitraceConverter
