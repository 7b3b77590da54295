import Hitrace.HitraceConverter.OutputFile
import Hitrace.HitraceConverter.PageDecoding
import Hitrace.HitraceConverter.TextTables
import Hitrace.TraceFactory.DumpStatus
import Hitrace.TraceFactory.PageCapture
import Hitrace.TraceFactory.TextContents

namespace Hitrace.HitraceConverter

open Library TraceContent CpuRaw TextTables

/-! From the kernel through a snapshot and the converter. -/

/-- The lines of a table of the kernel, each with its newline. -/
def tableText (lines : List (List Char)) : List UInt8 :=
  encodeUtf8 (lines.flatMap (· ++ ['\n']))

/-- What the kernel has to say beside the pages of its buffers. -/
structure KernelTables where
  events : List EventDescription
  tasks : List TaskName
  groups : List TaskGroup
  someEvent : events ≠ []
  someGroup : groups ≠ []

namespace KernelTables

variable (tables : KernelTables)

def eventLines : List (List Char) :=
  tables.events.flatMap EventDescription.lines

def eventFormat : Dict EventFormat :=
  (tables.events.map EventDescription.entry).reverse

def cmdLines : Dict (List Char) :=
  (tables.tasks.map TaskName.entry).reverse

def tidGroups : Dict Int :=
  (tables.groups.map TaskGroup.entry).reverse

end KernelTables

/-! The sources of a dump that tell a text. -/

/-- A source whose reads make up the text, cut by no second failed check before the last
of them. -/
def CopiesText (isHm : Bool) (source : Option (List SourceRead)) (text : List UInt8) :
    Prop :=
  ∃ reads, source = some reads ∧ reads.flatMap SourceRead.bytes = text ∧
    reads.dropLast.countP (GlobalBuffer.readFails isHm) < 2

def EventsTold (isHm : Bool) (text : List UInt8) : EventFmt → Prop
  | .saved source => CopiesText isHm source text
  | .inline events => events.flatMap eventPayload = text

/-- The names the kernel has saved, and behind them those of the running processes. -/
def NamesTold (isHm : Bool) (tasks : List TaskName)
    (processes : Option (List (List UInt8))) : ListSource → Prop
  | .kernel source => ∃ saved running, tasks = saved ++ running ∧
      CopiesText isHm source (tableText (saved.map TaskName.line)) ∧
      processes.getD [] = running.map (fun task => tableText [task.line]) ∧
      ∀ line ∈ processes.getD [], line.length ≤ pageSize
  | .filter lines =>
      lines.flatMap FilterLine.bytes = tableText (tasks.map TaskName.line)

def GroupsTold (isHm : Bool) (groups : List TaskGroup) : ListSource → Prop
  | .kernel source => CopiesText isHm source (tableText (groups.map TaskGroup.line))
  | .filter lines =>
      lines.flatMap FilterLine.bytes = tableText (groups.map TaskGroup.line)

structure Told (isHm : Bool) (contents : TraceContents) (tables : KernelTables) :
    Prop where
  events : EventsTold isHm (tableText tables.eventLines) contents.eventFmt
  names : NamesTold isHm tables.tasks contents.processes contents.cmdLines
  groups : GroupsTold isHm tables.groups contents.tgids
  headerPage : isHm = false → contents.headerPage.isSome = true
  printkFormats : isHm = false → contents.printkFormats.isSome = true

theorem tableText_append (first second : List (List Char)) :
    tableText (first ++ second) = tableText first ++ tableText second := by
  simp [tableText, encodeUtf8]

theorem flatten_tableText (lines : List (List Char)) :
    (lines.map fun line => tableText [line]).flatten = tableText lines := by
  induction lines with
  | nil => rfl
  | cons line rest ih =>
      rw [List.map_cons, List.flatten_cons, ih, ← tableText_append, List.singleton_append]

theorem tableText_ne_nil {lines : List (List Char)} (hlines : lines ≠ []) :
    tableText lines ≠ [] := by
  cases lines with
  | nil => exact absurd rfl hlines
  | cons line rest =>
      intro hempty
      have htext := congrArg decodeUtf8 hempty
      rw [tableText, decodeUtf8_encodeUtf8] at htext
      simp [decodeUtf8] at htext

theorem CopiesText.payload {isHm : Bool} {source : Option (List SourceRead)}
    {text : List UInt8} (hcopies : CopiesText isHm source text) :
    source.isSome = true ∧ sourcePayload isHm source = text := by
  obtain ⟨reads, rfl, rfl, hchecks⟩ := hcopies
  refine ⟨rfl, ?_⟩
  have hlength := (GlobalBuffer.length_takenReads_eq_iff isHm reads Nat.zero_lt_two).mpr
    (by rwa [Nat.zero_add])
  exact (GlobalBuffer.takenReads_starts isHm reads 0).eq_of_length hlength

/-- No line is left out when each fits the room that a flush keeps. -/
theorem keptLines_flatten {lines : List (List UInt8)}
    (hfits : ∀ line ∈ lines, line.length ≤ pageSize) {used : Nat}
    (hused : used ≤ bufferSize - pageSize) : keptLines lines used = lines.flatten := by
  induction lines generalizing used with
  | nil => rfl
  | cons line rest ih =>
      obtain ⟨hline, hothers⟩ := List.forall_mem_cons.mp hfits
      have hpage : pageSize ≤ bufferSize := by decide
      rw [keptLines, if_neg (by omega), List.flatten_cons]
      split
      · next hroom => rw [ih hothers hroom]
      · rw [ih hothers (Nat.zero_le _)]

section Told

variable {isHm : Bool}

theorem EventsTold.segments {text : List UInt8} {eventFmt : EventFmt}
    (htold : EventsTold isHm text eventFmt) (outputFileSize : Int32) :
    (SegmentWrite.eventFmt eventFmt).Openable isHm ∧
      ∃ placeholder, (SegmentWrite.eventFmt eventFmt).segments isHm outputFileSize =
        [⟨ContentType.eventsFormat, text, placeholder⟩] := by
  cases eventFmt with
  | saved source =>
      obtain ⟨hopens, hpayload⟩ := CopiesText.payload htold
      exact ⟨hopens, none, by rw [SegmentWrite.segments, hpayload]⟩
  | inline events =>
      have hpayload : events.flatMap eventPayload = text := htold
      exact ⟨trivial, some 0, by rw [SegmentWrite.segments, hpayload]⟩

theorem NamesTold.payload {tasks : List TaskName} {processes : Option (List (List UInt8))}
    {source : ListSource} (htold : NamesTold isHm tasks processes source) :
    ListSource.opens source = true ∧
      cmdLinesPayload isHm source processes = tableText (tasks.map TaskName.line) := by
  cases source with
  | kernel source =>
      obtain ⟨saved, running, rfl, hsaved, hrunning, hlengths⟩ := htold
      obtain ⟨hopens, hpayload⟩ := hsaved.payload
      have hlines : running.map (fun task => tableText [task.line]) =
          (running.map TaskName.line).map fun line => tableText [line] := by
        simp only [List.map_map, Function.comp_def]
      refine ⟨hopens, ?_⟩
      rw [cmdLinesPayload, hpayload, keptLines_flatten hlengths (Nat.zero_le _), hrunning,
        hlines, flatten_tableText, List.map_append, tableText_append]
  | filter lines => exact ⟨rfl, htold⟩

theorem GroupsTold.payload {groups : List TaskGroup} {source : ListSource}
    (htold : GroupsTold isHm groups source) :
    ListSource.opens source = true ∧
      tgidsPayload isHm source = tableText (groups.map TaskGroup.line) := by
  cases source with
  | kernel source => exact CopiesText.payload htold
  | filter lines => exact ⟨rfl, htold⟩

end Told

/-! What the operators make of the segments. -/

/-- The events that a segment gives when it is taken for raw pages. -/
def segmentEvents (payload : List UInt8) : List TraceEvent :=
  (wholePages payload).flatMap pageEvents

theorem wholePages_pages {pages : List (List UInt8)}
    (hwhole : ∀ page ∈ pages, page.length = tracePageSize) :
    wholePages pages.flatten = pages := by
  induction pages with
  | nil => exact wholePages_of_lt (by decide)
  | cons page rest ih =>
      obtain ⟨hpage, hothers⟩ := List.forall_mem_cons.mp hwhole
      rw [List.flatten_cons, wholePages_of_le, ← hpage, List.take_left, List.drop_left,
        ih hothers]
      rw [List.length_append, hpage]
      exact Nat.le_add_right _ _

/-- The events of pages of the kernel. -/
def rawPageEvents (pages : List RawPage) : List TraceEvent :=
  pages.flatMap fun page => pageEvents page.bytes

theorem segmentEvents_pages {pages : List RawPage}
    (hwhole : ∀ page ∈ pages, page.bytes.length = tracePageSize) :
    segmentEvents (pages.flatMap RawPage.bytes) = rawPageEvents pages := by
  have hpages : ∀ page ∈ pages.map RawPage.bytes, page.length = tracePageSize := by
    intro page hmem
    obtain ⟨raw, hraw, rfl⟩ := List.mem_map.mp hmem
    exact hwhole raw hraw
  have hbytes : pages.flatMap RawPage.bytes = (pages.map RawPage.bytes).flatten :=
    List.flatMap_def
  rw [segmentEvents, hbytes, wholePages_pages hpages, List.flatMap_map, rawPageEvents]

theorem applyOperators_append (first second : List Segment) (state : ParserState) :
    applyOperators (first ++ second) state =
      (applyOperators first state).bind (applyOperators second) := by
  rw [applyOperators, List.foldlM_append]
  rfl

theorem applyOperators_singleton (segment : Segment) (state : ParserState) :
    applyOperators [segment] state =
      (operator segment.type.toNat state.cpuNum).accept (some segment.payload) state := by
  simp [applyOperators]

/-- A segment that no table parser takes. -/
def IsRaw (segment : Segment) : Prop :=
  ¬ Decodes segment.type.toNat ∧ segment.type ≠ ContentType.cmdLines

def ParserState.addEvents (state : ParserState) (events : List TraceEvent) : ParserState :=
  { state with traceEvents := state.traceEvents ++ events }

theorem applyOperators_raw {segments : List Segment}
    (hraw : ∀ segment ∈ segments, IsRaw segment) (state : ParserState) :
    applyOperators segments state =
      some (state.addEvents (segments.flatMap fun segment => segmentEvents segment.payload)) := by
  induction segments generalizing state with
  | nil => simp [applyOperators, ParserState.addEvents]
  | cons segment rest ih =>
      obtain ⟨hfirst, hothers⟩ := List.forall_mem_cons.mp hraw
      have hcmd : segment.type.toNat ≠ 2 := fun heq => hfirst.2 (UInt8.toNat_inj.mp heq)
      have hoperator := operator_raw hfirst.1 hcmd state.cpuNum
      have haccept := accept_rawTraceSegment segment.payload state
      rw [← hoperator] at haccept
      have hturn : applyOperators (segment :: rest) state =
          ((operator segment.type.toNat state.cpuNum).accept (some segment.payload)
            state).bind (applyOperators rest) := rfl
      rw [hturn, haccept, Option.bind_some, ih hothers]
      simp [ParserState.addEvents, segmentEvents]

section Tables

variable (tables : KernelTables) (state : ParserState) (placeholder : Option UInt32)

theorem applyOperators_events :
    applyOperators [⟨ContentType.eventsFormat, tableText tables.eventLines, placeholder⟩]
      state = some { state with eventFormat := tables.eventFormat } := by
  have hlines : tables.eventLines ≠ [] := by
    obtain ⟨event, rest, hevents⟩ := List.exists_cons_of_ne_nil tables.someEvent
    rw [KernelTables.eventLines, hevents, List.flatMap_cons]
    simp [EventDescription.lines, formatLines]
  have hparsed : parseEventFormat (orEmptyList (some (tableText tables.eventLines))) =
      some tables.eventFormat := by
    rw [orEmptyList_some (tableText_ne_nil hlines)]
    exact parseEventFormat_table true tables.events
  have hoperator : FieldOperator.eventFormatSegment.accept
      (some (tableText tables.eventLines)) state =
        some { state with eventFormat := tables.eventFormat } := by
    simp only [FieldOperator.accept, hparsed, Option.bind_eq_bind, Option.bind_some]
  rw [applyOperators_singleton]
  exact hoperator

theorem applyOperators_names :
    applyOperators
      [⟨ContentType.cmdLines, tableText (tables.tasks.map TaskName.line), placeholder⟩]
      state = some { state with
        cmdLines := tables.cmdLines
        processCmdLines := tables.cmdLines ++ state.processCmdLines } := by
  have hparsed : parseCmdLines
      (orEmptyList (some (tableText (tables.tasks.map TaskName.line)))) =
        some tables.cmdLines := by
    by_cases htasks : tables.tasks = []
    · rw [KernelTables.cmdLines, htasks]
      rfl
    · rw [orEmptyList_some (tableText_ne_nil (by simpa using htasks))]
      exact parseCmdLines_table true tables.tasks
  have hoperator : FieldOperator.cmdLinesSegment.accept
      (some (tableText (tables.tasks.map TaskName.line))) state = some { state with
        cmdLines := tables.cmdLines
        processCmdLines := tables.cmdLines ++ state.processCmdLines } := by
    simp only [FieldOperator.accept, hparsed, Option.bind_eq_bind, Option.bind_some]
  rw [applyOperators_singleton]
  exact hoperator

theorem applyOperators_groups :
    applyOperators
      [⟨ContentType.tgids, tableText (tables.groups.map TaskGroup.line), placeholder⟩]
      state = some { state with tidGroups := tables.tidGroups } := by
  have hlines : tables.groups.map TaskGroup.line ≠ [] := by simpa using tables.someGroup
  have hparsed : parseTidGroups
      (orEmptyList (some (tableText (tables.groups.map TaskGroup.line)))) =
        some tables.tidGroups := by
    rw [orEmptyList_some (tableText_ne_nil hlines)]
    exact parseTidGroups_table true tables.groups
  have hoperator : FieldOperator.tidGroupsSegment.accept
      (some (tableText (tables.groups.map TaskGroup.line))) state =
        some { state with tidGroups := tables.tidGroups } := by
    simp only [FieldOperator.accept, hparsed, Option.bind_eq_bind, Option.bind_some]
  rw [applyOperators_singleton]
  exact hoperator

end Tables

/-! The raw segments of a snapshot. -/

theorem cutAfterFailed_sub {fails : RawPage → Bool} (count : Nat) (pages : List RawPage) :
    ∀ page ∈ cutAfterFailed fails count pages, page ∈ pages := by
  induction pages generalizing count with
  | nil =>
      intro page hmem
      rw [cutAfterFailed_nil] at hmem
      exact hmem
  | cons first rest ih =>
      intro page hmem
      cases count with
      | zero => cases hmem
      | succ count =>
          rw [cutAfterFailed_cons] at hmem
          rcases List.mem_cons.mp hmem with rfl | hmem
          · exact List.mem_cons_self
          · exact List.mem_cons_of_mem first (ih _ page hmem)

theorem cachedPages_sub {fails : RawPage → Bool} {request : TraceDumpRequest}
    {pages : List RawPage} {page : RawPage}
    (hmem : page ∈ cachedPages fails request pages) : page ∈ pages := by
  rcases List.mem_append.mp hmem with hcaptured | hlate
  · exact windowPages_sub (cutAfterFailed_sub 2 _ page hcaptured)
  · rw [latePage] at hlate
    split at hlate
    · exact List.mem_of_find?_eq_some (Option.mem_toList.mp hlate)
    · cases hlate

theorem writtenPages_sub {fails : RawPage → Bool} {request : TraceDumpRequest}
    {pages : List RawPage} {page : RawPage}
    (hmem : page ∈ writtenPages fails request pages) : page ∈ pages := by
  rcases List.mem_append.mp hmem with hcaptured | hlate
  · exact cachedPages_sub (List.mem_append_left _ hcaptured)
  · split at hlate
    · cases hlate
    · exact cachedPages_sub (List.mem_append_right _ hlate)

theorem isRaw_of_le {type : UInt8} (htype : ContentType.cpuRaw.toNat ≤ type.toNat)
    (payload : List UInt8) (placeholder : Option UInt32) :
    IsRaw ⟨type, payload, placeholder⟩ := by
  have hraw : ContentType.cpuRaw.toNat = 4 := rfl
  rw [hraw] at htype
  constructor
  · rintro (hevents | hgroups)
    · exact absurd (hevents ▸ htype) (by decide)
    · exact absurd (hgroups ▸ htype) (by decide)
  · intro hcmd
    have htoNat : type.toNat = 2 := congrArg UInt8.toNat hcmd
    omega

theorem isRaw_cpuRaw {cpuIdx : Nat} (hcpu : cpuIdx < 252) (payload : List UInt8)
    (placeholder : Option UInt32) :
    IsRaw ⟨ContentType.cpuRaw + UInt8.ofNat cpuIdx, payload, placeholder⟩ := by
  apply isRaw_of_le
  have hraw : ContentType.cpuRaw.toNat = 4 := rfl
  rw [UInt8.toNat_add, UInt8.toNat_ofNat']
  omega

/-- What the converter is to find of the pipes: the captured pages, one processor behind
the other. -/
def capturedEvents (isHm : Bool) (request : TraceDumpRequest) (pipes : List RawPipe) :
    List TraceEvent :=
  pipes.flatMap fun pipe =>
    rawPageEvents (writtenPages (pageFails isHm) request pipe.pages)

def WholePages (pipes : List RawPipe) : Prop :=
  ∀ pipe ∈ pipes, ∀ page ∈ pipe.pages, page.bytes.length = tracePageSize

theorem pipeSegments_events (isHm : Bool) {request : TraceDumpRequest}
    (hunlimited : Unlimited request) {pipes : List RawPipe} (hwhole : WholePages pipes)
    (cpuIdx : Nat) (hcpus : cpuIdx + pipes.length ≤ 252) (outputFileSize : Int32) :
    (∀ segment ∈ pipeSegments isHm request pipes cpuIdx outputFileSize, IsRaw segment) ∧
      (pipeSegments isHm request pipes cpuIdx outputFileSize).flatMap
        (fun segment => segmentEvents segment.payload) =
          capturedEvents isHm request pipes := by
  induction pipes generalizing cpuIdx outputFileSize with
  | nil => exact ⟨nofun, rfl⟩
  | cons pipe rest ih =>
      obtain ⟨hpipe, hothers⟩ := List.forall_mem_cons.mp hwhole
      rw [List.length_cons] at hcpus
      obtain ⟨hraw, hevents⟩ := ih hothers (cpuIdx + 1) (by omega)
        (sizeAfter [pipeSegment isHm request outputFileSize pipe cpuIdx] outputFileSize)
      have hpayload : (pipeSegment isHm request outputFileSize pipe cpuIdx).payload =
          (writtenPages (pageFails isHm) request pipe.pages).flatMap RawPage.bytes := by
        rw [pipeSegment, takenPages_unlimited isHm hunlimited, takenBytes_eq]
      have htaken : ∀ page ∈ writtenPages (pageFails isHm) request pipe.pages,
          page.bytes.length = tracePageSize :=
        fun page hmem => hpipe page (writtenPages_sub hmem)
      refine ⟨List.forall_mem_cons.mpr ⟨isRaw_cpuRaw (by omega) _ _, hraw⟩, ?_⟩
      rw [pipeSegments, List.flatMap_cons, hevents, hpayload, segmentEvents_pages htaken,
        capturedEvents, capturedEvents, List.flatMap_cons]

theorem length_pipeSegments (isHm : Bool) (request : TraceDumpRequest)
    (pipes : List RawPipe) (cpuIdx : Nat) (outputFileSize : Int32) :
    (pipeSegments isHm request pipes cpuIdx outputFileSize).length = pipes.length := by
  induction pipes generalizing cpuIdx outputFileSize with
  | nil => rfl
  | cons pipe rest ih => rw [pipeSegments, List.length_cons, ih, List.length_cons]

/-! A dump and its file. -/

section Dump

variable (isHm : Bool) (contents : TraceContents) (raw : SegmentWrite)

/-- The writers of a dump around the one of its raw pages; the last two do nothing on
HM. -/
def dumpWrites : List SegmentWrite :=
  [.baseInfo contents.baseInfo, .eventFmt contents.eventFmt, raw,
    .cmdLines contents.cmdLines contents.processes, .tgids contents.tgids] ++
  if isHm then []
  else [SegmentWrite.headerPage contents.headerPage, .printkFmt contents.printkFormats]

/-- The segments of the two kernel files that the converter has operators for, but takes
for raw pages. -/
def formatSegments : List Segment :=
  if isHm then []
  else
    [⟨ContentType.headerPage, sourcePayload isHm contents.headerPage, none⟩,
      ⟨ContentType.printkFormats, sourcePayload isHm contents.printkFormats, none⟩]

/-- All the events the converter finds in a file with the given ones in its pages. -/
def dumpEvents (events : List TraceEvent) : List TraceEvent :=
  segmentEvents (baseInfoPayload contents.baseInfo) ++
    (events ++
      (formatSegments isHm contents).flatMap fun segment => segmentEvents segment.payload)

end Dump

/-- The segments of a dump that tells the tables, around the raw ones. -/
def segmentsAround (isHm : Bool) (contents : TraceContents) (tables : KernelTables)
    (placeholder : Option UInt32) (raws : List Segment) : List Segment :=
  [⟨ContentType.baseInfo, baseInfoPayload contents.baseInfo, some 0⟩] ++
    ([⟨ContentType.eventsFormat, tableText tables.eventLines, placeholder⟩] ++
      (raws ++
        ([⟨ContentType.cmdLines, tableText (tables.tasks.map TaskName.line), none⟩] ++
          ([⟨ContentType.tgids, tableText (tables.groups.map TaskGroup.line), none⟩] ++
            formatSegments isHm contents))))

/-- The state of the converter behind a dump that tells the tables. -/
def KernelTables.converted (tables : KernelTables) (cpuNum : Nat)
    (traceEvents : List TraceEvent) (earlier : Dict (List Char)) : ParserState where
  cpuNum := cpuNum
  cmdLines := tables.cmdLines
  eventFormat := tables.eventFormat
  tidGroups := tables.tidGroups
  traceEvents := traceEvents
  processCmdLines := tables.cmdLines ++ earlier

theorem ready_reset {io : TraceIo} (hready : io.Ready) :
    ({ io with outputFileSize := 0 } : TraceIo).Ready :=
  ⟨hready.path, hready.valid, hready.headerWrites, hready.writes, hready.accesses⟩

theorem isRaw_formatSegments (isHm : Bool) (contents : TraceContents) :
    ∀ segment ∈ formatSegments isHm contents, IsRaw segment := by
  cases isHm with
  | true => exact nofun
  | false =>
      rw [formatSegments, if_neg Bool.false_ne_true]
      simp only [List.forall_mem_cons]
      exact ⟨isRaw_of_le (by decide) _ _, isRaw_of_le (by decide) _ _, nofun⟩

theorem length_formatSegments (isHm : Bool) (contents : TraceContents) :
    (formatSegments isHm contents).length ≤ 2 := by
  cases isHm with
  | true => exact Nat.zero_le 2
  | false => exact Nat.le_refl 2

section Converts

variable {isHm : Bool} {contents : TraceContents} {tables : KernelTables}
  {raw : SegmentWrite} {io : TraceIo}

theorem Told.openable (htold : Told isHm contents tables) (hraw : raw.Openable isHm) :
    ∀ write ∈ dumpWrites isHm contents raw, write.Openable isHm := by
  have hlast : ∀ write ∈ (if isHm then [] else
      [SegmentWrite.headerPage contents.headerPage,
        .printkFmt contents.printkFormats]), write.Openable isHm := by
    cases isHm with
    | true => exact nofun
    | false =>
        simp only [Bool.false_eq_true, if_false, List.forall_mem_cons]
        exact ⟨htold.headerPage rfl, htold.printkFormats rfl, nofun⟩
  rw [dumpWrites, List.forall_mem_append]
  simp only [List.forall_mem_cons]
  exact ⟨⟨trivial, (htold.events.segments 0).1, hraw, htold.names.payload.1,
    htold.groups.payload.1, nofun⟩, hlast⟩

theorem onPre_ready (htold : Told isHm contents tables) (hlow : 1 ≤ contents.cpuNums)
    (hhigh : contents.cpuNums ≤ 24) (hready : io.Ready) :
    (onPre isHm contents io).Ready := by
  obtain ⟨header, hheader, _⟩ :=
    traceFileHdr_ready isHm contents.is32Bit hlow hhigh (ready_reset hready)
  have hopens : (SegmentWrite.baseInfo contents.baseInfo).Openable isHm := trivial
  have hbase := SegmentWrite.writeTraceContent_wrote hopens
    ((ready_reset hready).put header.bytes)
  have hevents := SegmentWrite.writeTraceContent_wrote (htold.events.segments 0).1 hbase.ready
  rw [onPre, hheader]
  exact hevents.ready

/-- What the strategies write, as one list of writers. -/
theorem writeTraceFile_dump :
    writeTraceFile isHm contents.is32Bit contents.cpuNums (dumpWrites isHm contents raw)
        { io with outputFileSize := 0 } =
      onPost isHm contents (raw.writeTraceContent isHm (onPre isHm contents io)) := by
  rw [writeTraceFile, writeContents, dumpWrites, List.foldl_append]
  cases isHm with
  | true =>
      simp only [List.foldl_cons, List.foldl_nil, SegmentWrite.writeTraceContent, if_true]
      rfl
  | false =>
      simp only [List.foldl_cons, List.foldl_nil, SegmentWrite.writeTraceContent,
        Bool.false_eq_true, if_false]
      rfl

/-- The segments in the file of a dump, in its order. -/
theorem dump_segments (htold : Told isHm contents tables) :
    ∃ placeholder size, contentSegments isHm (dumpWrites isHm contents raw) 0 =
      segmentsAround isHm contents tables placeholder (raw.segments isHm size) := by
  obtain ⟨placeholder, hevents⟩ := (htold.events.segments
    (sizeAfter ((SegmentWrite.baseInfo contents.baseInfo).segments isHm 0) 0)).2
  refine ⟨placeholder, sizeAfter
    [⟨ContentType.eventsFormat, tableText tables.eventLines, placeholder⟩]
      (sizeAfter ((SegmentWrite.baseInfo contents.baseInfo).segments isHm 0) 0), ?_⟩
  simp only [dumpWrites, List.cons_append, List.nil_append, contentSegments]
  rw [hevents]
  have hnames : ∀ size, (SegmentWrite.cmdLines contents.cmdLines contents.processes).segments
      isHm size =
        [⟨ContentType.cmdLines, tableText (tables.tasks.map TaskName.line), none⟩] := by
    intro size
    rw [SegmentWrite.segments, htold.names.payload.2]
  have hgroups : ∀ size, (SegmentWrite.tgids contents.tgids).segments isHm size =
      [⟨ContentType.tgids, tableText (tables.groups.map TaskGroup.line), none⟩] := by
    intro size
    rw [SegmentWrite.segments, htold.groups.payload.2]
  rw [hnames, hgroups]
  cases isHm with
  | true => simp [segmentsAround, formatSegments, contentSegments, SegmentWrite.segments]
  | false => simp [segmentsAround, formatSegments, contentSegments, SegmentWrite.segments]

/-- The operators on the segments of a dump, with nothing read before. -/
theorem applyOperators_around (isHm : Bool) (contents : TraceContents)
    (tables : KernelTables) (placeholder : Option UInt32) {raws : List Segment}
    (hraw : ∀ segment ∈ raws, IsRaw segment) (cpuNum : Nat)
    (earlier : Dict (List Char)) :
    applyOperators (segmentsAround isHm contents tables placeholder raws)
        { cpuNum, processCmdLines := earlier } =
      some (tables.converted cpuNum (dumpEvents isHm contents
        (raws.flatMap fun segment => segmentEvents segment.payload)) earlier) := by
  have hbase : ∀ segment ∈ [(⟨ContentType.baseInfo, baseInfoPayload contents.baseInfo,
      some 0⟩ : Segment)], IsRaw segment :=
    List.forall_mem_singleton.mpr (isRaw_of_le (by decide) _ _)
  rw [segmentsAround, applyOperators_append, applyOperators_raw hbase, Option.bind_some,
    applyOperators_append, applyOperators_events, Option.bind_some, applyOperators_append,
    applyOperators_raw hraw, Option.bind_some, applyOperators_append,
    applyOperators_names, Option.bind_some, applyOperators_append, applyOperators_groups,
    Option.bind_some, applyOperators_raw (isRaw_formatSegments isHm contents)]
  simp [ParserState.addEvents, KernelTables.converted, dumpEvents]

theorem applyOperators_dump (htold : Told isHm contents tables) {events : List TraceEvent}
    (hraw : ∀ size, (∀ segment ∈ raw.segments isHm size, IsRaw segment) ∧
      (raw.segments isHm size).flatMap (fun segment => segmentEvents segment.payload) =
        events)
    (cpuNum : Nat) (earlier : Dict (List Char)) :
    applyOperators (contentSegments isHm (dumpWrites isHm contents raw) 0)
        { cpuNum, processCmdLines := earlier } =
      some (tables.converted cpuNum (dumpEvents isHm contents events) earlier) := by
  obtain ⟨placeholder, size, hsegments⟩ := @dump_segments isHm contents tables raw htold
  rw [hsegments, applyOperators_around isHm contents tables placeholder (hraw size).1,
    (hraw size).2]

theorem length_segmentsAround (isHm : Bool) (contents : TraceContents)
    (tables : KernelTables) (placeholder : Option UInt32) (raws : List Segment) :
    (segmentsAround isHm contents tables placeholder raws).length =
      raws.length + 4 + (formatSegments isHm contents).length := by
  simp only [segmentsAround, List.length_append, List.length_singleton]
  omega

theorem length_dump_segments (htold : Told isHm contents tables)
    (hcount : ∀ size, (raw.segments isHm size).length ≤ 250) :
    (contentSegments isHm (dumpWrites isHm contents raw) 0).length ≤
      SegmentWrapper.maxSegments := by
  obtain ⟨placeholder, size, hsegments⟩ := @dump_segments isHm contents tables raw htold
  have hraw := hcount size
  have hformats := length_formatSegments isHm contents
  rw [hsegments, length_segmentsAround, SegmentWrapper.maxSegments]
  omega

end Converts

/-! The text of a dump. -/

open OutputFile in
/-- `parse_binary_trace_file` with the file it writes. -/
def convertFile (printers : OtherFunctions) (content : List UInt8)
    (earlier : Dict (List Char)) (outFile : List Char) (files : Files) : Option Files := do
  let (_, state) ← acceptFile content earlier
  some (traceViewerCalculate printers (cmdLineOf state.processCmdLines) state
    [{ outFile }] state.traceEvents files)

/-- Everything the converter makes of a file: the tables as the kernel has them, these
events, and, if their texts hold no newline, a text with a line for each of those in the
table of formats. -/
structure ConvertsTo (content : List UInt8) (cpuNum : Nat) (tables : KernelTables)
    (traceEvents : List TraceEvent) : Prop where
  state : ∀ earlier, ∃ infos, acceptFile content earlier =
    some (infos, tables.converted cpuNum traceEvents earlier)
  text : ∀ (printers : OtherFunctions) (earlier : Dict (List Char)) (outFile : List Char)
    (files : OutputFile.Files) (lines : List OutputFile.Line),
    OutputFile.Lines printers (cmdLineOf (tables.cmdLines ++ earlier))
      (tables.converted cpuNum traceEvents earlier) traceEvents lines →
    (∀ event ∈ traceEvents,
      OutputFile.inTable (tables.converted cpuNum traceEvents earlier) event = true →
        OutputFile.OneLine printers (cmdLineOf (tables.cmdLines ++ earlier))
          (tables.converted cpuNum traceEvents earlier) event) →
    ((files outFile).getD []).length ≤ (OutputFile.fileBytes lines).length →
      ∃ written, convertFile printers content earlier outFile files = some written ∧
        OutputFile.Exact printers (cmdLineOf (tables.cmdLines ++ earlier))
          (tables.converted cpuNum traceEvents earlier) traceEvents (written outFile)

theorem convertsTo_of_state {content : List UInt8} {cpuNum : Nat} {tables : KernelTables}
    {traceEvents : List TraceEvent}
    (hstate : ∀ earlier, ∃ infos, acceptFile content earlier =
      some (infos, tables.converted cpuNum traceEvents earlier)) :
    ConvertsTo content cpuNum tables traceEvents := by
  refine ⟨hstate, ?_⟩
  intro printers earlier outFile files lines hlines hone hlength
  obtain ⟨infos, haccept⟩ := hstate earlier
  refine ⟨_, ?_, OutputFile.exact_of_length_le hone hlines hlength⟩
  rw [convertFile, haccept]
  rfl

/-- The files with these segments; of their headers those of the segments that are told as
texts have no bytes in the padding, which the converter reads with the type. -/
inductive Padded (header : TraceFileHeader) (segments : List Segment) : List UInt8 → Prop
  | file (padding : Padding) (stored : List StoredSegment)
      (hsegments : stored.map StoredSegment.toSegment = segments)
      (htexts : TextsUnpadded stored) :
      Padded header segments (header.padded padding ++ storedBytes stored)

/-- The segments of a file as the writers leave it. -/
structure FileOf (content : List UInt8) (header : TraceFileHeader) (segments : List Segment) :
    Prop where
  content : content = header.bytes ++ encodeSegments segments
  fits : ∀ segment ∈ segments, segment.Fits

/-- What is written converts so, whatever the stack has left in the padding. -/
def Converts (content : List UInt8) (cpuNum : Nat) (tables : KernelTables)
    (traceEvents : List TraceEvent) : Prop :=
  ∃ header segments, FileOf content header segments ∧
    ∀ real, Padded header segments real → ConvertsTo real cpuNum tables traceEvents

theorem Padded.convertsTo {header : TraceFileHeader} {segments : List Segment}
    {real : List UInt8} (hpadded : Padded header segments real)
    (hcount : segments.length ≤ SegmentWrapper.maxSegments)
    (hfits : ∀ segment ∈ segments, segment.Fits) {cpuNum : Nat}
    (hcpu : (header.reserved.toNat >>> 1) &&& 0b00011111 = cpuNum) {tables : KernelTables}
    {traceEvents : List TraceEvent}
    (happly : ∀ earlier, applyOperators segments { cpuNum, processCmdLines := earlier } =
      some (tables.converted cpuNum traceEvents earlier)) :
    ConvertsTo real cpuNum tables traceEvents := by
  obtain ⟨padding, stored, hsegments, htexts⟩ := hpadded
  rw [← hsegments] at hfits
  rw [← hsegments, List.length_map] at hcount
  apply convertsTo_of_state
  intro earlier
  obtain ⟨infos, haccept⟩ :=
    acceptFile_stored header padding hcount (fits_of_toSegment hfits) htexts earlier
  rw [hcpu, hsegments, happly] at haccept
  exact ⟨infos, haccept⟩

/-- The file of a dump converts to the tables and the events of its raw segments. -/
theorem dump_converts {isHm : Bool} {contents : TraceContents} {tables : KernelTables}
    {raw : SegmentWrite} {io : TraceIo} (htold : Told isHm contents tables)
    (hopens : raw.Openable isHm) (hlow : 1 ≤ contents.cpuNums) (hhigh : contents.cpuNums ≤ 24)
    (hready : io.Ready) (hfile : io.file = {}) {events : List TraceEvent}
    (hraw : ∀ size, (∀ segment ∈ raw.segments isHm size, IsRaw segment) ∧
      (raw.segments isHm size).flatMap (fun segment => segmentEvents segment.payload) =
        events)
    (hcount : ∀ size, (raw.segments isHm size).length ≤ 250)
    (hfits : ∀ segment ∈ contentSegments isHm (dumpWrites isHm contents raw) 0,
      segment.Fits) :
    Converts
      (onPost isHm contents
        (raw.writeTraceContent isHm (onPre isHm contents io))).file.content
      contents.cpuNums.toNat tables (dumpEvents isHm contents events) := by
  obtain ⟨header, hcpu, hwritten⟩ := @writeTraceFile_segments isHm contents.is32Bit _ hlow
    hhigh _ (htold.openable hopens) _ (ready_reset hready) hfile
  have hend : PosixFile.AtEnd ⟨header.bytes, header.bytes.length⟩ := rfl
  have hcontent : (onPost isHm contents
      (raw.writeTraceContent isHm (onPre isHm contents io))).file.content =
        header.bytes ++
          encodeSegments (contentSegments isHm (dumpWrites isHm contents raw) 0) := by
    rw [← writeTraceFile_dump, hwritten, writeSegments_of_fits hend hfits]
  refine ⟨header, _, ⟨hcontent, hfits⟩, fun real hreal => ?_⟩
  exact hreal.convertsTo (length_dump_segments htold hcount) hfits hcpu
    (applyOperators_dump htold hraw _)

/-! A snapshot. -/

/-- HM has one pipe for all processors. -/
def snapshotPipes (isHm : Bool) (pipe : RawPipe) (others : List RawPipe) : List RawPipe :=
  if isHm then [pipe] else pipe :: others

section Snapshot

variable {isHm : Bool} {contents : TraceContents} {tables : KernelTables}
  {request : TraceDumpRequest} {pipe : RawPipe} {others : List RawPipe} {io : TraceIo}

theorem cpuRaw_openable
    (hopens : ∀ opened ∈ snapshotPipes isHm pipe others, opened.opens = true) :
    (SegmentWrite.cpuRaw request pipe others).Openable isHm := by
  cases isHm with
  | true => exact ⟨hopens pipe List.mem_cons_self, nofun⟩
  | false =>
      obtain ⟨hfirst, hrest⟩ := List.forall_mem_cons.mp hopens
      exact ⟨hfirst, fun _ => hrest⟩

/-- A snapshot with the result `SUCCESS` has run all its writers. -/
theorem snapshotTraceDump_io (htold : Told isHm contents tables)
    (hopens : ∀ opened ∈ snapshotPipes isHm pipe others, opened.opens = true)
    (hlow : 1 ≤ contents.cpuNums) (hhigh : contents.cpuNums ≤ 24) (hready : io.Ready)
    (hcode : (snapshotTraceDump isHm contents request (snapshotPipes isHm pipe others)
      io).1.code = .success) :
    (snapshotTraceDump isHm contents request (snapshotPipes isHm pipe others) io).2 =
      onPost isHm contents ((SegmentWrite.cpuRaw request pipe others).writeTraceContent isHm
        (onPre isHm contents io)) := by
  obtain ⟨content, hwrite, _⟩ := writePipes_status isHm request hopens 0
    { io := onPre isHm contents io } (onPre_ready htold hlow hhigh hready)
  have hraw : traceCpuRaw isHm request (snapshotPipes isHm pipe others)
      (onPre isHm contents io) =
        (decide (content.status.dumpStatus = .success), content) := by
    rw [traceCpuRaw, hwrite]
    rfl
  rw [snapshotTraceDump, hraw] at hcode ⊢
  by_cases hstatus : content.status.dumpStatus = .success
  · rw [decide_eq_true hstatus] at hraw ⊢
    have hpipes : (SegmentWrite.cpuRaw request pipe others).writeTraceContent isHm
        (onPre isHm contents io) = content.io := by
      cases isHm with
      | true => exact congrArg (fun result => result.2.io) hraw
      | false => exact congrArg (fun result => result.2.io) hraw
    rw [hpipes]
  · rw [decide_eq_false hstatus] at hcode
    exact absurd hcode hstatus

/-- What a snapshot that reports `SUCCESS` leaves behind converts to the tables of the
kernel and the events of the captured pages, with those of the segments that are taken
for pages. -/
theorem snapshot_converts (htold : Told isHm contents tables)
    (hopens : ∀ opened ∈ snapshotPipes isHm pipe others, opened.opens = true)
    (hlow : 1 ≤ contents.cpuNums) (hhigh : contents.cpuNums ≤ 24)
    (hpipes : ((snapshotPipes isHm pipe others).length : Int) ≤ contents.cpuNums)
    (hunlimited : Unlimited request) (hwhole : WholePages (snapshotPipes isHm pipe others))
    (hready : io.Ready) (hfile : io.file = {})
    (hfits : ∀ segment ∈ contentSegments isHm
      (dumpWrites isHm contents (.cpuRaw request pipe others)) 0, segment.Fits)
    (hcode : (snapshotTraceDump isHm contents request (snapshotPipes isHm pipe others)
      io).1.code = .success) :
    Converts (snapshotTraceDump isHm contents request (snapshotPipes isHm pipe others)
        io).2.file.content contents.cpuNums.toNat tables
      (dumpEvents isHm contents
        (capturedEvents isHm request (snapshotPipes isHm pipe others))) := by
  rw [snapshotTraceDump_io htold hopens hlow hhigh hready hcode]
  refine dump_converts htold (cpuRaw_openable hopens) hlow hhigh hready hfile ?_ ?_ hfits
  · exact pipeSegments_events isHm hunlimited hwhole 0 (by omega)
  · intro size
    have hlength := length_pipeSegments isHm request (snapshotPipes isHm pipe others) 0 size
    have hsegments : (SegmentWrite.cpuRaw request pipe others).segments isHm size =
        pipeSegments isHm request (snapshotPipes isHm pipe others) 0 size := rfl
    rw [hsegments, hlength]
    omega

end Snapshot

def sampleTables : KernelTables where
  events := [irqEvent]
  tasks := []
  groups := [⟨⟨6, by decide⟩, ⟨6, by decide⟩⟩]
  someEvent := List.cons_ne_nil _ _
  someGroup := List.cons_ne_nil _ _

/-- The tables as they are given to an HM dump. -/
def sampleContents : TraceContents where
  is32Bit := false
  cpuNums := 1
  baseInfo := ⟨[], 0, 0⟩
  eventFmt := .saved (some [⟨tableText sampleTables.eventLines, 0,
    tableText_ne_nil (List.cons_ne_nil _ _), by decide +kernel⟩])
  cmdLines := .filter []
  processes := none
  tgids := .filter [⟨tableText (sampleTables.groups.map TaskGroup.line), by decide +kernel⟩]
  headerPage := none
  printkFormats := none

theorem sampleContents_told : Told true sampleContents sampleTables where
  events := ⟨_, rfl, List.append_nil _, by decide⟩
  names := rfl
  groups := List.append_nil _
  headerPage := nofun
  printkFormats := nofun

/-- A page without an event. -/
def emptyPage : RawPage := ⟨List.replicate 4096 0, 0, by decide +kernel⟩

/-- The segments with what the stack may have left in their headers. -/
def littered (segments : List Segment) : List StoredSegment :=
  segments.map fun segment =>
    { segment with
      padding :=
        if Decodes segment.type.toNat ∨ segment.type = 2 then {} else ⟨1, 127, 255⟩ }

theorem padded_littered (header : TraceFileHeader) (segments : List Segment) :
    Padded header segments (header.padded ⟨9, 9, 9⟩ ++ storedBytes (littered segments)) := by
  refine .file _ _ ?_ ?_
  · rw [littered, List.map_map]
    exact List.map_id _
  · intro stored hmem htext
    obtain ⟨segment, _, rfl⟩ := List.mem_map.mp hmem
    exact if_pos htext

/-- One page of the only processor. -/
theorem snapshot_converts_one_page :
    ∃ header segments, FileOf (snapshotTraceDump true sampleContents { traceEndTime := 1 }
        (snapshotPipes true ⟨true, [emptyPage]⟩ []) GlobalBuffer.emptyOutput).2.file.content
          header segments ∧
      ConvertsTo (header.padded ⟨9, 9, 9⟩ ++ storedBytes (littered segments)) 1 sampleTables
        (dumpEvents true sampleContents (capturedEvents true { traceEndTime := 1 }
          (snapshotPipes true ⟨true, [emptyPage]⟩ []))) := by
  have hwhole : WholePages (snapshotPipes true ⟨true, [emptyPage]⟩ []) :=
    List.forall_mem_singleton.mpr (List.forall_mem_singleton.mpr (List.length_replicate ..))
  have hready : GlobalBuffer.emptyOutput.Ready := ⟨by decide, rfl, rfl, rfl, rfl⟩
  have hcode : (snapshotTraceDump true sampleContents { traceEndTime := 1 }
      (snapshotPipes true ⟨true, [emptyPage]⟩ []) GlobalBuffer.emptyOutput).1.code =
        .success := by
    decide +kernel
  obtain ⟨header, segments, hfile, hconverts⟩ := snapshot_converts sampleContents_told
    (by decide) (by decide) (by decide) (by decide) (Or.inr rfl) hwhole hready rfl
    (by decide +kernel) hcode
  exact ⟨header, segments, hfile, hconverts _ (padded_littered header segments)⟩

end Hitrace.HitraceConverter
