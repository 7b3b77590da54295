import Hitrace.TraceFactory.GlobalBuffer

namespace Hitrace

open Library

namespace GlobalBuffer

open TraceContent

/-! Text copied from a source. -/

def readFails (isHm : Bool) (read : SourceRead) : Bool :=
  !checkPage isHm read.pageHeaderSize

theorem flatMap_bytes_ne_nil {reads : List SourceRead} (hreads : reads ≠ []) :
    0 < (reads.flatMap SourceRead.bytes).length := by
  cases reads with
  | nil => exact absurd rfl hreads
  | cons read rest =>
      have hread := List.length_pos_of_ne_nil read.nonempty
      rw [List.flatMap_cons, List.length_append]
      omega

/-- Nothing is left out unless the second failed check comes before the last
read. -/
theorem length_takenReads_eq_iff (isHm : Bool) (reads : List SourceRead)
    {failed : Nat} (hfailed : failed < 2) :
    (takenReads isHm reads failed).length =
        (reads.flatMap SourceRead.bytes).length ↔
      failed + reads.dropLast.countP (readFails isHm) < 2 := by
  induction reads generalizing failed with
  | nil => simpa [takenReads] using hfailed
  | cons read rest ih =>
      have hnext : failedTime isHm read.pageHeaderSize failed =
          failed + if readFails isHm read then 1 else 0 := failedTime_eq ..
      rw [takenReads, hnext, List.flatMap_cons, List.length_append, List.length_append,
        Nat.add_left_cancel_iff]
      by_cases hrest : rest = []
      · simpa [hrest, takenReads] using hfailed
      · have hbytes := flatMap_bytes_ne_nil hrest
        have hdrop : (read :: rest).dropLast = read :: rest.dropLast :=
          List.dropLast_cons_of_ne_nil hrest
        rw [hdrop, List.countP_cons]
        by_cases hstop : failed + (if readFails isHm read then 1 else 0) ≥ 2
        · rw [if_pos hstop, List.length_nil]
          constructor
          · intro hempty
            omega
          · intro hcount
            omega
        · rw [if_neg hstop, ih (by omega)]
          omega

/-- The whole source has been written and counted, and no byte was stored past
the array. -/
def CopiedWhole (isHm : Bool) (reads : List SourceRead) (gBuffer : GlobalBuffer)
    (io : TraceIo) : Prop :=
  GlobalBuffer.writeTraceDataContent isHm (some reads) gBuffer io =
    some (((reads.flatMap SourceRead.bytes).length : Int),
      io.put (reads.flatMap SourceRead.bytes))

theorem takenReads_starts (isHm : Bool) (reads : List SourceRead) (failed : Nat) :
    takenReads isHm reads failed <+: reads.flatMap SourceRead.bytes := by
  induction reads generalizing failed with
  | nil => exact List.nil_prefix
  | cons read rest ih =>
      rw [takenReads, List.flatMap_cons]
      apply (List.prefix_append_right_inj read.bytes).mpr
      split
      · exact List.nil_prefix
      · exact ih _

/-- A text is copied whole unless two of its reads before the last one fail the
check that is meant for pages. -/
theorem text_copied_whole_iff (isHm : Bool) (reads : List SourceRead)
    (gBuffer : GlobalBuffer) {io : TraceIo} (hwritable : io.Writable) :
    CopiedWhole isHm reads gBuffer io ↔
      reads.dropLast.countP (readFails isHm) < 2 := by
  have hwrite := writeTraceDataContent_writable isHm (some reads) rfl hwritable
  have hpayload : sourcePayload isHm (some reads) = takenReads isHm reads 0 := rfl
  have hiff := length_takenReads_eq_iff isHm reads (Nat.zero_lt_two)
  rw [Nat.zero_add] at hiff
  rw [CopiedWhole, writeTraceDataContent_eq, hwrite, hpayload, ← hiff]
  constructor
  · intro hsame
    have hlength := congrArg Prod.fst (Option.some.inj hsame)
    exact Int.ofNat.inj hlength
  · intro hlength
    rw [(takenReads_starts isHm reads 0).eq_of_length hlength]

/-- A read of one byte, checked while the given word lies behind the argument. -/
def readOf (byte : UInt8) (pageHeaderSize : UInt64) : SourceRead where
  bytes := [byte]
  pageHeaderSize := pageHeaderSize
  nonempty := List.cons_ne_nil _ _
  fits := by simp [pageSize]

def emptyOutput : TraceIo := { traceFilePath := ['o'], fdValid := true }

theorem text_copied_whole_iff_two_failures :
    CopiedWhole false [readOf 97 0, readOf 98 4096, readOf 99 0] zeroBuffer
      emptyOutput :=
  (text_copied_whole_iff false _ zeroBuffer ⟨rfl, rfl, rfl⟩).mpr (by decide)

theorem text_is_cut_after_second_failure :
    ¬ ∀ (isHm : Bool) (reads : List SourceRead) (gBuffer : GlobalBuffer)
      (io : TraceIo), io.Writable → CopiedWhole isHm reads gBuffer io := by
  intro hwhole
  have hwritable : emptyOutput.Writable := ⟨rfl, rfl, rfl⟩
  have hcut := hwhole false [readOf 97 0, readOf 98 0, readOf 99 0] zeroBuffer
    emptyOutput hwritable
  rw [CopiedWhole, writeTraceDataContent_eq, writeTraceDataContent_writable false _ rfl
    hwritable] at hcut
  have hlength := congrArg Prod.fst (Option.some.inj hcut)
  revert hlength
  decide

/-! Lines built in memory. -/

structure TraceFilterContext where
  filterCmdLines : List (List UInt8)
  filterPids : List (List UInt8)
  filterTGidsContent : List (List UInt8 × List UInt8)

structure LineBuffer where
  gBuffer : GlobalBuffer
  bytes : Nat := 0
  writeLen : Int := 0
  io : TraceIo

namespace LineBuffer

def flush (state : LineBuffer) : LineBuffer :=
  let (writeLen, io) :=
    doWriteTraceData (state.gBuffer.load 0 state.bytes) state.writeLen state.io
  { state with bytes := 0, writeLen, io }

/-- What the handlers of all three traversals do with their line. -/
def addLine (state : LineBuffer) (line : List UInt8) : Option LineBuffer :=
  let state := if state.bytes + line.length > bufferSize then state.flush else state
  match FixedBuffer.storeEach line state.bytes state.gBuffer with
  | none => none
  | some gBuffer => some { state with gBuffer, bytes := state.bytes + line.length }

/-- `memcpy_s` clears the rest of the array when the data does not fit. -/
def appendToBuffer (state : LineBuffer) (data : List UInt8) : Option LineBuffer :=
  if data.length > bufferSize - state.bytes then
    match state.gBuffer.store state.bytes
        (List.replicate (bufferSize - state.bytes) 0) with
    | none => none
    | some gBuffer => some { state with gBuffer }
  else
    match state.gBuffer.store state.bytes data with
    | none => none
    | some gBuffer =>
        let state := { state with gBuffer, bytes := state.bytes + data.length }
        some (if state.bytes > bufferSize - pageSize then state.flush else state)

end LineBuffer

def pidLine (readProcessName : List UInt8 → List UInt8) (pid : List UInt8) :
    List UInt8 :=
  pid ++ bytesOf " " ++ readProcessName pid ++ bytesOf "\n"

def tgidLine (tgid : List UInt8 × List UInt8) : List UInt8 :=
  tgid.1 ++ bytesOf " " ++ tgid.2 ++ bytesOf "\n"

/-- `TraceCmdLinesContent::WriteTraceDataContent` with a filter context. -/
def filteredCmdLines (readProcessName : List UInt8 → List UInt8)
    (context : TraceFilterContext) (gBuffer : GlobalBuffer) (io : TraceIo) :
    Option (Int × TraceIo) := do
  let state ← context.filterCmdLines.foldlM LineBuffer.addLine { gBuffer, io }
  let state ← context.filterPids.foldlM
    (fun (state : LineBuffer) pid =>
      state.addLine (pidLine readProcessName pid)) state
  some (state.flush.writeLen, state.flush.io)

/-- `TraceTgidsContent::WriteTraceDataContent` with a filter context. -/
def filteredTgids (context : TraceFilterContext) (gBuffer : GlobalBuffer)
    (io : TraceIo) : Option (Int × TraceIo) := do
  let state ← context.filterTGidsContent.foldlM
    (fun (state : LineBuffer) tgid => state.addLine (tgidLine tgid)) { gBuffer, io }
  some (state.flush.writeLen, state.flush.io)

/-- An entry of `/proc`, with what `ReadProcessName` finds for it. -/
structure ProcEntry where
  isDir : Bool
  dirName : List UInt8
  processName : List UInt8

def isDigit (char : UInt8) : Bool := decide (48 ≤ char) && decide (char ≤ 57)

def ProcEntry.result (entry : ProcEntry) : Option (List UInt8) :=
  if !entry.isDir || decide (entry.dirName = bytesOf ".") ||
      decide (entry.dirName = bytesOf "..") then none
  else if !entry.dirName.all isDigit then none
  else if entry.processName.isEmpty then none
  else some (entry.dirName ++ bytesOf " " ++ entry.processName ++ bytesOf "\n")

def addEntry (state : LineBuffer) (entry : ProcEntry) : Option LineBuffer :=
  match entry.result with
  | none => some state
  | some result => state.appendToBuffer result

def writeProcessLists (procDir : Option (List ProcEntry)) (gBuffer : GlobalBuffer)
    (writeLen : Int) (io : TraceIo) : Option (Int × TraceIo) :=
  match procDir with
  | none => some (writeLen, io)
  | some entries => do
      let state ← entries.foldlM addEntry { gBuffer, writeLen, io }
      if state.bytes > 0 then some (state.flush.writeLen, state.flush.io)
      else some (state.writeLen, state.io)

/-! The lists of lines do what the array does. -/

namespace LineBuffer

def buffer (state : LineBuffer) : List UInt8 :=
  state.gBuffer.load 0 state.bytes

theorem length_buffer {state : LineBuffer} (hfits : state.bytes ≤ bufferSize) :
    state.buffer.length = state.bytes :=
  state.gBuffer.length_load_front hfits

theorem flush_buffer (state : LineBuffer) : state.flush.buffer = [] :=
  FixedBuffer.load_zero _ _

def filterLoop (lines : List FilterLine) (state : LineBuffer) : Int × TraceIo :=
  writeFilterLines lines state.buffer state.writeLen state.io

theorem addLine_filterLoop {state : LineBuffer} (hfits : state.bytes ≤ bufferSize)
    (line : FilterLine) :
    ∃ next, state.addLine line.bytes = some next ∧ next.bytes ≤ bufferSize ∧
      ∀ rest, state.filterLoop (line :: rest) = next.filterLoop rest := by
  have hline := line.fits
  rw [addLine]
  by_cases hfull : state.bytes + line.bytes.length > bufferSize
  · have hroom : state.flush.bytes + line.bytes.length ≤ bufferSize := by
      rw [show state.flush.bytes = 0 from rfl, Nat.zero_add]
      exact hline
    obtain ⟨gBuffer, hstore, hstored⟩ :=
      state.flush.gBuffer.exists_storeEach hroom
    rw [if_pos hfull, hstore]
    refine ⟨_, rfl, hroom, ?_⟩
    intro rest
    have hbuffer : buffer { state.flush with
        gBuffer, bytes := state.flush.bytes + line.bytes.length } = line.bytes :=
      hstored.trans (congrArg (· ++ line.bytes) state.flush_buffer)
    rw [filterLoop, writeFilterLines, length_buffer hfits, if_pos hfull, filterLoop,
      hbuffer]
    rfl
  · have hroom : state.bytes + line.bytes.length ≤ bufferSize := by omega
    obtain ⟨gBuffer, hstore, hstored⟩ := state.gBuffer.exists_storeEach hroom
    rw [if_neg hfull, hstore]
    refine ⟨_, rfl, hroom, ?_⟩
    intro rest
    have hbuffer : buffer { state with
        gBuffer, bytes := state.bytes + line.bytes.length } =
          state.buffer ++ line.bytes := hstored
    rw [filterLoop, writeFilterLines, length_buffer hfits, if_neg hfull, filterLoop,
      hbuffer]

theorem foldlM_addLine (lines : List FilterLine) (state : LineBuffer)
    (hfits : state.bytes ≤ bufferSize) :
    ∃ final, (lines.map FilterLine.bytes).foldlM addLine state = some final ∧
      state.filterLoop lines = (final.flush.writeLen, final.flush.io) := by
  induction lines generalizing state with
  | nil => exact ⟨state, rfl, rfl⟩
  | cons line rest ih =>
      obtain ⟨next, hnext, hfits, hloop⟩ := addLine_filterLoop hfits line
      obtain ⟨final, hfinal, hrest⟩ := ih next hfits
      refine ⟨final, ?_, (hloop rest).trans hrest⟩
      rw [List.map_cons, List.foldlM_cons, hnext]
      exact hfinal

def processLoop (lines : List (List UInt8)) (state : LineBuffer) : Int × TraceIo :=
  writeProcessLoop lines state.buffer state.writeLen state.io

theorem appendToBuffer_processLoop {state : LineBuffer}
    (hfits : state.bytes ≤ bufferSize) (line : List UInt8) :
    ∃ next, state.appendToBuffer line = some next ∧ next.bytes ≤ bufferSize ∧
      ∀ rest, state.processLoop (line :: rest) = next.processLoop rest := by
  have hlength := length_buffer hfits
  rw [appendToBuffer]
  by_cases hdropped : line.length > bufferSize - state.bytes
  · have hroom : state.bytes +
        (List.replicate (bufferSize - state.bytes) (0 : UInt8)).length ≤
          bufferSize := by
      rw [List.length_replicate]
      omega
    obtain ⟨gBuffer, hstore, hstored⟩ := state.gBuffer.exists_store hroom
    have hbuffer : buffer { state with gBuffer } = state.buffer := hstored.kept
    rw [if_pos hdropped, hstore]
    refine ⟨{ state with gBuffer }, rfl, hfits, ?_⟩
    intro rest
    rw [processLoop, writeProcessLoop, TraceContent.appendToBuffer, hlength,
      if_pos hdropped, processLoop, hbuffer]
  · have hroom : state.bytes + line.length ≤ bufferSize := by omega
    obtain ⟨gBuffer, hstore, hstored⟩ := state.gBuffer.exists_store hroom
    have hgrown : buffer { state with gBuffer, bytes := state.bytes + line.length } =
        state.buffer ++ line := hstored.grown
    have hlong : (state.buffer ++ line).length = state.bytes + line.length := by
      rw [List.length_append, hlength]
    rw [if_neg hdropped, hstore]
    refine ⟨_, rfl, ?_, ?_⟩
    · dsimp only
      split
      · exact Nat.zero_le _
      · exact hroom
    · intro rest
      rw [processLoop, writeProcessLoop, TraceContent.appendToBuffer, hlength,
        if_neg hdropped, flushFull, hlong]
      by_cases hfull : state.bytes + line.length > bufferSize - pageSize
      · rw [if_neg (Nat.not_le_of_gt hfull), if_pos hfull, processLoop, flush_buffer,
          ← hgrown]
        rfl
      · rw [if_pos (Nat.le_of_not_gt hfull), if_neg hfull, processLoop, hgrown]

theorem foldlM_addEntry (entries : List ProcEntry) (state : LineBuffer)
    (hfits : state.bytes ≤ bufferSize) :
    ∃ final, entries.foldlM addEntry state = some final ∧
      final.bytes ≤ bufferSize ∧
      state.processLoop (entries.filterMap ProcEntry.result) =
        final.processLoop [] := by
  induction entries generalizing state with
  | nil => exact ⟨state, rfl, hfits, rfl⟩
  | cons entry rest ih =>
      rw [List.foldlM_cons, addEntry]
      cases hresult : entry.result with
      | none =>
          rw [List.filterMap_cons_none hresult]
          exact ih state hfits
      | some line =>
          obtain ⟨next, hnext, hfits, hloop⟩ :=
            appendToBuffer_processLoop hfits line
          obtain ⟨final, hfinal, hbytes, hrest⟩ := ih next hfits
          rw [List.filterMap_cons_some hresult]
          dsimp only
          rw [hnext]
          exact ⟨final, hfinal, hbytes, (hloop _).trans hrest⟩

end LineBuffer

theorem exists_filterLines {lines : List (List UInt8)}
    (hlines : ∀ line ∈ lines, line.length ≤ bufferSize) :
    ∃ filterLines : List FilterLine, filterLines.map FilterLine.bytes = lines := by
  induction lines with
  | nil => exact ⟨[], rfl⟩
  | cons line rest ih =>
      obtain ⟨hline, hrest⟩ := List.forall_mem_cons.mp hlines
      obtain ⟨filterLines, hfilterLines⟩ := ih hrest
      exact ⟨⟨line, hline⟩ :: filterLines, congrArg (line :: ·) hfilterLines⟩

/-- A line of at most a page always finds room. -/
theorem keptLines_of_short {lines : List (List UInt8)}
    (hlines : ∀ line ∈ lines, line.length ≤ pageSize) {used : Nat}
    (hused : used ≤ bufferSize - pageSize) : keptLines lines used = lines.flatten := by
  induction lines generalizing used with
  | nil => rfl
  | cons line rest ih =>
      obtain ⟨hline, hrest⟩ := List.forall_mem_cons.mp hlines
      have hpage := pageSize_le_bufferSize
      have hroom : ¬ line.length > bufferSize - used := by omega
      rw [keptLines, if_neg hroom, List.flatten_cons]
      split
      · next hnext => rw [ih hrest hnext]
      · rw [ih hrest (Nat.zero_le _)]

/-- The lines went into the file one after the other, and were counted. -/
def WrittenWhole (lines : List (List UInt8)) (writeLen : Int) (io : TraceIo)
    (result : Option (Int × TraceIo)) : Prop :=
  result = some (writeLen + lines.flatten.length, io.put lines.flatten)

theorem addLine_written {lines : List (List UInt8)}
    (hlines : ∀ line ∈ lines, line.length ≤ bufferSize) (gBuffer : GlobalBuffer)
    {io : TraceIo} (hwritable : io.Writable) :
    ∃ final : LineBuffer,
      lines.foldlM LineBuffer.addLine { gBuffer, io } = some final ∧
        WrittenWhole lines 0 io (some (final.flush.writeLen, final.flush.io)) := by
  obtain ⟨filterLines, rfl⟩ := exists_filterLines hlines
  obtain ⟨final, hfinal, hloop⟩ := LineBuffer.foldlM_addLine filterLines
    { gBuffer, io } (Nat.zero_le _)
  refine ⟨final, hfinal, ?_⟩
  have hwrite := writeFilterLines_writable filterLines [] 0 hwritable
  have hempty : LineBuffer.buffer { gBuffer, io } = [] := FixedBuffer.load_zero _ _
  rw [LineBuffer.filterLoop, hempty, hwrite, List.nil_append, List.flatMap] at hloop
  exact congrArg some hloop.symm

theorem filteredCmdLines_written (readProcessName : List UInt8 → List UInt8)
    (context : TraceFilterContext) (gBuffer : GlobalBuffer) {io : TraceIo}
    (hwritable : io.Writable)
    (hlines : ∀ line ∈ context.filterCmdLines ++
      context.filterPids.map (pidLine readProcessName), line.length ≤ bufferSize) :
    WrittenWhole (context.filterCmdLines ++
        context.filterPids.map (pidLine readProcessName)) 0 io
      (filteredCmdLines readProcessName context gBuffer io) := by
  obtain ⟨final, hfold, hwritten⟩ := addLine_written hlines gBuffer hwritable
  rw [List.foldlM_append] at hfold
  obtain ⟨middle, hmiddle, hfinal⟩ := Option.bind_eq_some_iff.mp hfold
  rw [List.foldlM_map] at hfinal
  have hresult : filteredCmdLines readProcessName context gBuffer io =
      some (final.flush.writeLen, final.flush.io) := by
    rw [filteredCmdLines, hmiddle]
    exact congrArg (· >>= _) hfinal
  rwa [hresult]

theorem filteredTgids_written (context : TraceFilterContext)
    (gBuffer : GlobalBuffer) {io : TraceIo} (hwritable : io.Writable)
    (hlines : ∀ line ∈ context.filterTGidsContent.map tgidLine,
      line.length ≤ bufferSize) :
    WrittenWhole (context.filterTGidsContent.map tgidLine) 0 io
      (filteredTgids context gBuffer io) := by
  obtain ⟨final, hfold, hwritten⟩ := addLine_written hlines gBuffer hwritable
  rw [List.foldlM_map] at hfold
  have hresult : filteredTgids context gBuffer io =
      some (final.flush.writeLen, final.flush.io) :=
    congrArg (· >>= _) hfold
  rwa [hresult]

theorem writeProcessLists_written (entries : List ProcEntry)
    (gBuffer : GlobalBuffer) (writeLen : Int) {io : TraceIo}
    (hwritable : io.Writable)
    (hlines : ∀ line ∈ entries.filterMap ProcEntry.result,
      line.length ≤ pageSize) :
    WrittenWhole (entries.filterMap ProcEntry.result) writeLen io
      (writeProcessLists (some entries) gBuffer writeLen io) := by
  obtain ⟨final, hfinal, hfits, hloop⟩ := LineBuffer.foldlM_addEntry entries
    { gBuffer, writeLen, io } (Nat.zero_le _)
  have hempty : LineBuffer.buffer { gBuffer, writeLen, io } = [] :=
    FixedBuffer.load_zero _ _
  have hkept := keptLines_of_short hlines (Nat.zero_le _)
  have hresult : writeProcessLists (some entries) gBuffer writeLen io =
      some (final.processLoop []) := by
    rw [LineBuffer.processLoop, writeProcessLoop, LineBuffer.length_buffer hfits,
      writeProcessLists, hfinal]
    dsimp only [Option.bind_eq_bind, Option.bind_some]
    split
    · rfl
    · rfl
  rw [LineBuffer.processLoop, hempty, writeProcessLoop_writable _ _ _ hwritable,
    List.nil_append, List.length_nil, hkept] at hloop
  rw [WrittenWhole, hresult, ← hloop]

/-- The lines of a filter context and of `/proc`, none longer than a page, are
written whole and in order, whatever the array held before. -/
theorem lines_written_whole (readProcessName : List UInt8 → List UInt8)
    (context : TraceFilterContext) (entries : List ProcEntry)
    (gBuffer : GlobalBuffer) (writeLen : Int) {io : TraceIo}
    (hwritable : io.Writable)
    (hcmdLines : ∀ line ∈ context.filterCmdLines, line.length ≤ 4096)
    (hpids : ∀ pid ∈ context.filterPids,
      (pidLine readProcessName pid).length ≤ 4096)
    (htgids : ∀ tgid ∈ context.filterTGidsContent, (tgidLine tgid).length ≤ 4096)
    (hprocesses : ∀ line ∈ entries.filterMap ProcEntry.result,
      line.length ≤ 4096) :
    WrittenWhole (context.filterCmdLines ++
        context.filterPids.map (pidLine readProcessName)) 0 io
      (filteredCmdLines readProcessName context gBuffer io) ∧
    WrittenWhole (context.filterTGidsContent.map tgidLine) 0 io
      (filteredTgids context gBuffer io) ∧
    WrittenWhole (entries.filterMap ProcEntry.result) writeLen io
      (writeProcessLists (some entries) gBuffer writeLen io) := by
  have hpage : 4096 ≤ bufferSize := pageSize_le_bufferSize
  refine ⟨filteredCmdLines_written readProcessName context gBuffer hwritable ?_,
    filteredTgids_written context gBuffer hwritable ?_,
    writeProcessLists_written entries gBuffer writeLen hwritable hprocesses⟩
  · intro line hline
    rcases List.mem_append.mp hline with hcmdLine | hpidLine
    · exact (hcmdLines line hcmdLine).trans hpage
    · obtain ⟨pid, hpid, rfl⟩ := List.mem_map.mp hpidLine
      exact (hpids pid hpid).trans hpage
  · intro line hline
    obtain ⟨tgid, htgid, rfl⟩ := List.mem_map.mp hline
    exact (htgids tgid htgid).trans hpage

/-- A command line, a process that is filtered, its thread group, and `/proc` with
that process, a file and a directory that is none. -/
theorem lines_written_whole_init :
    WrittenWhole [bytesOf "7 sh\n", bytesOf "1 \tinit\n"] 0 emptyOutput
      (filteredCmdLines (fun _ => bytesOf "\tinit")
        ⟨[bytesOf "7 sh\n"], [bytesOf "1"], [(bytesOf "1", bytesOf "1")]⟩ zeroBuffer
        emptyOutput) ∧
    WrittenWhole [bytesOf "1 1\n"] 0 emptyOutput
      (filteredTgids
        ⟨[bytesOf "7 sh\n"], [bytesOf "1"], [(bytesOf "1", bytesOf "1")]⟩ zeroBuffer
        emptyOutput) ∧
    WrittenWhole [bytesOf "1 \tinit\n"] 5 emptyOutput
      (writeProcessLists (some [⟨true, bytesOf "1", bytesOf "\tinit"⟩,
        ⟨false, bytesOf "2", bytesOf "\tsh"⟩, ⟨true, bytesOf "sys", []⟩]) zeroBuffer 5
        emptyOutput) :=
  lines_written_whole (fun _ => bytesOf "\tinit")
    ⟨[bytesOf "7 sh\n"], [bytesOf "1"], [(bytesOf "1", bytesOf "1")]⟩
    [⟨true, bytesOf "1", bytesOf "\tinit"⟩, ⟨false, bytesOf "2", bytesOf "\tsh"⟩,
      ⟨true, bytesOf "sys", []⟩]
    zeroBuffer 5 ⟨rfl, rfl, rfl⟩ (by decide +kernel) (by decide +kernel)
    (by decide +kernel) (by decide +kernel)

end GlobalBuffer

end Hitrace
