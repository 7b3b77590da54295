import Hitrace.HitraceConverter.SegmentDispatch
import Hitrace.HitraceConverter.TextSegments

namespace Hitrace.HitraceConverter

/-! The operators of the segments and the loop that applies them.  A function
without a result raises. -/

structure TraceEvent where
  timestamp : Nat
  coreId : Nat
  eventId : Nat
  segment : List UInt8
deriving Repr, DecidableEq

/-! `RawTraceSegment` and the pages in it. -/

namespace PageHeader

def format : List DataType := [.Q, .Q, .B]

/-- The time and the processor of a page.  The values of an empty result are looked
up without a test. -/
def accept (segment : List UInt8) : Option (Nat × Nat) :=
  match parseSimpleField format (some segment) with
  | [timestamp, _, coreId] => some (timestamp, coreId)
  | _ => none

end PageHeader

namespace TraceEventHeader

def format : List DataType := [.I, .H]

/-- The time offset and the size of an event; `none` is the result False. -/
def accept (segment : List UInt8) : Option (Nat × Nat) :=
  match parseSimpleField format (some segment) with
  | [timestampOffset, eventSize] => some (timestampOffset, eventSize)
  | _ => none

def alignEventSize (eventSize : Nat) : Nat :=
  (eventSize + 3) / 4 * 4

end TraceEventHeader

namespace TraceEventContent

def format : List DataType := [.H]

/-- The id of an event; `none` is the result False. -/
def eventId (segment : List UInt8) : Option Nat :=
  match parseSimpleField format (some (segment.take (getDataBytes format))) with
  | [eventId] => some eventId
  | _ => none

end TraceEventContent

/-- `TraceEventWrapper.accept` on what is left of a page; every turn takes at least
the six bytes of a header. -/
def acceptEvents (timestamp coreId : Nat) : Nat → List UInt8 → List TraceEvent
  | 0, _ => []
  | turns + 1, rest =>
      if rest.isEmpty then []
      else
        let headerSize := getDataBytes TraceEventHeader.format
        match TraceEventHeader.accept (rest.take headerSize) with
        | none => []
        | some (timestampOffset, eventSize) =>
            let content := (rest.drop headerSize).take eventSize
            match TraceEventContent.eventId content with
            | none => []
            | some eventId =>
                { timestamp := timestamp + timestampOffset
                  coreId
                  eventId
                  segment := content } ::
                  acceptEvents timestamp coreId turns
                    (rest.drop (headerSize +
                      TraceEventHeader.alignEventSize eventSize))

def tracePageSize : Nat := 4096

/-- `PageWrapper.accept` on what is left of a segment. -/
def acceptPages : Nat → List UInt8 → Option (List TraceEvent)
  | 0, _ => some []
  | turns + 1, rest =>
      if tracePageSize > rest.length then some []
      else do
        let page := rest.take tracePageSize
        let headerSize := getDataBytes PageHeader.format
        let (timestamp, coreId) ← PageHeader.accept (page.take headerSize)
        let events := acceptEvents timestamp coreId page.length (page.drop headerSize)
        let others ← acceptPages turns (rest.drop tracePageSize)
        some (events ++ others)

def acceptRawTrace (segment : Option (List UInt8)) : Option (List TraceEvent) :=
  let segment := segment.getD []
  acceptPages (segment.length / tracePageSize + 1) segment

/-! The operators. -/

/-- The context of a file with the events handed to its viewer, and the dict
`parse_functions.cmd_lines`, which belongs to the process. -/
structure ParserState where
  cpuNum : Nat := 1
  cmdLines : Dict (List Char) := []
  eventFormat : Dict EventFormat := []
  tidGroups : Dict Int := []
  traceEvents : List TraceEvent := []
  processCmdLines : Dict (List Char) := []
deriving Repr, DecidableEq

def FieldOperator.accept (segment : Option (List UInt8)) (state : ParserState) :
    FieldOperator → Option ParserState
  | .eventFormatSegment => do
      let eventFormat ← parseEventFormat (orEmptyList segment)
      some { state with eventFormat }
  | .cmdLinesSegment => do
      let cmdLines ← parseCmdLines (orEmptyList segment)
      some { state with cmdLines, processCmdLines := cmdLines ++ state.processCmdLines }
  | .tidGroupsSegment => do
      let tidGroups ← parseTidGroups (orEmptyList segment)
      some { state with tidGroups }
  | .rawTraceSegment => do
      let events ← acceptRawTrace segment
      some { state with traceEvents := state.traceEvents ++ events }
  | .printkFormatSegment => some state
  | .kallSymsSegment => some state
  | .headerPageSegment => some state
  | .unSupportSegment => some state

structure SegmentInfo where
  type : Nat
  size : Nat
  offset : Nat
deriving Repr, DecidableEq

namespace SegmentWrapper

/-- The loop of `accept` with what it records of the segments; `room` is how many
it may still record before it raises. -/
def acceptSegments : Nat → TraceFile → ParserState →
    Option (List SegmentInfo × ParserState)
  | 0, file, state =>
      match parseSimpleField format (file.readData (getDataBytes format)).1 with
      | [_, _] => none
      | _ => some ([], state)
  | room + 1, file, state =>
      let (data, opened) := file.readData (getDataBytes format)
      match parseSimpleField format data with
      | [segmentType, segmentSize] => do
          let operator := getSegment fields segmentType state.cpuNum
          let (segmentData, next) := opened.readData segmentSize
          let state ← operator.accept segmentData state
          let (infos, state) ← acceptSegments room next state
          some (⟨segmentType, segmentSize, file.curPost⟩ :: infos, state)
      | _ => some ([], state)

/-- The operators do not move the file: what the loop records are the segments that the
loop without them reads. -/
theorem acceptLoop_of_acceptSegments {room : Nat} {file : TraceFile}
    {state final : ParserState} {infos : List SegmentInfo}
    (hloop : acceptSegments room file state = some (infos, final)) :
    ∃ parsed last, acceptLoop room file = some (parsed, last) ∧
      parsed.map Prod.fst = infos.map SegmentInfo.type := by
  induction room generalizing file state infos with
  | zero =>
      rw [acceptSegments] at hloop
      split at hloop
      · cases hloop
      · rename_i hother
        cases hloop
        refine ⟨[], (file.readData (getDataBytes format)).2, ?_, rfl⟩
        simp only [acceptLoop]
  | succ room ih =>
      simp only [acceptSegments] at hloop
      split at hloop
      · rename_i segmentType segmentSize hpair
        simp only [Option.bind_eq_bind, Option.bind_eq_some_iff] at hloop
        obtain ⟨accepted, _, ⟨others, reached⟩, hothers, hinfos⟩ := hloop
        cases hinfos
        obtain ⟨parsed, last, hparsed, htypes⟩ := ih hothers
        refine ⟨(segmentType, ((file.readData (getDataBytes format)).2.readData
          segmentSize).1) :: parsed, last, ?_, ?_⟩
        · simp only [acceptLoop, hpair, hparsed]
          rfl
        · simp [htypes]
      · rename_i hother
        cases hloop
        refine ⟨[], (file.readData (getDataBytes format)).2, ?_, rfl⟩
        simp only [acceptLoop]

end SegmentWrapper

/-- `TraceFileFormat.accept`: behind a header that is refused no segment is read. -/
def acceptFile (content : List UInt8) (processCmdLines : Dict (List Char)) :
    Option (List SegmentInfo × ParserState) :=
  match FileHeader.accept { content } with
  | (none, _) => some ([], { processCmdLines })
  | (some cpuNum, file) =>
      SegmentWrapper.acceptSegments SegmentWrapper.maxSegments file
        { cpuNum, processCmdLines }

end Hitrace.HitraceConverter
