import Hitrace.HitraceConverter.RoundTrip
import Hitrace.HitraceConverter.SegmentOperators

namespace Hitrace.HitraceConverter

open Library

/-! What the converter makes of a file of the container format that is cut at some
byte. -/

/-- A payload of a text type is a text of the kernel. -/
structure KernelText (segment : Segment) : Prop where
  eventFormat : segment.type = 1 → ∃ events : List EventText,
    segment.payload = textBytes (events.flatMap EventText.lines)
  cmdLines : segment.type = 2 → ∃ lines : List CmdLine,
    segment.payload = textBytes (lines.map CmdLine.line)
  tidGroups : segment.type = 3 → ∃ lines : List TgidLine,
    segment.payload = textBytes (lines.map TgidLine.line)

/-- A segment whose header holds its length and whose text is one of the kernel. -/
structure WellFormed (segment : Segment) : Prop where
  fits : segment.Fits
  text : KernelText segment

/-- The types whose parser decodes what it is given without a test. -/
def Decodes (type : Nat) : Prop :=
  type = 1 ∨ type = 3

instance : DecidablePred Decodes := fun type =>
  inferInstanceAs (Decidable (type = 1 ∨ type = 3))

/-- The type that is read for a segment; the padding of its header is part of it. -/
def readType (segment : StoredSegment) : Nat :=
  word segment.header segment.padding

theorem type_of_readType {segment : StoredSegment} {type : UInt8}
    (hread : readType segment = type.toNat) : segment.type = type := by
  have hsmall := type.toNat_lt
  have hheader : segment.header.type = segment.type := rfl
  rw [readType, word_eq, hheader] at hread
  exact UInt8.toNat_inj.mp (by omega)

/-! The operators. -/

theorem pageHeader_accept {segment : List UInt8}
    (hlength : segment.length = getDataBytes PageHeader.format) :
    ∃ parsed, PageHeader.accept segment = some parsed := by
  have hunpack : parseSimpleField PageHeader.format (some segment) =
      unpack PageHeader.format segment := by
    rw [parseSimpleField, if_neg (not_not_intro hlength.symm)]
  rw [PageHeader.accept, hunpack]
  exact ⟨_, rfl⟩

theorem acceptPages_isSome (turns : Nat) (rest : List UInt8) :
    ∃ events, acceptPages turns rest = some events := by
  induction turns generalizing rest with
  | zero => exact ⟨[], rfl⟩
  | succ turns ih =>
      rw [acceptPages]
      split
      · exact ⟨[], rfl⟩
      · rename_i hpage
        have hlength : ((rest.take tracePageSize).take
            (getDataBytes PageHeader.format)).length = getDataBytes PageHeader.format := by
          rw [List.length_take, List.length_take]
          have hsize : getDataBytes PageHeader.format = 17 := rfl
          rw [hsize]
          rw [tracePageSize] at hpage ⊢
          omega
        obtain ⟨parsed, hparsed⟩ := pageHeader_accept hlength
        obtain ⟨others, hothers⟩ := ih (rest.drop tracePageSize)
        simp only [hparsed, hothers, Option.bind_eq_bind, Option.bind_some]
        exact ⟨_, rfl⟩

theorem orEmptyList_some {data : List UInt8} (hdata : data ≠ []) :
    orEmptyList (some data) = .bytes data := by
  cases data with
  | nil => exact absurd rfl hdata
  | cons first rest => rfl

/-- The operator that a segment type is handed to. -/
def operator (type cpuNum : Nat) : FieldOperator :=
  SegmentWrapper.getSegment SegmentWrapper.fields type cpuNum

theorem operator_raw {type : Nat} (htype : ¬ Decodes type) (hcmd : type ≠ 2)
    (cpuNum : Nat) : operator type cpuNum = .rawTraceSegment := by
  rw [Decodes, not_or] at htype
  rw [operator, SegmentWrapper.getSegment_fields, if_neg htype.1, if_neg hcmd,
    if_neg htype.2]

theorem accept_raw (data : Option (List UInt8)) (state : ParserState) :
    ∃ next, FieldOperator.rawTraceSegment.accept data state = some next := by
  obtain ⟨events, hevents⟩ := acceptPages_isSome
    ((data.getD []).length / tracePageSize + 1) (data.getD [])
  have hraw : acceptRawTrace data = some events := hevents
  simp only [FieldOperator.accept, hraw, Option.bind_eq_bind, Option.bind_some]
  exact ⟨_, rfl⟩

/-- The operator on a segment that is wholly there. -/
theorem accept_payload_iff {segment : StoredSegment} (htext : KernelText segment.toSegment)
    (state : ParserState) (cpuNum : Nat) :
    (∃ next, (operator (readType segment) cpuNum).accept (some segment.payload) state =
      some next) ↔ (Decodes (readType segment) → segment.payload ≠ []) := by
  by_cases hempty : segment.payload = []
  · rw [hempty]
    by_cases hdecodes : Decodes (readType segment)
    · constructor
      · rintro ⟨next, hnext⟩
        rcases hdecodes with htype | htype <;> rw [htype] at hnext <;> cases hnext
      · intro hne
        exact absurd rfl (hne hdecodes)
    · refine iff_of_true ?_ (fun htype => absurd htype hdecodes)
      by_cases hcmd : readType segment = 2
      · rw [hcmd]
        exact ⟨_, rfl⟩
      · rw [operator_raw hdecodes hcmd]
        exact accept_raw _ state
  · refine iff_of_true ?_ (fun _ => hempty)
    by_cases hevents : readType segment = 1
    · obtain ⟨events, hpayload⟩ := htext.eventFormat (type_of_readType hevents)
      have hparsed := parseEventFormat_textBytes events
      rw [← hpayload, ← orEmptyList_some hempty] at hparsed
      have hoperator : operator (readType segment) cpuNum = .eventFormatSegment := by
        rw [hevents]
        rfl
      rw [hoperator, FieldOperator.accept, hparsed]
      exact ⟨_, rfl⟩
    · by_cases hcmd : readType segment = 2
      · obtain ⟨lines, hpayload⟩ := htext.cmdLines (type_of_readType hcmd)
        have hparsed := parseCmdLines_textBytes lines
        rw [← hpayload, ← orEmptyList_some hempty] at hparsed
        have hoperator : operator (readType segment) cpuNum = .cmdLinesSegment := by
          rw [hcmd]
          rfl
        rw [hoperator, FieldOperator.accept, hparsed]
        exact ⟨_, rfl⟩
      · by_cases htgids : readType segment = 3
        · obtain ⟨lines, hpayload⟩ := htext.tidGroups (type_of_readType htgids)
          have hparsed := parseTidGroups_textBytes lines
          rw [← hpayload, ← orEmptyList_some hempty] at hparsed
          have hoperator : operator (readType segment) cpuNum = .tidGroupsSegment := by
            rw [htgids]
            rfl
          rw [hoperator, FieldOperator.accept, hparsed]
          exact ⟨_, rfl⟩
        · rw [operator_raw (not_or.mpr ⟨hevents, htgids⟩) hcmd]
          exact accept_raw _ state

/-- The operator on a segment that the file does not hold wholly. -/
theorem accept_none_iff (type : Nat) (state : ParserState) (cpuNum : Nat) :
    (∃ next, (operator type cpuNum).accept none state = some next) ↔ ¬ Decodes type := by
  by_cases hdecodes : Decodes type
  · refine iff_of_false ?_ (not_not_intro hdecodes)
    rintro ⟨next, hnext⟩
    rcases hdecodes with htype | htype <;> rw [htype] at hnext <;> cases hnext
  · refine iff_of_true ?_ hdecodes
    by_cases hcmd : type = 2
    · rw [hcmd]
      exact ⟨_, rfl⟩
    · rw [operator_raw hdecodes hcmd]
      exact accept_raw _ state

/-! Where the segments of a file stand. -/

/-- A segment, with its number in the file and the offset of its header. -/
structure Placed where
  index : Nat
  offset : Nat
  segment : StoredSegment
deriving Repr, DecidableEq

namespace Placed

def info (placed : Placed) : SegmentInfo :=
  ⟨readType placed.segment, placed.segment.payload.length, placed.offset⟩

/-- The end of the header. -/
def headed (placed : Placed) : Nat :=
  placed.offset + contentHeaderSize

/-- The end of the payload. -/
def ended (placed : Placed) : Nat :=
  placed.headed + placed.segment.payload.length

/-- A segment whose header is inside of the cut is among the segments that can be
recorded; if its payload is inside as well it is not an empty one that is decoded, and
if it is not, then less than a header of it is left and it is not decoded. -/
def Tolerable (size : Nat) (placed : Placed) : Prop :=
  placed.headed ≤ size →
    placed.index < SegmentWrapper.maxSegments ∧
      if placed.ended ≤ size then
        Decodes (readType placed.segment) → placed.segment.payload ≠ []
      else
        ¬ Decodes (readType placed.segment) ∧ size < placed.headed + contentHeaderSize

instance (size : Nat) : DecidablePred (Tolerable size) := fun placed =>
  inferInstanceAs (Decidable (placed.headed ≤ size →
    placed.index < SegmentWrapper.maxSegments ∧
      if placed.ended ≤ size then
        Decodes (readType placed.segment) → placed.segment.payload ≠ []
      else
        ¬ Decodes (readType placed.segment) ∧ size < placed.headed + contentHeaderSize))

end Placed

def layout : Nat → Nat → List StoredSegment → List Placed
  | _, _, [] => []
  | index, offset, segment :: rest =>
      ⟨index, offset, segment⟩ ::
        layout (index + 1) (offset + contentHeaderSize + segment.payload.length) rest

/-- The headers inside of the cut. -/
def headersWithin (size : Nat) (placed : List Placed) : List SegmentInfo :=
  (placed.filter fun segment => decide (segment.headed ≤ size)).map Placed.info

theorem offset_le_of_mem {index offset : Nat} {segments : List StoredSegment}
    {placed : Placed} (hmem : placed ∈ layout index offset segments) :
    offset ≤ placed.offset := by
  induction segments generalizing index offset with
  | nil => cases hmem
  | cons segment rest ih =>
      rcases List.mem_cons.mp hmem with rfl | hrest
      · exact Nat.le_refl _
      · have hoffset := ih hrest
        omega

/-- Behind the cut there are no headers and nothing to tolerate. -/
theorem layout_beyond (index : Nat) {offset size : Nat} (segments : List StoredSegment)
    (hbeyond : size < offset + contentHeaderSize) :
    headersWithin size (layout index offset segments) = [] ∧
      ∀ placed ∈ layout index offset segments, placed.Tolerable size := by
  have hnone : ∀ placed ∈ layout index offset segments, ¬ placed.headed ≤ size := by
    intro placed hmem hheaded
    have hoffset := offset_le_of_mem hmem
    rw [Placed.headed] at hheaded
    omega
  constructor
  · rw [headersWithin, List.map_eq_nil_iff, List.filter_eq_nil_iff]
    intro placed hmem
    simpa using hnone placed hmem
  · intro placed hmem hheaded
    exact absurd hheaded (hnone placed hmem)

/-! The loop on the bytes that are left. -/

namespace SegmentWrapper

theorem acceptSegments_short (room : Nat) {file : TraceFile} {bytes : List UInt8}
    (hrest : file.Rest bytes) (hshort : bytes.length < contentHeaderSize)
    (state : ParserState) : acceptSegments room file state = some ([], state) := by
  have hlength := hrest.length
  have hsize : getDataBytes format = contentHeaderSize := rfl
  have hread : file.readData (getDataBytes format) = (none, file) := by
    rw [TraceFile.readData, if_pos (by omega)]
  cases room with
  | zero => rw [acceptSegments, hread]; rfl
  | succ room => rw [acceptSegments, hread]; rfl

/-- Eight bytes are taken for a header, whatever they are. -/
theorem infos_ne_nil {room : Nat} {file : TraceFile} {bytes : List UInt8}
    (hrest : file.Rest bytes) (hlong : contentHeaderSize ≤ bytes.length)
    {state final : ParserState} {infos : List SegmentInfo}
    (hloop : acceptSegments room file state = some (infos, final)) : infos ≠ [] := by
  have hlength := hrest.length
  have hsize : getDataBytes format = contentHeaderSize := rfl
  have hread : (file.readData (getDataBytes format)).1 = some (bytes.take 8) := by
    rw [TraceFile.readData, if_neg (by omega), hrest.drop]
    rfl
  have htaken : (bytes.take 8).length = 8 := by
    rw [List.length_take]
    exact Nat.min_eq_left hlong
  have hparsed : ∃ first second,
      parseSimpleField format (some (bytes.take 8)) = [first, second] := by
    rw [parseSimpleField, if_neg (by rw [htaken]; decide)]
    exact ⟨_, _, rfl⟩
  obtain ⟨first, second, hparsed⟩ := hparsed
  cases room with
  | zero =>
      rw [acceptSegments, hread, hparsed] at hloop
      cases hloop
  | succ room =>
      simp only [acceptSegments, hread, hparsed, Option.bind_eq_bind,
        Option.bind_eq_some_iff] at hloop
      obtain ⟨next, _, others, _, hinfos⟩ := hloop
      cases hinfos
      exact List.cons_ne_nil _ _

theorem acceptSegments_full {file : TraceFile} {header : TraceFileContentHeader}
    {padding : Padding} {back : List UInt8} (hrest : file.Rest (header.padded padding ++ back))
    (state : ParserState) : acceptSegments 0 file state = none := by
  obtain ⟨next, hread, _, _⟩ := hrest.readData
  have hsize : getDataBytes format = (header.padded padding).length := by
    rw [header.length_padded]
    rfl
  rw [acceptSegments, hsize, hread, parseSimpleField_padded]

theorem acceptSegments_header (room : Nat) {file : TraceFile}
    {header : TraceFileContentHeader} {padding : Padding} {back : List UInt8}
    (hrest : file.Rest (header.padded padding ++ back)) (state : ParserState) :
    ∃ next : TraceFile, next.Rest back ∧
      next.curPost = file.curPost + contentHeaderSize ∧
      acceptSegments (room + 1) file state =
        ((operator (word header padding) state.cpuNum).accept
          (next.readData header.length.toNat).1 state).bind fun accepted =>
            (acceptSegments room (next.readData header.length.toNat).2 accepted).map
              fun (infos, final) =>
                (⟨word header padding, header.length.toNat, file.curPost⟩ :: infos,
                  final) := by
  obtain ⟨next, hread, hnext, hcontent⟩ := hrest.readData
  have hsize : getDataBytes format = (header.padded padding).length := by
    rw [header.length_padded]
    rfl
  refine ⟨next, hnext, ?_, ?_⟩
  · have hlength := hrest.length
    have hnextLength := hnext.length
    rw [List.length_append, header.length_padded, TraceFile.size] at hlength
    rw [TraceFile.size, hcontent] at hnextLength
    omega
  · rw [acceptSegments, hsize, hread]
    dsimp only
    rw [parseSimpleField_padded]
    dsimp only
    apply Option.bind_congr
    intro accepted _
    cases acceptSegments room (next.readData header.length.toNat).2 accepted with
    | none => rfl
    | some result => rfl

/-- The loop returns with exactly these headers. -/
def Returns (result : Option (List SegmentInfo × ParserState))
    (infos : List SegmentInfo) : Prop :=
  ∃ final, result = some (infos, final)

theorem returns_map_cons_iff {result : Option (List SegmentInfo × ParserState)}
    {info : SegmentInfo} {infos : List SegmentInfo} :
    Returns (result.map fun (others, final) => (info :: others, final))
      (info :: infos) ↔ Returns result infos := by
  constructor
  · rintro ⟨final, hresult⟩
    obtain ⟨⟨others, last⟩, hothers, heq⟩ := Option.map_eq_some_iff.mp hresult
    cases heq
    exact ⟨final, hothers⟩
  · rintro ⟨final, hresult⟩
    exact ⟨final, by rw [hresult]; rfl⟩

theorem headersWithin_cons {size : Nat} {placed : Placed} {others : List Placed}
    (hheaded : placed.headed ≤ size) :
    headersWithin size (placed :: others) =
      placed.info :: headersWithin size others := by
  rw [headersWithin, List.filter_cons_of_pos (by simpa using hheaded), List.map_cons]
  rfl

theorem returns_nil_iff (room : Nat) {file : TraceFile} {bytes : List UInt8}
    (hrest : file.Rest bytes) (state : ParserState) :
    Returns (acceptSegments room file state) [] ↔ bytes.length < contentHeaderSize := by
  constructor
  · rintro ⟨final, hloop⟩
    by_contra hlong
    exact infos_ne_nil hrest (Nat.le_of_not_lt hlong) hloop rfl
  · intro hshort
    exact ⟨state, acceptSegments_short room hrest hshort state⟩

theorem length_header {segment : Segment} (hfits : segment.Fits) :
    segment.header.length.toNat = segment.payload.length := by
  rw [Segment.header, UInt32.toNat_ofNat', Nat.mod_eq_of_lt hfits.lt]

variable {index size : Nat} {segment : StoredSegment} {rest : List StoredSegment}
  {file : TraceFile}

/-- The segment in which the file is cut. -/
theorem acceptSegments_cut_iff (hfits : segment.Fits) (hindex : index < maxSegments)
    (hheaded : (Placed.mk index file.curPost segment).headed ≤ size)
    (hcut : ¬ (Placed.mk index file.curPost segment).ended ≤ size)
    (hrest : file.Rest (segment.header.padded segment.padding ++ segment.payload.take
      (size - file.curPost - contentHeaderSize))) (state : ParserState) :
    Returns (acceptSegments (maxSegments - index) file state)
        (headersWithin size (layout index file.curPost (segment :: rest))) ↔
      ∀ placed ∈ layout index file.curPost (segment :: rest), placed.Tolerable size := by
  obtain ⟨room, hroom⟩ : ∃ room, maxSegments - index = room + 1 :=
    ⟨maxSegments - index - 1, by omega⟩
  obtain ⟨next, hnext, _, hturn⟩ := acceptSegments_header room hrest state
  have hpart : (segment.payload.take (size - file.curPost - contentHeaderSize)).length =
      size - file.curPost - contentHeaderSize := by
    simp only [Placed.ended, Placed.headed] at hcut
    rw [List.length_take]
    omega
  have hread : next.readData segment.header.length.toNat = (none, next) := by
    have hlength := hnext.length
    simp only [Placed.ended, Placed.headed] at hcut hheaded
    rw [length_header hfits, TraceFile.readData, if_pos (by omega)]
  have hbeyond : size < file.curPost + contentHeaderSize + segment.payload.length +
      contentHeaderSize := by
    simp only [Placed.ended, Placed.headed] at hcut
    omega
  obtain ⟨hheaders, hothers⟩ := layout_beyond (index + 1) rest hbeyond
  have htolerable : (∀ placed ∈ layout index file.curPost (segment :: rest),
      placed.Tolerable size) ↔ ¬ Decodes (readType segment) ∧
        size - file.curPost - contentHeaderSize < contentHeaderSize := by
    rw [layout, List.forall_mem_cons, and_iff_left hothers]
    simp only [Placed.Tolerable, hheaded, hindex, hcut, forall_const, true_and,
      if_false]
    simp only [Placed.headed] at hheaded ⊢
    refine and_congr_right fun _ => ?_
    omega
  rw [htolerable, hroom, hturn, hread, length_header hfits, layout,
    headersWithin_cons hheaded, hheaders]
  by_cases hdecodes : Decodes (readType segment)
  · refine iff_of_false ?_ (fun hboth => hboth.1 hdecodes)
    rintro ⟨final, hresult⟩
    obtain ⟨accepted, haccepted, _⟩ := Option.bind_eq_some_iff.mp hresult
    exact (accept_none_iff _ state _).mp ⟨accepted, haccepted⟩ hdecodes
  · obtain ⟨accepted, haccepted⟩ := (accept_none_iff _ state state.cpuNum).mpr hdecodes
    have haccept : (operator (word segment.header segment.padding) state.cpuNum).accept none state =
        some accepted := haccepted
    rw [haccept, Option.bind_some, and_iff_right hdecodes, ← hpart,
      ← returns_nil_iff room hnext accepted]
    exact returns_map_cons_iff

theorem acceptSegments_whole_iff (hwell : WellFormed segment.toSegment)
    (hindex : index < maxSegments)
    (hended : (Placed.mk index file.curPost segment).ended ≤ size)
    {back : List UInt8} (hrest : file.Rest (segment.bytes ++ back))
    (ih : ∀ (next : TraceFile) (state : ParserState), next.Rest back →
      next.curPost = (Placed.mk index file.curPost segment).ended →
      (Returns (acceptSegments (maxSegments - (index + 1)) next state)
        (headersWithin size (layout (index + 1) next.curPost rest)) ↔
        ∀ placed ∈ layout (index + 1) next.curPost rest, placed.Tolerable size))
    (state : ParserState) :
    Returns (acceptSegments (maxSegments - index) file state)
        (headersWithin size (layout index file.curPost (segment :: rest))) ↔
      ∀ placed ∈ layout index file.curPost (segment :: rest), placed.Tolerable size := by
  obtain ⟨room, hroom⟩ : ∃ room, maxSegments - index = room + 1 :=
    ⟨maxSegments - index - 1, by omega⟩
  have hroom' : room = maxSegments - (index + 1) := by omega
  rw [StoredSegment.bytes, List.append_assoc] at hrest
  obtain ⟨opened, hopened, hpost, hturn⟩ := acceptSegments_header room hrest state
  obtain ⟨next, hread, hnext, hcontent⟩ := hopened.readData
  have hnextPost : next.curPost = (Placed.mk index file.curPost segment).ended := by
    have hlength := hopened.length
    have hnextLength := hnext.length
    rw [List.length_append, TraceFile.size] at hlength
    rw [TraceFile.size, hcontent] at hnextLength
    simp only [Placed.ended, Placed.headed]
    omega
  have hheaded : (Placed.mk index file.curPost segment).headed ≤ size := by
    simp only [Placed.ended] at hended
    omega
  have htolerable : (Placed.mk index file.curPost segment).Tolerable size ↔
      (Decodes (readType segment) → segment.payload ≠ []) := by
    simp only [Placed.Tolerable, hheaded, hindex, hended, forall_const, true_and, if_true]
  have hlayout : layout index file.curPost (segment :: rest) =
      ⟨index, file.curPost, segment⟩ :: layout (index + 1) next.curPost rest := by
    rw [hnextPost]
    rfl
  rw [hlayout, List.forall_mem_cons, htolerable, headersWithin_cons hheaded, hroom, hturn,
    length_header hwell.fits, hread]
  by_cases haccepts : Decodes (readType segment) → segment.payload ≠ []
  · obtain ⟨accepted, haccepted⟩ :=
      (accept_payload_iff hwell.text state state.cpuNum).mpr haccepts
    have haccept : (operator (word segment.header segment.padding) state.cpuNum).accept
        (some segment.payload) state = some accepted := haccepted
    rw [haccept, Option.bind_some, and_iff_right haccepts, ← ih next accepted hnext hnextPost,
      ← hroom']
    exact returns_map_cons_iff
  · refine iff_of_false ?_ (fun hboth => haccepts hboth.1)
    rintro ⟨final, hresult⟩
    obtain ⟨accepted, haccepted, _⟩ := Option.bind_eq_some_iff.mp hresult
    exact haccepts ((accept_payload_iff hwell.text state _).mp ⟨accepted, haccepted⟩)

/-- A header behind the last segment that can be recorded. -/
theorem acceptSegments_full_iff (hindex : index = maxSegments)
    (hheaded : (Placed.mk index file.curPost segment).headed ≤ size) {back : List UInt8}
    (hrest : file.Rest (segment.header.padded segment.padding ++ back)) (state : ParserState) :
    Returns (acceptSegments (maxSegments - index) file state)
        (headersWithin size (layout index file.curPost (segment :: rest))) ↔
      ∀ placed ∈ layout index file.curPost (segment :: rest), placed.Tolerable size := by
  refine iff_of_false ?_ ?_
  · rintro ⟨final, hresult⟩
    rw [hindex, Nat.sub_self, acceptSegments_full hrest] at hresult
    cases hresult
  · intro htolerable
    have hfirst := htolerable ⟨index, file.curPost, segment⟩ List.mem_cons_self hheaded
    exact absurd hfirst.1 (by simp [hindex])

theorem take_whole {back : List UInt8}
    (hended : (Placed.mk index file.curPost segment).ended ≤ size) :
    (segment.bytes ++ back).take (size - file.curPost) =
      segment.bytes ++
        back.take (size - (Placed.mk index file.curPost segment).ended) := by
  simp only [Placed.ended, Placed.headed] at hended ⊢
  have hlength := segment.length_bytes
  rw [List.take_append, List.take_of_length_le (by omega), hlength]
  congr 2
  omega

theorem take_cut {back : List UInt8}
    (hheaded : (Placed.mk index file.curPost segment).headed ≤ size)
    (hcut : ¬ (Placed.mk index file.curPost segment).ended ≤ size) :
    (segment.bytes ++ back).take (size - file.curPost) =
      segment.header.padded segment.padding ++
        segment.payload.take (size - file.curPost - contentHeaderSize) := by
  simp only [Placed.ended, Placed.headed] at hheaded hcut
  have hheader := segment.header.length_padded segment.padding
  have hlength := segment.length_bytes
  rw [List.take_append_of_le_length (by omega), StoredSegment.bytes, List.take_append,
    List.take_of_length_le (by omega), hheader]

theorem acceptSegments_iff (hindex : index ≤ maxSegments) {segments : List StoredSegment}
    (hwell : ∀ segment ∈ segments, WellFormed segment.toSegment)
    (hrest : file.Rest ((storedBytes segments).take (size - file.curPost)))
    (hpost : file.curPost ≤ size) (state : ParserState) :
    Returns (acceptSegments (maxSegments - index) file state)
        (headersWithin size (layout index file.curPost segments)) ↔
      ∀ placed ∈ layout index file.curPost segments, placed.Tolerable size := by
  induction segments generalizing index file state with
  | nil =>
      rw [storedBytes, List.flatMap_nil, List.take_nil] at hrest
      refine iff_of_true ⟨state, ?_⟩ (by simp [layout])
      exact acceptSegments_short _ hrest (by decide) state
  | cons segment rest ih =>
      obtain ⟨hfirst, hothers⟩ := List.forall_mem_cons.mp hwell
      rw [storedBytes, List.flatMap_cons] at hrest
      by_cases hheaded : (Placed.mk index file.curPost segment).headed ≤ size
      · by_cases hended : (Placed.mk index file.curPost segment).ended ≤ size
        · rw [take_whole hended] at hrest
          by_cases hfull : index < maxSegments
          · refine acceptSegments_whole_iff hfirst hfull hended hrest ?_ state
            intro next accepted hnext hnextPost
            rw [← hnextPost] at hnext hended
            exact ih hfull hothers hnext hended accepted
          · rw [StoredSegment.bytes, List.append_assoc] at hrest
            exact acceptSegments_full_iff (Nat.le_antisymm hindex (Nat.le_of_not_lt hfull))
              hheaded hrest state
        · rw [take_cut hheaded hended] at hrest
          by_cases hfull : index < maxSegments
          · exact acceptSegments_cut_iff hfirst.fits hfull hheaded hended hrest state
          · exact acceptSegments_full_iff (Nat.le_antisymm hindex (Nat.le_of_not_lt hfull))
              hheaded hrest state
      · simp only [Placed.headed, Nat.not_le] at hheaded
        obtain ⟨hheaders, htolerable⟩ := layout_beyond index (segment :: rest) hheaded
        refine iff_of_true ⟨state, ?_⟩ htolerable
        rw [hheaders]
        refine acceptSegments_short _ hrest ?_ state
        rw [List.length_take]
        omega

end SegmentWrapper

/-! Whole files. -/

def fileHeaderSize : Nat := 12

theorem fileHeader_short {content : List UInt8} (hshort : content.length < fileHeaderSize) :
    FileHeader.accept { content } = (none, { content }) := by
  have hsize : getDataBytes FileHeader.format = fileHeaderSize := rfl
  have hread : TraceFile.readData { content } (getDataBytes FileHeader.format) =
      (none, { content }) := by
    rw [TraceFile.readData, if_pos]
    rw [hsize, Nat.zero_add]
    exact hshort
  rw [FileHeader.accept, hread]
  rfl

/-- The segments of a file where they stand. -/
def segmentsOf (segments : List StoredSegment) : List Placed :=
  layout 0 fileHeaderSize segments

/-- The converter neither raises nor takes other bytes for a header than those of the
headers inside of the cut. -/
def StopsAtCut (header : TraceFileHeader) (padding : Padding) (segments : List StoredSegment)
    (size : Nat) (processCmdLines : Dict (List Char)) : Prop :=
  SegmentWrapper.Returns
    (acceptFile ((header.padded padding ++ storedBytes segments).take size) processCmdLines)
    (headersWithin size (segmentsOf segments))

/-- Exactly when the converter copes with a file cut behind `size` bytes; a `size`
from the length of the file on is the whole file. -/
theorem stops_at_cut_iff (header : TraceFileHeader) (padding : Padding)
    {segments : List StoredSegment}
    (hwell : ∀ segment ∈ segments, WellFormed segment.toSegment) (size : Nat)
    (processCmdLines : Dict (List Char)) :
    StopsAtCut header padding segments size processCmdLines ↔
      ∀ placed ∈ segmentsOf segments, placed.Tolerable size := by
  have hheader : (header.padded padding).length = fileHeaderSize :=
    length_fileHeader header padding
  rw [StopsAtCut, List.take_append, segmentsOf]
  by_cases hsize : fileHeaderSize ≤ size
  · rw [List.take_of_length_le (by omega), hheader]
    obtain ⟨next, haccept, hnext, hcontent⟩ := fileHeader_accept
      { content := header.padded padding ++
          (storedBytes segments).take (size - fileHeaderSize) } ⟨rfl, Nat.zero_le _⟩
    have hpost : next.curPost = fileHeaderSize := by
      have hlength := hnext.length
      rw [TraceFile.size, hcontent, List.length_append, hheader] at hlength
      omega
    rw [acceptFile, haccept, ← hpost]
    rw [← hpost] at hnext hsize
    exact SegmentWrapper.acceptSegments_iff (Nat.zero_le _) hwell hnext hsize _
  · obtain ⟨hheaders, htolerable⟩ := layout_beyond 0 segments
      (Nat.lt_of_lt_of_le (Nat.lt_of_not_le hsize) (Nat.le_add_right _ contentHeaderSize))
    refine iff_of_true ?_ htolerable
    rw [hheaders, acceptFile, fileHeader_short]
    · exact ⟨_, rfl⟩
    · rw [List.length_append, List.length_take, List.length_take]
      omega

/-! A whole file hands the payloads to the operators in its order. -/

def applyOperators (segments : List Segment) (state : ParserState) : Option ParserState :=
  segments.foldlM (fun state segment =>
    (operator segment.type.toNat state.cpuNum).accept (some segment.payload) state) state

/-- The segments that are told as texts have nothing in the padding of their headers. -/
def TextsUnpadded (segments : List StoredSegment) : Prop :=
  ∀ segment ∈ segments, Decodes segment.type.toNat ∨ segment.type = 2 → segment.padding = {}

/-- The padding of any other segment does not change its operator. -/
theorem operator_readType {segment : StoredSegment}
    (hpadding : Decodes segment.type.toNat ∨ segment.type = 2 → segment.padding = {})
    (cpuNum : Nat) :
    operator (readType segment) cpuNum = operator segment.type.toNat cpuNum := by
  by_cases htext : Decodes segment.type.toNat ∨ segment.type = 2
  · rw [readType, hpadding htext, word_unpadded]
    rfl
  · obtain ⟨hdecodes, hcmd⟩ := not_or.mp htext
    have hread : ∀ type : UInt8, readType segment = type.toNat → segment.type = type :=
      fun type => type_of_readType
    rw [operator_raw hdecodes fun heq => hcmd (UInt8.toNat_inj.mp heq), operator_raw]
    · rintro (hevents | hgroups)
      · exact hdecodes (.inl (congrArg UInt8.toNat (hread 1 hevents)))
      · exact hdecodes (.inr (congrArg UInt8.toNat (hread 3 hgroups)))
    · exact fun heq => hcmd (hread 2 heq)

theorem acceptSegments_stored {room : Nat} {file : TraceFile} {segments : List StoredSegment}
    (hroom : segments.length ≤ room) (hfits : ∀ segment ∈ segments, segment.Fits)
    (htexts : TextsUnpadded segments) (hrest : file.Rest (storedBytes segments))
    (state : ParserState) :
    ∃ infos, SegmentWrapper.acceptSegments room file state =
      (applyOperators (segments.map StoredSegment.toSegment) state).map
        fun final => (infos, final) := by
  induction segments generalizing room file state with
  | nil =>
      exact ⟨[], SegmentWrapper.acceptSegments_short room hrest (by decide) state⟩
  | cons segment rest ih =>
      obtain ⟨hfirst, hothers⟩ := List.forall_mem_cons.mp hfits
      obtain ⟨htext, hothersTexts⟩ := List.forall_mem_cons.mp htexts
      cases room with
      | zero => exact absurd hroom (by simp)
      | succ room =>
          rw [storedBytes, List.flatMap_cons, StoredSegment.bytes, List.append_assoc] at hrest
          obtain ⟨opened, hopened, _, hturn⟩ :=
            SegmentWrapper.acceptSegments_header room hrest state
          obtain ⟨next, hread, hnext, _⟩ := hopened.readData
          have hoperator : operator (word segment.header segment.padding) state.cpuNum =
              operator segment.type.toNat state.cpuNum := operator_readType htext _
          rw [SegmentWrapper.length_header hfirst, hread, hoperator] at hturn
          have happly : applyOperators ((segment :: rest).map StoredSegment.toSegment) state =
              ((operator segment.type.toNat state.cpuNum).accept (some segment.payload)
                state).bind (applyOperators (rest.map StoredSegment.toSegment)) := rfl
          rw [hturn, happly]
          cases (operator segment.type.toNat state.cpuNum).accept
              (some segment.payload) state with
          | none => exact ⟨[], rfl⟩
          | some accepted =>
              obtain ⟨infos, hloop⟩ :=
                ih (Nat.le_of_succ_le_succ hroom) hothers hothersTexts hnext accepted
              refine ⟨⟨word segment.header segment.padding, segment.payload.length,
                file.curPost⟩ :: infos, ?_⟩
              rw [Option.bind_some, Option.bind_some, hloop, Option.map_map]
              rfl

theorem acceptFile_stored (header : TraceFileHeader) (padding : Padding)
    {segments : List StoredSegment} (hcount : segments.length ≤ SegmentWrapper.maxSegments)
    (hfits : ∀ segment ∈ segments, segment.Fits) (htexts : TextsUnpadded segments)
    (processCmdLines : Dict (List Char)) :
    ∃ infos, acceptFile (header.padded padding ++ storedBytes segments) processCmdLines =
      (applyOperators (segments.map StoredSegment.toSegment)
        { cpuNum := (header.reserved.toNat >>> 1) &&& 0b00011111
          processCmdLines }).map fun final => (infos, final) := by
  obtain ⟨next, haccept, hnext, _⟩ := fileHeader_accept
    { content := header.padded padding ++ storedBytes segments } ⟨rfl, Nat.zero_le _⟩
  rw [acceptFile, haccept]
  exact acceptSegments_stored hcount hfits htexts hnext _

theorem textsUnpadded_unpadded (segments : List Segment) :
    TextsUnpadded (unpadded segments) := by
  intro segment hmem _
  obtain ⟨_, _, rfl⟩ := List.mem_map.mp hmem
  rfl

theorem fits_of_toSegment {segments : List StoredSegment}
    (hfits : ∀ segment ∈ segments.map StoredSegment.toSegment, segment.Fits) :
    ∀ segment ∈ segments, segment.Fits :=
  List.forall_mem_map.mp hfits

theorem acceptFile_segments (header : TraceFileHeader) {segments : List Segment}
    (hcount : segments.length ≤ SegmentWrapper.maxSegments)
    (hfits : ∀ segment ∈ segments, segment.Fits) (processCmdLines : Dict (List Char)) :
    ∃ infos, acceptFile (header.bytes ++ encodeSegments segments) processCmdLines =
      (applyOperators segments
        { cpuNum := (header.reserved.toNat >>> 1) &&& 0b00011111
          processCmdLines }).map fun final => (infos, final) := by
  rw [← toSegment_unpadded segments] at hfits
  have hlength : (unpadded segments).length ≤ SegmentWrapper.maxSegments := by
    rw [unpadded, List.length_map]
    exact hcount
  have hstored := acceptFile_stored header {} hlength (fits_of_toSegment hfits)
    (textsUnpadded_unpadded segments) processCmdLines
  rw [toSegment_unpadded, storedBytes_unpadded] at hstored
  exact hstored

theorem isDigit_digitChar (number : Nat) :
    ∀ char ∈ [Nat.digitChar (number % 10)], char.isDigit = true := by
  rw [List.forall_mem_singleton, Nat.isDigit_digitChar, decide_eq_true_eq]
  exact Nat.mod_lt number (by decide)

def digitNumber (number : Nat) : Number :=
  ⟨[Nat.digitChar (number % 10)], List.cons_ne_nil _ _, isDigit_digitChar number, by simp⟩

def initLine : CmdLine :=
  ⟨digitNumber 1, ⟨"init".toList, by decide⟩⟩

/-- A file with a list of one task and an empty raw segment, in whose header the stack has left
something. -/
def oneTask : List StoredSegment :=
  [⟨⟨2, textBytes ["1 init".toList], some 0⟩, {}⟩, ⟨⟨4, [], some 0⟩, ⟨1, 127, 255⟩⟩]

theorem stops_at_cut_iff_one_task :
    (∀ segment ∈ oneTask, WellFormed segment.toSegment) ∧
      StopsAtCut {} ⟨9, 9, 9⟩ oneTask 30 [] := by
  have hwell : ∀ segment ∈ oneTask, WellFormed segment.toSegment := by
    intro segment hmem
    rcases List.mem_cons.mp hmem with rfl | hmem
    · exact ⟨by decide +kernel, nofun, fun _ => ⟨[initLine], rfl⟩, nofun⟩
    · rw [List.mem_singleton] at hmem
      rw [hmem]
      exact ⟨by decide +kernel, nofun, nofun, nofun⟩
  exact ⟨hwell, (stops_at_cut_iff {} ⟨9, 9, 9⟩ hwell 30 []).mpr (by decide +kernel)⟩

/-- An empty list of event formats makes the converter raise, and of a raw segment cut
behind eight bytes of its payload these are taken for a header. -/
theorem empty_and_cut_segments :
    ¬ StopsAtCut {} {} [⟨⟨1, [], some 0⟩, {}⟩] 20 [] ∧
      ¬ StopsAtCut {} {} [⟨⟨4, List.replicate 16 0, some 0⟩, {}⟩] 28 [] := by
  constructor
  · rintro ⟨final, hresult⟩
    have hraises : acceptFile ((TraceFileHeader.padded {} {} ++
        storedBytes [⟨⟨1, [], some 0⟩, {}⟩]).take 20) [] = none := by decide +kernel
    cases hraises.symm.trans hresult
  · rintro ⟨final, hresult⟩
    have hinfos : (acceptFile ((TraceFileHeader.padded {} {} ++
        storedBytes [⟨⟨4, List.replicate 16 0, some 0⟩, {}⟩]).take 28) []).map Prod.fst =
        some [⟨4, 16, 12⟩] := by
      rw [hresult]
      rfl
    revert hinfos
    decide +kernel

end Hitrace.HitraceConverter
