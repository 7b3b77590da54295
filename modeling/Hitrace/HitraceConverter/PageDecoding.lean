import Hitrace.HitraceConverter.CutFiles

namespace Hitrace.HitraceConverter

open Library

/-! The pages of a raw trace segment: how the kernel lays them out, and what the
loops of `PageWrapper` and `TraceEventWrapper` make of any bytes. -/

/-- An event in a page, with the bytes that align what comes behind it. -/
structure PageEvent where
  timestampOffset : UInt32
  content : List UInt8
  padding : List UInt8
  hasId : getDataBytes TraceEventContent.format ≤ content.length
  aligned : content.length + padding.length =
    TraceEventHeader.alignEventSize content.length

namespace PageEvent

def header (event : PageEvent) : List UInt8 :=
  LittleEndian.encode 4 event.timestampOffset.toNat ++
    LittleEndian.encode 2 event.content.length

def bytes (event : PageEvent) : List UInt8 :=
  event.header ++ (event.content ++ event.padding)

def decoded (timestamp coreId : Nat) (event : PageEvent) : TraceEvent where
  timestamp := timestamp + event.timestampOffset.toNat
  coreId
  eventId := LittleEndian.decode (event.content.take 2)
  segment := event.content

end PageEvent

/-- A page whose events fit; the rest of it is zero. -/
structure TracePage where
  timestamp : UInt64
  length : UInt64
  coreId : UInt8
  events : List PageEvent
  fits : getDataBytes PageHeader.format +
    (events.flatMap PageEvent.bytes).length ≤ tracePageSize

namespace TracePage

def header (page : TracePage) : List UInt8 :=
  LittleEndian.encode 8 page.timestamp.toNat ++
    (LittleEndian.encode 8 page.length.toNat ++ [page.coreId])

def unused (page : TracePage) : Nat :=
  tracePageSize -
    (getDataBytes PageHeader.format + (page.events.flatMap PageEvent.bytes).length)

def bytes (page : TracePage) : List UInt8 :=
  page.header ++
    (page.events.flatMap PageEvent.bytes ++ List.replicate page.unused 0)

def decoded (page : TracePage) : List TraceEvent :=
  page.events.map (PageEvent.decoded page.timestamp.toNat page.coreId.toNat)

end TracePage

/-! The loops over positions, as the source has them.  A derivation is a run that
has ended. -/

section Loops

variable (timestamp coreId : Nat) (segment : List UInt8)

/-- `segment[start: start + size]`. -/
def slice (start size : Nat) : List UInt8 :=
  (segment.drop start).take size

/-- `TraceEventWrapper.accept` from the position `curPost` on, with the events it hands
to the viewer. -/
inductive EventLoop : Nat → List TraceEvent → Prop
  | ended {curPost : Nat} (hend : segment.length ≤ curPost) : EventLoop curPost []
  | noHeader {curPost : Nat} (hmore : curPost < segment.length)
      (hheader : TraceEventHeader.accept
        (slice segment curPost (getDataBytes TraceEventHeader.format)) = none) :
      EventLoop curPost []
  | noContent {curPost timestampOffset eventSize : Nat} (hmore : curPost < segment.length)
      (hheader : TraceEventHeader.accept
        (slice segment curPost (getDataBytes TraceEventHeader.format)) =
          some (timestampOffset, eventSize))
      (hcontent : TraceEventContent.eventId
        (slice segment (curPost + getDataBytes TraceEventHeader.format) eventSize) =
          none) :
      EventLoop curPost []
  | event {curPost timestampOffset eventSize eventId : Nat} {events : List TraceEvent}
      (hmore : curPost < segment.length)
      (hheader : TraceEventHeader.accept
        (slice segment curPost (getDataBytes TraceEventHeader.format)) =
          some (timestampOffset, eventSize))
      (hcontent : TraceEventContent.eventId
        (slice segment (curPost + getDataBytes TraceEventHeader.format) eventSize) =
          some eventId)
      (hrest : EventLoop (curPost + getDataBytes TraceEventHeader.format +
        TraceEventHeader.alignEventSize eventSize) events) :
      EventLoop curPost
        ({ timestamp := timestamp + timestampOffset
           coreId
           eventId
           segment := slice segment (curPost + getDataBytes TraceEventHeader.format)
             eventSize } :: events)

/-- `PageWrapper.accept` from the position `curPost` on. -/
inductive PageLoop : Nat → List TraceEvent → Prop
  | ended {curPost : Nat} (hend : segment.length < curPost + tracePageSize) :
      PageLoop curPost []
  | page {curPost timestamp coreId : Nat} {events others : List TraceEvent}
      (hpage : curPost + tracePageSize ≤ segment.length)
      (hheader : PageHeader.accept ((slice segment curPost tracePageSize).take
        (getDataBytes PageHeader.format)) = some (timestamp, coreId))
      (hevents : EventLoop timestamp coreId ((slice segment curPost tracePageSize).drop
        (getDataBytes PageHeader.format)) 0 events)
      (hrest : PageLoop (curPost + tracePageSize) others) :
      PageLoop curPost (events ++ others)

end Loops

/-! The events of a page that is laid out. -/

theorem length_eventHeader (event : PageEvent) :
    event.header.length = getDataBytes TraceEventHeader.format := by
  rw [PageEvent.header, List.length_append, LittleEndian.length_encode,
    LittleEndian.length_encode]
  rfl

theorem eventHeader_accept {event : PageEvent} (hsize : event.content.length < 2 ^ 16) :
    TraceEventHeader.accept event.header =
      some (event.timestampOffset.toNat, event.content.length) := by
  have hoffset := LittleEndian.decode_encode 4 event.timestampOffset.toNat_lt
  have hlength := LittleEndian.decode_encode 2 hsize
  have hunpack : unpack TraceEventHeader.format event.header =
      [LittleEndian.decode (LittleEndian.encode 4 event.timestampOffset.toNat),
        LittleEndian.decode (LittleEndian.encode 2 event.content.length)] := rfl
  rw [TraceEventHeader.accept, parseSimpleField,
    if_neg (not_not_intro (length_eventHeader event).symm), hunpack, hoffset, hlength]

theorem eventId_of_le {content : List UInt8} (hid : 2 ≤ content.length) :
    TraceEventContent.eventId content =
      some (LittleEndian.decode (content.take 2)) := by
  have hlength : (content.take 2).length = 2 := List.length_take_of_le hid
  have hunpack : unpack TraceEventContent.format (content.take 2) =
      [LittleEndian.decode ((content.take 2).take 2)] := rfl
  have hbytes : getDataBytes TraceEventContent.format = 2 := rfl
  rw [TraceEventContent.eventId, hbytes, parseSimpleField, hbytes,
    if_neg (not_not_intro hlength.symm), hunpack, List.take_take, Nat.min_self]

theorem eventId_of_lt {content : List UInt8} (hid : content.length < 2) :
    TraceEventContent.eventId content = none := by
  have hbytes : getDataBytes TraceEventContent.format = 2 := rfl
  have hlength : 2 ≠ (content.take 2).length := by
    rw [List.length_take]
    omega
  rw [TraceEventContent.eventId, hbytes, parseSimpleField, hbytes, if_pos hlength]

section Events

variable (timestamp coreId : Nat)

/-- One turn of the loop, from an event that is there. -/
theorem acceptEvents_event (turns : Nat) {event : PageEvent}
    (hsize : event.content.length < 2 ^ 16) (rest : List UInt8) :
    acceptEvents timestamp coreId (turns + 1) (event.bytes ++ rest) =
      event.decoded timestamp coreId :: acceptEvents timestamp coreId turns rest := by
  have hheader := length_eventHeader event
  have hne : (event.bytes ++ rest).isEmpty = false := by
    have hpos : event.header ≠ [] := by
      rw [← List.length_pos_iff, hheader]
      decide
    rw [List.isEmpty_eq_false_iff, PageEvent.bytes]
    simp [hpos]
  have hbehind : (event.bytes ++ rest).drop (getDataBytes TraceEventHeader.format) =
      event.content ++ (event.padding ++ rest) := by
    rw [PageEvent.bytes, ← hheader, List.append_assoc, List.drop_left, List.append_assoc]
  have hnext : (event.bytes ++ rest).drop (getDataBytes TraceEventHeader.format +
      TraceEventHeader.alignEventSize event.content.length) = rest := by
    rw [← List.drop_drop, hbehind, ← event.aligned, ← List.drop_drop, List.drop_left,
      List.drop_left]
  have hfront : (event.bytes ++ rest).take (getDataBytes TraceEventHeader.format) =
      event.header := by
    rw [PageEvent.bytes, ← hheader, List.append_assoc, List.take_left]
  rw [acceptEvents, hne]
  dsimp only
  rw [if_neg Bool.false_ne_true, hfront, eventHeader_accept hsize]
  dsimp only
  rw [hbehind, List.take_left, eventId_of_le event.hasId, hnext]
  rfl

/-- Behind the last event there is none of two bytes. -/
theorem acceptEvents_zero (turns count : Nat) :
    acceptEvents timestamp coreId turns (List.replicate count 0) = [] := by
  cases turns with
  | zero => rfl
  | succ turns =>
      rw [acceptEvents]
      split
      · rfl
      · by_cases hcount : 6 ≤ count
        · have hbytes : getDataBytes TraceEventHeader.format = 6 := rfl
          have hheader : TraceEventHeader.accept (List.replicate 6 0) = some (0, 0) := by
            decide
          simp only [hbytes, List.take_replicate, Nat.min_eq_left hcount, hheader,
            List.take_zero]
          rw [eventId_of_lt (by decide)]
        · have hbytes : getDataBytes TraceEventHeader.format = 6 := rfl
          have hheader : TraceEventHeader.accept (List.replicate count 0) = none := by
            rw [TraceEventHeader.accept, parseSimpleField, if_pos]
            rw [List.length_replicate, hbytes]
            omega
          simp only [hbytes, List.take_replicate, Nat.min_eq_right (by omega : count ≤ 6),
            hheader]

theorem acceptEvents_bytes {turns count : Nat} {events : List PageEvent}
    (hturns : events.length ≤ turns)
    (hsize : ∀ event ∈ events, event.content.length < 2 ^ 16) :
    acceptEvents timestamp coreId turns
        (events.flatMap PageEvent.bytes ++ List.replicate count 0) =
      events.map (PageEvent.decoded timestamp coreId) := by
  induction events generalizing turns with
  | nil => exact acceptEvents_zero timestamp coreId turns count
  | cons event rest ih =>
      obtain ⟨hfirst, hothers⟩ := List.forall_mem_cons.mp hsize
      cases turns with
      | zero => exact absurd hturns (by simp)
      | succ turns =>
          rw [List.flatMap_cons, List.append_assoc,
            acceptEvents_event timestamp coreId turns hfirst,
            ih (Nat.le_of_succ_le_succ hturns) hothers, List.map_cons]

end Events

/-! What is read of any page. -/

/-- The events of one page, from its own bytes. -/
def pageEvents (page : List UInt8) : List TraceEvent :=
  match PageHeader.accept (page.take (getDataBytes PageHeader.format)) with
  | none => []
  | some (timestamp, coreId) =>
      acceptEvents timestamp coreId page.length
        (page.drop (getDataBytes PageHeader.format))

/-- The whole pages of a segment, in order. -/
def wholePages (segment : List UInt8) : List (List UInt8) :=
  (List.range (segment.length / tracePageSize)).map fun index =>
    slice segment (index * tracePageSize) tracePageSize

theorem wholePages_of_lt {segment : List UInt8} (hlength : segment.length < tracePageSize) :
    wholePages segment = [] := by
  rw [wholePages, Nat.div_eq_of_lt hlength]
  rfl

theorem length_div_of_le {segment : List UInt8} (hlength : tracePageSize ≤ segment.length) :
    segment.length / tracePageSize =
      (segment.drop tracePageSize).length / tracePageSize + 1 := by
  rw [List.length_drop]
  exact Nat.div_eq_sub_div (by decide) hlength

theorem wholePages_of_le {segment : List UInt8} (hlength : tracePageSize ≤ segment.length) :
    wholePages segment =
      segment.take tracePageSize :: wholePages (segment.drop tracePageSize) := by
  rw [wholePages, length_div_of_le hlength, List.range_succ_eq_map, List.map_cons,
    List.map_map]
  have hfirst : slice segment (0 * tracePageSize) tracePageSize =
      segment.take tracePageSize := by
    rw [slice, Nat.zero_mul, List.drop_zero]
  rw [hfirst, wholePages]
  refine congrArg (List.cons _) (List.map_congr_left ?_)
  intro index _
  rw [Function.comp_apply, slice, slice, List.drop_drop, Nat.succ_mul, Nat.add_comm]

theorem length_take_page {segment : List UInt8} (hlength : tracePageSize ≤ segment.length) :
    ((segment.take tracePageSize).take (getDataBytes PageHeader.format)).length =
      getDataBytes PageHeader.format := by
  have hheader : getDataBytes PageHeader.format ≤ tracePageSize := by decide
  rw [List.take_take, Nat.min_eq_left hheader]
  exact List.length_take_of_le (hheader.trans hlength)

/-- The loop over the pages reads each of them alone. -/
theorem acceptPages_eq {turns : Nat} {segment : List UInt8}
    (hturns : segment.length / tracePageSize ≤ turns) :
    acceptPages turns segment = some ((wholePages segment).flatMap pageEvents) := by
  induction turns generalizing segment with
  | zero =>
      have hlength : segment.length < tracePageSize := by
        rw [← Nat.div_eq_zero_iff_lt (by decide)]
        exact Nat.le_zero.mp hturns
      rw [wholePages_of_lt hlength]
      rfl
  | succ turns ih =>
      rw [acceptPages]
      split
      · next hlength =>
          rw [wholePages_of_lt hlength]
          rfl
      · next hlength =>
          have hpage := Nat.le_of_not_lt hlength
          obtain ⟨⟨timestamp, coreId⟩, hheader⟩ :=
            pageHeader_accept (length_take_page hpage)
          have hrest : (segment.drop tracePageSize).length / tracePageSize ≤ turns := by
            rw [length_div_of_le hpage] at hturns
            exact Nat.le_of_succ_le_succ hturns
          simp only [hheader, ih hrest, Option.bind_eq_bind, Option.bind_some]
          rw [wholePages_of_le hpage, List.flatMap_cons, pageEvents, hheader]

theorem segment_infix_of_mem_acceptEvents {timestamp coreId turns : Nat}
    {rest : List UInt8} {event : TraceEvent}
    (hmem : event ∈ acceptEvents timestamp coreId turns rest) :
    event.segment <:+: rest := by
  induction turns generalizing rest with
  | zero => cases hmem
  | succ turns ih =>
      rw [acceptEvents] at hmem
      dsimp only at hmem
      split at hmem
      · cases hmem
      · split at hmem
        · cases hmem
        · split at hmem
          · cases hmem
          · rcases List.mem_cons.mp hmem with rfl | hother
            · exact (List.take_prefix _ _).isInfix.trans (List.drop_suffix _ _).isInfix
            · exact (ih hother).trans (List.drop_suffix _ _).isInfix

theorem segment_infix_of_mem_pageEvents {page : List UInt8} {event : TraceEvent}
    (hmem : event ∈ pageEvents page) :
    event.segment <:+: page.drop (getDataBytes PageHeader.format) := by
  rw [pageEvents] at hmem
  split at hmem
  · cases hmem
  · exact segment_infix_of_mem_acceptEvents hmem

/-! The loops end. -/

theorem eventLoop_acceptEvents (timestamp coreId : Nat) {segment : List UInt8}
    {turns curPost : Nat} (hturns : segment.length ≤ curPost + turns) :
    EventLoop timestamp coreId segment curPost
      (acceptEvents timestamp coreId turns (segment.drop curPost)) := by
  induction turns generalizing curPost with
  | zero => exact .ended hturns
  | succ turns ih =>
      rw [acceptEvents]
      dsimp only
      split
      · next hempty =>
          apply EventLoop.ended
          rwa [List.isEmpty_iff, List.drop_eq_nil_iff] at hempty
      · next hempty =>
          have hmore : curPost < segment.length := by
            rw [List.isEmpty_iff, List.drop_eq_nil_iff] at hempty
            omega
          split
          · next hheader => exact .noHeader hmore hheader
          · next timestampOffset eventSize hheader =>
              rw [List.drop_drop]
              split
              · next hcontent => exact .noContent hmore hheader hcontent
              · next eventId hcontent =>
                  -- every turn takes a header, so the turns left are enough
                  have hheaderSize : 0 < getDataBytes TraceEventHeader.format := by decide
                  have hleft : segment.length ≤ curPost +
                      getDataBytes TraceEventHeader.format +
                        TraceEventHeader.alignEventSize eventSize + turns := by
                    omega
                  rw [List.drop_drop, ← Nat.add_assoc]
                  exact .event hmore hheader hcontent (ih hleft)

theorem eventLoop_unique {timestamp coreId : Nat} {segment : List UInt8} {curPost : Nat}
    {events other : List TraceEvent}
    (hevents : EventLoop timestamp coreId segment curPost events)
    (hother : EventLoop timestamp coreId segment curPost other) : events = other := by
  induction hevents generalizing other with
  | ended hend =>
      cases hother with
      | ended => rfl
      | noHeader => rfl
      | noContent => rfl
      | event hmore => omega
  | noHeader hmore hheader =>
      cases hother with
      | ended => rfl
      | noHeader => rfl
      | noContent => rfl
      | event _ hparsed => exact nomatch hheader.symm.trans hparsed
  | noContent hmore hheader hcontent =>
      cases hother with
      | ended => rfl
      | noHeader => rfl
      | noContent => rfl
      | event _ hparsed hread =>
          cases hheader.symm.trans hparsed
          exact nomatch hcontent.symm.trans hread
  | event hmore hheader hcontent _ ih =>
      cases hother with
      | ended hend => omega
      | noHeader _ hnone => exact nomatch hnone.symm.trans hheader
      | noContent _ hparsed hnone =>
          cases hheader.symm.trans hparsed
          exact nomatch hnone.symm.trans hcontent
      | event _ hparsed hread hrest =>
          cases hheader.symm.trans hparsed
          cases hcontent.symm.trans hread
          rw [ih hrest]

theorem pageLoop_unique {segment : List UInt8} {curPost : Nat}
    {events other : List TraceEvent} (hevents : PageLoop segment curPost events)
    (hother : PageLoop segment curPost other) : events = other := by
  induction hevents generalizing other with
  | ended hend =>
      cases hother with
      | ended => rfl
      | page hpage => omega
  | page hpage hheader hevents _ ih =>
      cases hother with
      | ended hend => omega
      | page _ hparsed hread hrest =>
          cases hheader.symm.trans hparsed
          rw [eventLoop_unique hevents hread, ih hrest]

theorem pageLoop_wholePages {segment : List UInt8} {count curPost : Nat}
    (hcount : (segment.drop curPost).length / tracePageSize = count) :
    PageLoop segment curPost ((wholePages (segment.drop curPost)).flatMap pageEvents) := by
  induction count generalizing curPost with
  | zero =>
      have hshort : (segment.drop curPost).length < tracePageSize :=
        (Nat.div_eq_zero_iff_lt (by decide)).mp hcount
      rw [wholePages_of_lt hshort]
      rw [List.length_drop] at hshort
      exact .ended (by omega)
  | succ count ih =>
      have hpage : tracePageSize ≤ (segment.drop curPost).length := by
        by_contra hshort
        rw [Nat.div_eq_of_lt (Nat.lt_of_not_le hshort)] at hcount
        cases hcount
      obtain ⟨⟨timestamp, coreId⟩, hheader⟩ := pageHeader_accept (length_take_page hpage)
      rw [length_div_of_le hpage, List.drop_drop] at hcount
      have hrest := ih (Nat.succ_inj.mp hcount)
      rw [wholePages_of_le hpage, List.flatMap_cons, List.drop_drop]
      have hevents : pageEvents ((segment.drop curPost).take tracePageSize) =
          acceptEvents timestamp coreId ((segment.drop curPost).take tracePageSize).length
            (((segment.drop curPost).take tracePageSize).drop
              (getDataBytes PageHeader.format)) := by
        rw [pageEvents, hheader]
      have hloop := @eventLoop_acceptEvents timestamp coreId
        (((segment.drop curPost).take tracePageSize).drop (getDataBytes PageHeader.format))
        ((segment.drop curPost).take tracePageSize).length 0
        (by rw [List.length_drop]; omega)
      rw [List.drop_zero, ← hevents] at hloop
      rw [List.length_drop] at hpage
      have hpos : 0 < tracePageSize := by decide
      exact .page (by omega) hheader hloop hrest

/-! Pages that are laid out. -/

namespace TracePage

theorem length_header (page : TracePage) :
    page.header.length = getDataBytes PageHeader.format := by
  rw [header, List.length_append, List.length_append, LittleEndian.length_encode,
    LittleEndian.length_encode]
  rfl

theorem length_bytes (page : TracePage) : page.bytes.length = tracePageSize := by
  have hfits := page.fits
  rw [bytes, List.length_append, List.length_append, List.length_replicate,
    page.length_header, unused]
  omega

theorem header_accept (page : TracePage) :
    PageHeader.accept page.header =
      some (page.timestamp.toNat, page.coreId.toNat) := by
  have htimestamp := LittleEndian.decode_encode 8 page.timestamp.toNat_lt
  have hunpack : unpack PageHeader.format page.header =
      [LittleEndian.decode (LittleEndian.encode 8 page.timestamp.toNat),
        LittleEndian.decode (LittleEndian.encode 8 page.length.toNat),
        LittleEndian.decode [page.coreId]] := rfl
  have hcore : LittleEndian.decode [page.coreId] = page.coreId.toNat := by
    simp [LittleEndian.decode]
  rw [PageHeader.accept, parseSimpleField,
    if_neg (not_not_intro page.length_header.symm), hunpack, htimestamp, hcore]

theorem length_event_le {events : List PageEvent} {event : PageEvent}
    (hmem : event ∈ events) :
    event.content.length ≤ (events.flatMap PageEvent.bytes).length := by
  have hbytes : event.content.length ≤ event.bytes.length := by
    rw [PageEvent.bytes, List.length_append, List.length_append]
    omega
  have hpart := List.sublist_flatten_of_mem (List.mem_map_of_mem (f := PageEvent.bytes) hmem)
  exact hbytes.trans hpart.length_le

theorem length_events_le (events : List PageEvent) :
    events.length ≤ (events.flatMap PageEvent.bytes).length := by
  induction events with
  | nil => exact Nat.le_refl _
  | cons event rest ih =>
      have hbytes : 1 ≤ event.bytes.length := by
        rw [PageEvent.bytes, List.length_append, length_eventHeader]
        exact Nat.le_add_right_of_le (by decide)
      rw [List.flatMap_cons, List.length_append, List.length_cons]
      omega

theorem pageEvents_bytes (page : TracePage) : pageEvents page.bytes = page.decoded := by
  have hfits := page.fits
  have hsize : ∀ event ∈ page.events, event.content.length < 2 ^ 16 := by
    intro event hmem
    have hle := length_event_le hmem
    have hpage : tracePageSize < 2 ^ 16 := by decide
    omega
  have hturns : page.events.length ≤ page.bytes.length := by
    have hle := length_events_le page.events
    rw [page.length_bytes]
    omega
  rw [pageEvents, ← page.length_header]
  have hfront : page.bytes.take page.header.length = page.header := by
    rw [bytes, List.take_left]
  have hbehind : page.bytes.drop page.header.length =
      page.events.flatMap PageEvent.bytes ++ List.replicate page.unused 0 := by
    rw [bytes, List.drop_left]
  rw [hfront, hbehind, page.header_accept]
  exact acceptEvents_bytes _ _ hturns hsize

theorem wholePages_bytes (pages : List TracePage) :
    wholePages (pages.flatMap TracePage.bytes) = pages.map TracePage.bytes := by
  induction pages with
  | nil => exact wholePages_of_lt (by decide)
  | cons page rest ih =>
      have hlength := page.length_bytes
      rw [List.flatMap_cons, wholePages_of_le, ← hlength, List.take_left, List.drop_left, ih,
        List.map_cons]
      rw [List.length_append, hlength]
      omega

end TracePage

theorem accept_rawTraceSegment (segment : List UInt8) (state : ParserState) :
    FieldOperator.rawTraceSegment.accept (some segment) state =
      some { state with
        traceEvents := state.traceEvents ++ (wholePages segment).flatMap pageEvents } := by
  have hraw : acceptRawTrace (some segment) =
      some ((wholePages segment).flatMap pageEvents) :=
    acceptPages_eq (Nat.le_succ _)
  simp only [FieldOperator.accept, hraw, Option.bind_eq_bind, Option.bind_some]

/-- Pages that are laid out give their events in order; of any bytes both loops come to
an end, and an event is a part of its own page. -/
theorem page_decoding :
    (∀ (pages : List TracePage) (state : ParserState),
      FieldOperator.rawTraceSegment.accept (some (pages.flatMap TracePage.bytes)) state =
        some { state with
          traceEvents := state.traceEvents ++ pages.flatMap TracePage.decoded }) ∧
    ∀ segment : List UInt8,
      (∃! events, PageLoop segment 0 events) ∧
      (∀ events, PageLoop segment 0 events →
        events = (wholePages segment).flatMap pageEvents ∧
        ∀ state, FieldOperator.rawTraceSegment.accept (some segment) state =
          some { state with traceEvents := state.traceEvents ++ events }) ∧
      ∀ page ∈ wholePages segment, ∀ event ∈ pageEvents page,
        event.segment <:+: page.drop (getDataBytes PageHeader.format) := by
  refine ⟨?_, ?_⟩
  · intro pages state
    rw [accept_rawTraceSegment, TracePage.wholePages_bytes, List.flatMap_map]
    simp only [TracePage.pageEvents_bytes]
  · intro segment
    have hloop := @pageLoop_wholePages segment _ 0 rfl
    rw [List.drop_zero] at hloop
    refine ⟨⟨_, hloop, fun other hother => pageLoop_unique hother hloop⟩, ?_, ?_⟩
    · intro events hevents
      obtain rfl := pageLoop_unique hevents hloop
      exact ⟨rfl, fun state => accept_rawTraceSegment segment state⟩
    · intro page _ event hmem
      exact segment_infix_of_mem_pageEvents hmem

end Hitrace.HitraceConverter
