import Hitrace.TraceFactory.CaptureAgreement
import Hitrace.TraceFactory.GlobalBuffer

namespace Hitrace

open Library TraceContent

namespace CpuRaw

/-! What a capture is meant to keep, page by page. -/

section Reference

variable (fails : RawPage → Bool) (request : TraceDumpRequest)

def notLate (page : RawPage) : Bool :=
  decide (page.pageTraceTime ≤ request.traceEndTime)

def inWindow (page : RawPage) : Bool :=
  decide (request.traceStartTime ≤ page.pageTraceTime) && notLate request page

/-- The pages in the window, up to the first one that is later. -/
def windowPages (pages : List RawPage) : List RawPage :=
  (pages.takeWhile (notLate request)).filter (inWindow request)

def firstLatePage (pages : List RawPage) : Option RawPage :=
  pages.find? (fun page => !notLate request page)

/-- The pages up to the given number of failed checks, with the last of them. -/
def cutAfterFailed : Nat → List RawPage → List RawPage
  | 0, _ => []
  | count + 1, pages =>
      let passed := pages.takeWhile (fun page => !fails page)
      let left := pages.dropWhile (fun page => !fails page)
      passed ++ left.take 1 ++ cutAfterFailed count (left.drop 1)

def capturedPages (pages : List RawPage) : List RawPage :=
  cutAfterFailed fails 2 (windowPages request pages)

/-- The page that ends the capture, unless two failed checks ended it before. -/
def latePage (pages : List RawPage) : List RawPage :=
  if (windowPages request pages).countP fails < 2 then
    (firstLatePage request pages).toList
  else []

def writtenPages (pages : List RawPage) : List RawPage :=
  capturedPages fails request pages ++
    if windowPages request pages = [] then [] else latePage fails request pages

def lastTimeStamp (pages : List RawPage) (lastPageTimeStamp : UInt64) : UInt64 :=
  ((capturedPages fails request pages).map RawPage.pageTraceTime).foldl max
    lastPageTimeStamp

def firstTimeStamp (pages : List RawPage) (firstPageTimeStamp : UInt64) : UInt64 :=
  match capturedPages fails request pages with
  | [] => firstPageTimeStamp
  | page :: _ => min firstPageTimeStamp page.pageTraceTime

end Reference

theorem cutAfterFailed_nil (fails : RawPage → Bool) (count : Nat) :
    cutAfterFailed fails count [] = [] := by
  induction count with
  | zero => rfl
  | succ count ih => exact ih

theorem cutAfterFailed_cons (fails : RawPage → Bool) (count : Nat) (page : RawPage)
    (rest : List RawPage) :
    cutAfterFailed fails (count + 1) (page :: rest) =
      page :: cutAfterFailed fails (if fails page then count else count + 1) rest := by
  rw [cutAfterFailed, List.takeWhile_cons, List.dropWhile_cons]
  cases fails page with
  | true => rfl
  | false => rfl

theorem pageValid_late {request : TraceDumpRequest} {page : RawPage}
    (hvalid : pageValid request page = .late) : notLate request page = false := by
  rw [pageValid, isCurrentTracePageValid] at hvalid
  split at hvalid
  · next hlate => exact decide_eq_false (UInt64.not_le.mpr hlate)
  · split at hvalid
    · cases hvalid
    · cases hvalid

theorem pageValid_early {request : TraceDumpRequest} {page : RawPage}
    (hvalid : pageValid request page = .early) :
    notLate request page = true ∧ inWindow request page = false := by
  rw [pageValid, isCurrentTracePageValid] at hvalid
  split at hvalid
  · cases hvalid
  · next hnotLate =>
      split at hvalid
      · next hearly =>
          refine ⟨decide_eq_true (UInt64.not_lt.mp hnotLate), ?_⟩
          rw [inWindow, decide_eq_false (UInt64.not_le.mpr hearly), Bool.false_and]
      · cases hvalid

theorem pageValid_hit {request : TraceDumpRequest} {page : RawPage}
    (hvalid : pageValid request page = .hit) :
    notLate request page = true ∧ inWindow request page = true := by
  rw [pageValid, isCurrentTracePageValid] at hvalid
  split at hvalid
  · cases hvalid
  · next hnotLate =>
      split at hvalid
      · cases hvalid
      · next hnotEarly =>
          have hend : notLate request page = true :=
            decide_eq_true (UInt64.not_lt.mp hnotLate)
          refine ⟨hend, ?_⟩
          rw [inWindow, hend, decide_eq_true (UInt64.not_lt.mp hnotEarly)]
          rfl

/-! The window, one page at a time. -/

section Window

variable {request : TraceDumpRequest} {page : RawPage} (rest : List RawPage)

theorem windowPages_late (hvalid : pageValid request page = .late) :
    windowPages request (page :: rest) = [] ∧
      firstLatePage request (page :: rest) = some page := by
  have hlate := pageValid_late hvalid
  constructor
  · rw [windowPages, List.takeWhile_cons, hlate]
    rfl
  · rw [firstLatePage, List.find?_cons, hlate]
    rfl

theorem windowPages_early (hvalid : pageValid request page = .early) :
    windowPages request (page :: rest) = windowPages request rest ∧
      firstLatePage request (page :: rest) = firstLatePage request rest := by
  obtain ⟨hnotLate, hout⟩ := pageValid_early hvalid
  constructor
  · rw [windowPages, List.takeWhile_cons, hnotLate, if_pos rfl, List.filter_cons, hout]
    rfl
  · rw [firstLatePage, List.find?_cons, hnotLate]
    rfl

theorem windowPages_hit (hvalid : pageValid request page = .hit) :
    windowPages request (page :: rest) = page :: windowPages request rest ∧
      firstLatePage request (page :: rest) = firstLatePage request rest := by
  obtain ⟨hnotLate, hin⟩ := pageValid_hit hvalid
  constructor
  · rw [windowPages, List.takeWhile_cons, hnotLate, if_pos rfl, List.filter_cons, hin]
    rfl
  · rw [firstLatePage, List.find?_cons, hnotLate]
    rfl

end Window

/-! The loops against it. -/

def pageFails (isHm : Bool) (page : RawPage) : Bool :=
  !checkPage isHm page.pageHeaderSize

def failedAfter (isHm : Bool) (page : RawPage) (failed : Nat) : Nat :=
  failedTime isHm page.pageHeaderSize failed

theorem failedAfter_eq (isHm : Bool) (page : RawPage) (failed : Nat) :
    failedAfter isHm page failed = failed + if pageFails isHm page then 1 else 0 :=
  GlobalBuffer.failedTime_eq ..

/-- The number of failed checks that are still allowed goes down. -/
theorem cutAfterFailed_hit (isHm : Bool) {failed : Nat} (hfailed : failed < 2)
    (page : RawPage) (rest : List RawPage) :
    cutAfterFailed (pageFails isHm) (2 - failed) (page :: rest) =
      page :: cutAfterFailed (pageFails isHm) (2 - failedAfter isHm page failed)
        rest := by
  have hcount : 2 - failed = (1 - failed) + 1 := by omega
  rw [hcount, cutAfterFailed_cons, failedAfter_eq]
  congr 2
  split
  · omega
  · omega

theorem countP_hit (isHm : Bool) (failed : Nat) (page : RawPage)
    (rest : List RawPage) :
    failed + (page :: rest).countP (pageFails isHm) =
      failedAfter isHm page failed + rest.countP (pageFails isHm) := by
  rw [List.countP_cons, failedAfter_eq]
  omega

/-- The pages kept from a position at which checks have failed and pages may
have been kept before. -/
def keptFrom (isHm : Bool) (request : TraceDumpRequest) (pages : List RawPage)
    (failed : Nat) (late : Bool) : List RawPage :=
  cutAfterFailed (pageFails isHm) (2 - failed) (windowPages request pages) ++
    if failed + (windowPages request pages).countP (pageFails isHm) < 2 ∧
        late = true then
      (firstLatePage request pages).toList
    else []

theorem keptFrom_hit (isHm : Bool) {request : TraceDumpRequest} {page : RawPage}
    (rest : List RawPage) {failed : Nat} (hfailed : failed < 2) (late : Bool)
    (hvalid : pageValid request page = .hit) :
    keptFrom isHm request (page :: rest) failed late =
      page :: if failedAfter isHm page failed ≥ 2 then []
        else keptFrom isHm request rest (failedAfter isHm page failed) late := by
  obtain ⟨hwindow, hlate⟩ := windowPages_hit rest hvalid
  rw [keptFrom, hwindow, hlate, cutAfterFailed_hit isHm hfailed, countP_hit,
    List.cons_append]
  congr 1
  by_cases hstop : failedAfter isHm page failed ≥ 2
  · have hnone : 2 - failedAfter isHm page failed = 0 := by omega
    have hmany : ¬ (failedAfter isHm page failed +
        (windowPages request rest).countP (pageFails isHm) < 2 ∧ late = true) := by
      omega
    rw [if_pos hstop, hnone, if_neg hmany]
    rfl
  · rw [if_neg hstop]
    rfl

theorem copiedBytes_eq (isHm : Bool) (request : TraceDumpRequest)
    (pages : List RawPage) {failed : Nat} (hfailed : failed < 2) :
    copiedBytes isHm request pages failed =
      (keptFrom isHm request pages failed true).flatMap RawPage.bytes := by
  induction pages generalizing failed with
  | nil =>
      have hwindow : windowPages request [] = [] := rfl
      rw [keptFrom, hwindow, cutAfterFailed_nil]
      simp [copiedBytes, firstLatePage]
  | cons page rest ih =>
      rw [copiedBytes]
      cases hvalid : pageValid request page with
      | late =>
          obtain ⟨hwindow, hlate⟩ := windowPages_late rest hvalid
          rw [keptFrom, hwindow, hlate, cutAfterFailed_nil]
          simp [hfailed]
      | early =>
          obtain ⟨hwindow, hlate⟩ := windowPages_early rest hvalid
          rw [keptFrom, hwindow, hlate]
          exact ih hfailed
      | hit =>
          rw [keptFrom_hit isHm rest hfailed true hvalid, List.flatMap_cons]
          have hnext : failedTime isHm page.pageHeaderSize failed =
              failedAfter isHm page failed := rfl
          rw [hnext]
          dsimp only
          split
          · rfl
          · next hgoes => rw [ih (Nat.lt_of_not_ge hgoes)]

/-- The loop into the file leaves the late page out when it is the first. -/
theorem takenBytes_eq (isHm : Bool) (request : TraceDumpRequest)
    (pages : List RawPage) :
    takenBytes isHm request pages 0 false =
      (writtenPages (pageFails isHm) request pages).flatMap RawPage.bytes := by
  induction pages with
  | nil =>
      have hwindow : windowPages request [] = [] := rfl
      rw [writtenPages, capturedPages, hwindow, cutAfterFailed_nil]
      rfl
  | cons page rest ih =>
      rw [takenBytes]
      cases hvalid : pageValid request page with
      | late =>
          obtain ⟨hwindow, _⟩ := windowPages_late rest hvalid
          rw [writtenPages, capturedPages, hwindow, cutAfterFailed_nil]
          rfl
      | early =>
          obtain ⟨hwindow, hlate⟩ := windowPages_early rest hvalid
          rw [writtenPages, capturedPages, latePage, hwindow, hlate]
          exact ih
      | hit =>
          have hprinted : takenBytes isHm request (page :: rest) 0 false =
              copiedBytes isHm request (page :: rest) 0 := by
            simp only [takenBytes, copiedBytes, hvalid, copiedBytes_of_printed]
          have hkept : writtenPages (pageFails isHm) request (page :: rest) =
              keptFrom isHm request (page :: rest) 0 true := by
            obtain ⟨hwindow, _⟩ := windowPages_hit rest hvalid
            rw [writtenPages, capturedPages, latePage, keptFrom, Nat.zero_add, hwindow,
              if_neg (List.cons_ne_nil _ _)]
            simp only [and_true]
          rw [hkept, ← copiedBytes_eq isHm request _ Nat.zero_lt_two, ← hprinted,
            takenBytes, hvalid]

theorem stamped_last (isHm : Bool) (request : TraceDumpRequest)
    (pages : List RawPage) {failed : Nat} (hfailed : failed < 2) (print : Bool)
    (status : RawStatus) :
    (stamped isHm request pages failed print status).lastPageTimeStamp =
      ((cutAfterFailed (pageFails isHm) (2 - failed)
        (windowPages request pages)).map RawPage.pageTraceTime).foldl max
          status.lastPageTimeStamp := by
  induction pages generalizing failed print status with
  | nil =>
      have hwindow : windowPages request [] = [] := rfl
      rw [hwindow, cutAfterFailed_nil]
      rfl
  | cons page rest ih =>
      rw [stamped]
      cases hvalid : pageValid request page with
      | late =>
          rw [(windowPages_late rest hvalid).1, cutAfterFailed_nil]
          rfl
      | early =>
          rw [(windowPages_early rest hvalid).1]
          exact ih hfailed print status
      | hit =>
          have hnext : failedTime isHm page.pageHeaderSize failed =
              failedAfter isHm page failed := rfl
          rw [(windowPages_hit rest hvalid).1, cutAfterFailed_hit isHm hfailed,
            List.map_cons, List.foldl_cons, hnext]
          dsimp only
          by_cases hstop : failedAfter isHm page failed ≥ 2
          · have hnone : 2 - failedAfter isHm page failed = 0 := by omega
            rw [if_pos hstop, hnone]
            rfl
          · rw [if_neg hstop, ih (Nat.lt_of_not_ge hstop)]
            rfl

theorem stamped_printed (isHm : Bool) (request : TraceDumpRequest)
    (pages : List RawPage) (failed : Nat) (status : RawStatus) :
    (stamped isHm request pages failed true status).firstPageTimeStamp =
      status.firstPageTimeStamp := by
  induction pages generalizing failed status with
  | nil => rfl
  | cons page rest ih =>
      rw [stamped]
      cases pageValid request page with
      | late => rfl
      | early => exact ih failed status
      | hit =>
          dsimp only
          split
          · rfl
          · rw [ih]
            rfl

theorem stamped_first (isHm : Bool) (request : TraceDumpRequest)
    (pages : List RawPage) (status : RawStatus) :
    (stamped isHm request pages 0 false status).firstPageTimeStamp =
      firstTimeStamp (pageFails isHm) request pages status.firstPageTimeStamp := by
  induction pages with
  | nil =>
      have hwindow : windowPages request [] = [] := rfl
      rw [firstTimeStamp, capturedPages, hwindow, cutAfterFailed_nil]
      rfl
  | cons page rest ih =>
      rw [stamped]
      cases hvalid : pageValid request page with
      | late =>
          rw [firstTimeStamp, capturedPages, (windowPages_late rest hvalid).1,
            cutAfterFailed_nil]
      | early =>
          rw [firstTimeStamp, capturedPages, (windowPages_early rest hvalid).1]
          exact ih
      | hit =>
          rw [firstTimeStamp, capturedPages, (windowPages_hit rest hvalid).1,
            cutAfterFailed_cons]
          dsimp only
          split
          · rfl
          · rw [stamped_printed]
            rfl

/-- One pipe, read through the array of one megabyte: no byte is stored past it,
the file gets the pages of the reference, and so do the two time stamps. -/
theorem pipe_capture_meets_reference (isHm : Bool) {request : TraceDumpRequest}
    (hunlimited : Unlimited request) {pipe : RawPipe} (hopens : pipe.opens = true)
    (cpuIdx : Nat) (gBuffer : GlobalBuffer) {content : RawContent}
    (hready : content.io.Ready) :
    ∃ next : RawContent,
      GlobalBuffer.writeTracePipeRawData isHm request pipe cpuIdx gBuffer content =
        some (true, next) ∧
      next.io.file = writeSegments
        [⟨ContentType.cpuRaw + UInt8.ofNat cpuIdx,
          (writtenPages (pageFails isHm) request pipe.pages).flatMap RawPage.bytes,
          some 0⟩] content.io.file ∧
      next.status.lastPageTimeStamp = lastTimeStamp (pageFails isHm) request
        pipe.pages content.status.lastPageTimeStamp ∧
      next.status.firstPageTimeStamp = firstTimeStamp (pageFails isHm) request
        pipe.pages content.status.firstPageTimeStamp := by
  obtain ⟨next, hnext, hwrote⟩ :=
    writeTracePipeRawData_wrote isHm request hopens cpuIdx hready
  have hpayload : (pipeSegment isHm request content.io.outputFileSize pipe
      cpuIdx).payload = (writtenPages (pageFails isHm) request pipe.pages).flatMap
        RawPage.bytes := by
    rw [pipeSegment, takenPages_unlimited isHm hunlimited, takenBytes_eq]
  obtain ⟨hfirst, hlast⟩ := Prod.mk.inj
    (writeTracePipeRawData_stamps isHm hunlimited pipe cpuIdx hnext)
  refine ⟨next, ?_, ?_, ?_, ?_⟩
  · rw [GlobalBuffer.writeTracePipeRawData_eq, hnext]
  · rw [hwrote.file, ← hpayload]
    rfl
  · exact hlast.trans (stamped_last isHm request _ Nat.zero_lt_two false _)
  · exact hfirst.trans (stamped_first isHm request _ _)

theorem pipe_capture_meets_reference_three_pages :
    ∃ next : RawContent,
      GlobalBuffer.writeTracePipeRawData false
        { traceStartTime := 5, traceEndTime := 8 }
        ⟨true, [pageAt 3, pageAt 6, pageAt 9]⟩ 0 GlobalBuffer.zeroBuffer
        emptyTraceFile = some (true, next) ∧
      next.io.file = writeSegments
        [⟨4, (pageAt 6).bytes ++ (pageAt 9).bytes, some 0⟩] {} ∧
      next.status.lastPageTimeStamp = 6 ∧ next.status.firstPageTimeStamp = 6 := by
  obtain ⟨next, hnext, hfile, hlast, hfirst⟩ := pipe_capture_meets_reference false
    (Or.inr rfl : Unlimited { traceStartTime := 5, traceEndTime := 8 })
    (rfl : RawPipe.opens ⟨true, [pageAt 3, pageAt 6, pageAt 9]⟩ = true) 0
    GlobalBuffer.zeroBuffer
    (⟨by decide, rfl, rfl, rfl, rfl⟩ : emptyTraceFile.io.Ready)
  exact ⟨next, hnext, hfile.trans (by decide +kernel),
    hlast.trans (by decide +kernel), hfirst.trans (by decide +kernel)⟩

/-! The page check.  The size it is meant to test is the second word of the page;
the size it does test lies behind its own argument. -/

def RawPage.sizeField (page : RawPage) : Nat :=
  LittleEndian.decode ((page.bytes.drop 8).take 8)

def smallPage (page : RawPage) : Bool := decide (RawPage.sizeField page < 2048)

/-- The pages that end up in the blocks: a late page always among them. -/
def cachedPages (fails : RawPage → Bool) (request : TraceDumpRequest)
    (pages : List RawPage) : List RawPage :=
  capturedPages fails request pages ++ latePage fails request pages

theorem copiedBytes_eq_cachedPages (isHm : Bool) (request : TraceDumpRequest)
    (pages : List RawPage) :
    copiedBytes isHm request pages 0 =
      (cachedPages (pageFails isHm) request pages).flatMap RawPage.bytes := by
  rw [copiedBytes_eq isHm request pages Nat.zero_lt_two, keptFrom, cachedPages,
    capturedPages, latePage, Nat.zero_add]
  simp only [and_true]

theorem cutAfterFailed_congr {fails other : RawPage → Bool} (count : Nat)
    {pages : List RawPage} (hsame : ∀ page ∈ pages, fails page = other page) :
    cutAfterFailed fails count pages = cutAfterFailed other count pages := by
  induction pages generalizing count with
  | nil => rw [cutAfterFailed_nil, cutAfterFailed_nil]
  | cons page rest ih =>
      obtain ⟨hpage, hrest⟩ := List.forall_mem_cons.mp hsame
      cases count with
      | zero => rfl
      | succ count =>
          rw [cutAfterFailed_cons, cutAfterFailed_cons, hpage, ih _ hrest]

theorem windowPages_sub {request : TraceDumpRequest} {pages : List RawPage}
    {page : RawPage} (hpage : page ∈ windowPages request pages) : page ∈ pages :=
  (List.takeWhile_sublist _).mem (List.mem_of_mem_filter hpage)

section SameVerdicts

variable {fails other : RawPage → Bool} (request : TraceDumpRequest)
  {pages : List RawPage} (hsame : ∀ page ∈ pages, fails page = other page)

include hsame

theorem capturedPages_congr :
    capturedPages fails request pages = capturedPages other request pages :=
  cutAfterFailed_congr 2 fun page hpage => hsame page (windowPages_sub hpage)

theorem latePage_congr :
    latePage fails request pages = latePage other request pages := by
  have hcount : (windowPages request pages).countP fails =
      (windowPages request pages).countP other :=
    List.countP_congr fun page hpage => by rw [hsame page (windowPages_sub hpage)]
  rw [latePage, latePage, hcount]

theorem writtenPages_congr :
    writtenPages fails request pages = writtenPages other request pages := by
  rw [writtenPages, writtenPages, capturedPages_congr request hsame,
    latePage_congr request hsame]

theorem cachedPages_congr :
    cachedPages fails request pages = cachedPages other request pages := by
  rw [cachedPages, cachedPages, capturedPages_congr request hsame,
    latePage_congr request hsame]

end SameVerdicts

theorem pageFails_linux (page : RawPage) :
    pageFails false page = decide (page.pageHeaderSize.toNat < 2048) := by
  rw [pageFails, checkPage, Bool.false_or, Bool.not_not]
  rfl

/-- What lies behind the argument of the check tells no more than the page. -/
def StackTellsSize (page : RawPage) : Prop :=
  page.pageHeaderSize.toNat < 2048 ↔ RawPage.sizeField page < 2048

instance : DecidablePred StackTellsSize := fun page =>
  inferInstanceAs (Decidable (page.pageHeaderSize.toNat < 2048 ↔ _))

theorem pageFails_eq_small {pages : List RawPage}
    (htells : ∀ page ∈ pages, StackTellsSize page) :
    ∀ page ∈ pages, pageFails false page = smallPage page := by
  intro page hpage
  rw [pageFails_linux, smallPage]
  exact decide_eq_decide.mpr (htells page hpage)

theorem failedTime_of_bytes {page other : RawPage}
    (hbytes : other.bytes = page.bytes) (hpage : StackTellsSize page)
    (hother : StackTellsSize other) (failed : Nat) :
    failedTime false other.pageHeaderSize failed =
      failedTime false page.pageHeaderSize failed := by
  have hsize : RawPage.sizeField other = RawPage.sizeField page := by
    rw [RawPage.sizeField, hbytes, RawPage.sizeField]
  have hiff : other.pageHeaderSize.toNat < 2048 ↔
      page.pageHeaderSize.toNat < 2048 := by
    rw [StackTellsSize] at hpage hother
    rw [hother, hpage, hsize]
  have hsame : checkPage false other.pageHeaderSize =
      checkPage false page.pageHeaderSize :=
    congrArg (fun small => !small) (decide_eq_decide.mpr hiff)
  rw [failedTime, failedTime, hsame]

/-- Equal pages, equal captures, when the check depends on the pages alone. -/
theorem takenBytes_again (request : TraceDumpRequest) {pages again : List RawPage}
    (hagain : again.map RawPage.bytes = pages.map RawPage.bytes)
    (hpages : ∀ page ∈ pages, StackTellsSize page)
    (hothers : ∀ page ∈ again, StackTellsSize page) (failed : Nat) (print : Bool) :
    takenBytes false request again failed print =
      takenBytes false request pages failed print := by
  induction pages generalizing again failed print with
  | nil =>
      rw [List.map_eq_nil_iff.mp hagain]
  | cons page rest ih =>
      cases again with
      | nil => cases hagain
      | cons other others =>
          obtain ⟨hbytes, hrestBytes⟩ := List.cons.inj hagain
          obtain ⟨hpage, hrest⟩ := List.forall_mem_cons.mp hpages
          obtain ⟨hother, hothers⟩ := List.forall_mem_cons.mp hothers
          have hvalid : pageValid request other = pageValid request page := by
            rw [pageValid, RawPage.pageTraceTime, hbytes]
            rfl
          have hsame := ih hrestBytes hrest hothers
          have hfailed := failedTime_of_bytes hbytes hpage hother failed
          simp only [takenBytes, hvalid, hbytes, hsame, hfailed]

/-- The check looks at the page: its verdict on every page of two captures, what
is kept of the first one by either loop, and what is kept of a second one of the
same pages. -/
structure PageCheckLooks (request : TraceDumpRequest) (pipe again : CachePipe)
    (cpuIdx : Int) (content : RawContent) (state : ReadState) : Prop where
  verdict : ∀ page ∈ pipe.pages ++ again.pages,
    checkPage false page.pageHeaderSize = false ↔ RawPage.sizeField page < 2048
  written : writtenPayload false request pipe.toRawPipe content =
    (writtenPages smallPage request pipe.pages).flatMap RawPage.bytes
  cached : (cachedBlocks false request pipe cpuIdx state
      TraceBufferManager.defaultBlockSz).flatMap BufferBlock.data =
    (cachedPages smallPage request pipe.pages).flatMap RawPage.bytes
  writtenAgain : writtenPayload false request again.toRawPipe content =
    writtenPayload false request pipe.toRawPipe content
  cachedAgain : (cachedBlocks false request again cpuIdx state
      TraceBufferManager.defaultBlockSz).flatMap BufferBlock.data =
    (cachedBlocks false request pipe cpuIdx state
      TraceBufferManager.defaultBlockSz).flatMap BufferBlock.data

/-- A pipe that opens and that is never refused a block. -/
structure CachePipe.Served (pipe : CachePipe) : Prop where
  opens : pipe.opens = true
  grants : ∀ grant ∈ pipe.grants, grant = true
  enough : pipe.pages.length < pipe.grants.length

theorem CachePipe.Served.copied {pipe : CachePipe} (hserved : CachePipe.Served pipe)
    (request : TraceDumpRequest) (cpuIdx : Int) (state : ReadState) :
    (cachedBlocks false request pipe cpuIdx state
      TraceBufferManager.defaultBlockSz).flatMap BufferBlock.data =
        copiedBytes false request pipe.pages 0 :=
  (cacheTracePipeRawData_copied false pipe cpuIdx state request hserved.opens
    (by decide) hserved.grants hserved.enough).1

theorem verdict_iff_stackTells (page : RawPage) :
    (checkPage false page.pageHeaderSize = false ↔ RawPage.sizeField page < 2048) ↔
      StackTellsSize page := by
  have hfails := pageFails_linux page
  rw [pageFails] at hfails
  rw [StackTellsSize, ← decide_eq_true_iff (p := page.pageHeaderSize.toNat < 2048),
    ← hfails, Bool.not_eq_true']

/-- On a Linux kernel the page check does what it is for exactly when the word it
finds on the stack happens to lie on the same side of 2048 as the size of the
page. -/
theorem page_check_looks_iff {request : TraceDumpRequest}
    (hunlimited : Unlimited request) {pipe again : CachePipe}
    (hpipe : CachePipe.Served pipe) (hsecond : CachePipe.Served again)
    (hpages : again.pages.map RawPage.bytes = pipe.pages.map RawPage.bytes)
    (cpuIdx : Int) {content : RawContent} (state : ReadState)
    (hwritable : content.io.Writable) (hend : content.io.file.AtEnd) :
    PageCheckLooks request pipe again cpuIdx content state ↔
      ∀ page ∈ pipe.pages ++ again.pages, StackTellsSize page := by
  constructor
  · intro hlooks page hpage
    exact (verdict_iff_stackTells page).mp (hlooks.verdict page hpage)
  · intro htells
    obtain ⟨hfirst, hothers⟩ := List.forall_mem_append.mp htells
    have hsmall := pageFails_eq_small hfirst
    have htaken := takenBytes_again request hpages hfirst hothers 0
    refine ⟨?_, ?_, ?_, ?_, ?_⟩
    · intro page hpage
      exact (verdict_iff_stackTells page).mpr (htells page hpage)
    · rw [writtenPayload_eq false pipe hunlimited hwritable hend, takenBytes_eq,
        writtenPages_congr request hsmall]
    · rw [hpipe.copied, copiedBytes_eq_cachedPages, cachedPages_congr request hsmall]
    · rw [writtenPayload_eq false pipe hunlimited hwritable hend,
        writtenPayload_eq false again hunlimited hwritable hend, htaken false]
    · rw [hpipe.copied, hsecond.copied, copiedBytes_of_printed, copiedBytes_of_printed,
        htaken true]

/-- A page of full length, and the word behind the argument of its check. -/
def fullPage (time : UInt8) (size : Nat) (pageHeaderSize : UInt64) : RawPage where
  bytes := time :: List.replicate 7 0 ++ LittleEndian.encode 8 size ++
    List.replicate 4080 0
  pageHeaderSize := pageHeaderSize
  size := by
    rw [List.length_append, List.length_append, List.length_cons,
      List.length_replicate, List.length_replicate, LittleEndian.length_encode]
    decide

theorem page_check_looks_iff_lucky_stack :
    PageCheckLooks { traceStartTime := 5, traceEndTime := 8 }
      ⟨⟨true, [fullPage 6 4000 3000, fullPage 7 100 16]⟩, [true, true, true]⟩
      ⟨⟨true, [fullPage 6 4000 2048, fullPage 7 100 0]⟩, [true, true, true]⟩ 0
      emptyTraceFile { taskBuffers := ∅ } := by
  refine (page_check_looks_iff ?_ ?_ ?_ ?_ 0 _ ?_ ?_).mpr ?_
  · exact Or.inr rfl
  · exact ⟨rfl, by decide, by decide⟩
  · exact ⟨rfl, by decide, by decide⟩
  · rfl
  · exact ⟨rfl, rfl, rfl⟩
  · rfl
  · decide +kernel

theorem full_page_fails_check :
    ¬ ∀ (request : TraceDumpRequest) (pipe again : CachePipe) (cpuIdx : Int)
      (content : RawContent) (state : ReadState), Unlimited request →
      CachePipe.Served pipe → CachePipe.Served again →
      again.pages.map RawPage.bytes = pipe.pages.map RawPage.bytes →
      content.io.Writable → content.io.file.AtEnd →
        PageCheckLooks request pipe again cpuIdx content state := by
  intro hall
  have hserved : CachePipe.Served
      ⟨⟨true, [fullPage 6 4000 16]⟩, [true, true]⟩ := ⟨rfl, by decide, by decide⟩
  have hlooks := hall { traceStartTime := 5, traceEndTime := 8 } _ _ 0 emptyTraceFile
    { taskBuffers := ∅ } (Or.inr rfl) hserved hserved rfl ⟨rfl, rfl, rfl⟩ rfl
  have hverdict := hlooks.verdict (fullPage 6 4000 16) (List.mem_cons_self ..)
  revert hverdict
  decide +kernel

end CpuRaw

end Hitrace
