import Hitrace.TraceFactory.PageCapture

namespace Hitrace

open Library TraceContent

namespace CpuRaw

/-! The pages a pipe leaves in memory when the manager may refuse a block, and the
time stamps they give. -/

/-- The pages one block takes in turn, and the pages behind them; `used` is what
the block holds already. -/
def blockPages (bufferSz : Nat) : Nat → List RawPage → List RawPage × List RawPage
  | _, [] => ([], [])
  | used, page :: rest =>
      if used > bufferSz - pageSize then ([], page :: rest)
      else
        let (taken, left) := blockPages bufferSz (used + page.bytes.length) rest
        (page :: taken, left)

/-- The pages the granted blocks take, up to the first refusal. -/
def grantedPages (bufferSz : Nat) : List Bool → List RawPage → List RawPage
  | true :: grants, pages =>
      let (taken, left) := blockPages bufferSz 0 pages
      taken ++ grantedPages bufferSz grants left
  | _, _ => []

def storedPages (isHm : Bool) (request : TraceDumpRequest) (pipe : CachePipe) :
    List RawPage :=
  grantedPages TraceBufferManager.defaultBlockSz pipe.grants
    (capturedPages (pageFails isHm) request pipe.pages)

def stampPages : Bool → List RawPage → RawStatus → RawStatus
  | _, [], status => status
  | print, page :: rest, status =>
      stampPages true rest
        (updateFirstLastPageTimeStamp page.pageTraceTime print status)

@[simp] theorem blockPages_nil (bufferSz used : Nat) :
    blockPages bufferSz used [] = ([], []) := rfl

@[simp] theorem stampPages_nil (print : Bool) (status : RawStatus) :
    stampPages print [] status = status := rfl

theorem blockPages_full {bufferSz used : Nat} (hfull : used > bufferSz - pageSize)
    (pages : List RawPage) : blockPages bufferSz used pages = ([], pages) := by
  cases pages with
  | nil => rfl
  | cons page rest => rw [blockPages, if_pos hfull]

theorem stampPages_append (print : Bool) (first second : List RawPage)
    (status : RawStatus) :
    stampPages print (first ++ second) status =
      stampPages (print || !first.isEmpty) second (stampPages print first status) := by
  induction first generalizing print status with
  | nil => simp
  | cons page rest ih =>
      rw [List.cons_append, stampPages, ih, stampPages]
      simp

theorem stampPages_stamps (print : Bool) (pages : List RawPage)
    {left right : RawStatus} (hsame : left.stamps = right.stamps) :
    (stampPages print pages left).stamps = (stampPages print pages right).stamps := by
  induction pages generalizing print left right with
  | nil => exact hsame
  | cons page rest ih =>
      exact ih true (updateFirstLastPageTimeStamp_stamps hsame page.pageTraceTime print)

/-! The loop into the blocks, one block at a time. -/

/-- The pages in the window that the loop still looks at, with so many checks
failed before. -/
def pagesAhead (isHm : Bool) (request : TraceDumpRequest) (failed : Nat)
    (pages : List RawPage) : List RawPage :=
  cutAfterFailed (pageFails isHm) (2 - failed) (windowPages request pages)

theorem pagesAhead_nil (isHm : Bool) (request : TraceDumpRequest) (failed : Nat) :
    pagesAhead isHm request failed [] = [] := by
  have hwindow : windowPages request [] = [] := rfl
  rw [pagesAhead, hwindow, cutAfterFailed_nil]

theorem pagesAhead_stopped (isHm : Bool) (request : TraceDumpRequest) {failed : Nat}
    (hfailed : failed ≥ 2) (pages : List RawPage) :
    pagesAhead isHm request failed pages = [] := by
  have hnone : 2 - failed = 0 := by omega
  rw [pagesAhead, hnone]
  rfl

theorem pagesAhead_hit {isHm : Bool} {request : TraceDumpRequest} {page : RawPage}
    (rest : List RawPage) {failed : Nat} (hfailed : failed < 2)
    (hvalid : pageValid request page = .hit) :
    pagesAhead isHm request failed (page :: rest) =
      page :: pagesAhead isHm request (failedAfter isHm page failed) rest := by
  rw [pagesAhead, (windowPages_hit rest hvalid).1, cutAfterFailed_hit isHm hfailed]
  rfl

/-- What one block does with the pages ahead. -/
structure BlockTaken (isHm : Bool) (request : TraceDumpRequest) (bufferSz : Nat)
    (pages : List RawPage) (state : CopyState)
    (result : Bool × List RawPage × CopyState) : Prop where
  stamps : result.2.2.status.stamps = (stampPages state.printFirstPageTime
    (blockPages bufferSz state.blockReadSz
      (pagesAhead isHm request state.pageChkFailedTime pages)).1 state.status).stamps
  printed : result.2.2.printFirstPageTime = (state.printFirstPageTime ||
    !(blockPages bufferSz state.blockReadSz
      (pagesAhead isHm request state.pageChkFailedTime pages)).1.isEmpty)
  left : pagesAhead isHm request result.2.2.pageChkFailedTime (leftPages result) =
    (blockPages bufferSz state.blockReadSz
      (pagesAhead isHm request state.pageChkFailedTime pages)).2
  going : result.1 = false → result.2.2.pageChkFailedTime < 2

/-- A block that takes no page of those ahead. -/
theorem BlockTaken.nothing {isHm : Bool} {request : TraceDumpRequest}
    {bufferSz : Nat} {pages : List RawPage} {state : CopyState}
    {result : Bool × List RawPage × CopyState}
    (hblock : blockPages bufferSz state.blockReadSz
      (pagesAhead isHm request state.pageChkFailedTime pages) =
        ([], pagesAhead isHm request state.pageChkFailedTime (leftPages result)))
    (hstamps : result.2.2.status.stamps = state.status.stamps)
    (hprinted : result.2.2.printFirstPageTime = state.printFirstPageTime)
    (hfailed : result.2.2.pageChkFailedTime = state.pageChkFailedTime)
    (hsmall : state.pageChkFailedTime < 2) :
    BlockTaken isHm request bufferSz pages state result := by
  refine ⟨?_, ?_, ?_, ?_⟩
  · rw [hblock]
    exact hstamps
  · rw [hblock]
    simpa using hprinted
  · rw [hblock, hfailed]
  · rw [hfailed]
    exact fun _ => hsmall

/-- A page of the window goes into the block, in front of what the block takes
from then on. -/
theorem BlockTaken.hit {isHm : Bool} {request : TraceDumpRequest} {bufferSz : Nat}
    {page : RawPage} {rest : List RawPage} {state : CopyState}
    {result : Bool × List RawPage × CopyState}
    (htaken : BlockTaken isHm request bufferSz rest (state.hit isHm page) result)
    (hroom : ¬ state.blockReadSz > bufferSz - pageSize)
    (hsmall : state.pageChkFailedTime < 2)
    (hvalid : pageValid request page = .hit) :
    BlockTaken isHm request bufferSz (page :: rest) state result := by
  have hblock : blockPages bufferSz state.blockReadSz
      (pagesAhead isHm request state.pageChkFailedTime (page :: rest)) =
        (page :: (blockPages bufferSz (state.hit isHm page).blockReadSz
          (pagesAhead isHm request (state.hit isHm page).pageChkFailedTime rest)).1,
        (blockPages bufferSz (state.hit isHm page).blockReadSz
          (pagesAhead isHm request (state.hit isHm page).pageChkFailedTime rest)).2) := by
    rw [pagesAhead_hit rest hsmall hvalid, blockPages, if_neg hroom]
    rfl
  obtain ⟨hstamps, hprinted, hleft, hgoing⟩ := htaken
  refine ⟨?_, ?_, ?_, hgoing⟩
  · rw [hblock]
    exact hstamps
  · rw [hblock, hprinted]
    simp [CopyState.hit]
  · rw [hblock]
    exact hleft

theorem copyPages_taken (isHm : Bool) (request : TraceDumpRequest)
    (pages : List RawPage) (state : CopyState) (bufferSz : Nat)
    (hsmall : state.pageChkFailedTime < 2) :
    BlockTaken isHm request bufferSz pages state
      (copyPages isHm request pages state bufferSz) := by
  induction pages generalizing state with
  | nil =>
      refine BlockTaken.nothing ?_ rfl rfl rfl hsmall
      have hleft : leftPages (copyPages isHm request [] state bufferSz) = [] := by
        rw [leftPages]
        split <;> rfl
      rw [hleft, pagesAhead_nil]
      rfl
  | cons page rest ih =>
      rw [copyPages]
      split
      · next hfull => exact BlockTaken.nothing (blockPages_full hfull _) rfl rfl rfl hsmall
      · next hroom =>
          cases hvalid : pageValid request page with
          | late =>
              refine BlockTaken.nothing ?_ rfl rfl rfl hsmall
              have hnone : pagesAhead isHm request state.pageChkFailedTime
                  (page :: rest) = [] := by
                rw [pagesAhead, (windowPages_late rest hvalid).1, cutAfterFailed_nil]
              have hleft : leftPages (true, rest, state.late page) = [] := rfl
              rw [hnone, hleft, pagesAhead_nil]
              rfl
          | early =>
              have hsame : pagesAhead isHm request state.pageChkFailedTime
                  (page :: rest) =
                    pagesAhead isHm request state.pageChkFailedTime rest := by
                rw [pagesAhead, (windowPages_early rest hvalid).1]
                rfl
              obtain ⟨hstamps, hprinted, hleft, hgoing⟩ := ih state hsmall
              rw [← hsame] at hstamps hprinted hleft
              exact ⟨hstamps, hprinted, hleft, hgoing⟩
          | hit =>
              dsimp only
              split
              · next hfailed =>
                  refine BlockTaken.hit ?_ hroom hsmall hvalid
                  have hnone := pagesAhead_stopped isHm request hfailed
                  refine ⟨?_, ?_, ?_, ?_⟩
                  · rw [hnone]
                    rfl
                  · rw [hnone]
                    simp [CopyState.hit]
                  · rw [hnone, hnone]
                    rfl
                  · intro hgoes
                    cases hgoes
              · next hfailed =>
                  exact (ih (state.hit isHm page) (Nat.lt_of_not_ge hfailed)).hit hroom
                    hsmall hvalid

theorem copyTracePipeRawLoop_stored (isHm : Bool) (request : TraceDumpRequest)
    (cpu : Int) (grants : List Bool) (pages : List RawPage) (locals : CacheLocals)
    (state : ReadState) (bufferSz : Nat) (hsmall : locals.pageChkFailedTime < 2) :
    (copyTracePipeRawLoop isHm request cpu grants pages locals state
        bufferSz).2.status.stamps =
      (stampPages locals.printFirstPageTime (grantedPages bufferSz grants
        (pagesAhead isHm request locals.pageChkFailedTime pages))
        state.status).stamps := by
  induction grants generalizing pages locals state with
  | nil => rfl
  | cons grant rest ih =>
      cases grant with
      | false => rfl
      | true =>
          have htaken := copyPages_taken isHm request pages
            (.start cpu locals state.status bufferSz) bufferSz hsmall
          rw [copyTracePipeRawLoop, grantedPages]
          generalize copyPages isHm request pages
            (.start cpu locals state.status bufferSz) bufferSz = result at htaken
          obtain ⟨stop, left, copied⟩ := result
          obtain ⟨hstamps, hprinted, hleft, hgoing⟩ := htaken
          dsimp only [CopyState.start] at hstamps hprinted hleft hgoing
          generalize blockPages bufferSz 0 (pagesAhead isHm request
            locals.pageChkFailedTime pages) = split at hstamps hprinted hleft
          obtain ⟨taken, behind⟩ := split
          dsimp only at hstamps hprinted hleft ⊢
          cases stop with
          | true =>
              have hbehind : behind = [] := by
                rw [← hleft]
                exact pagesAhead_nil isHm request _
              have hnone : ∀ grants, grantedPages bufferSz grants [] = [] := by
                intro grants
                induction grants with
                | nil => rfl
                | cons grant others ihgrants =>
                    cases grant with
                    | false => rfl
                    | true => simpa [grantedPages] using ihgrants
              rw [hbehind, hnone, List.append_nil]
              exact hstamps
          | false =>
              have hrest := ih left (locals.add copied)
                (state.store request.taskId copied) (hgoing rfl)
              have hahead : pagesAhead isHm request
                  (locals.add copied).pageChkFailedTime left = behind := hleft
              have hprint : (locals.add copied).printFirstPageTime =
                  (locals.printFirstPageTime || !taken.isEmpty) := hprinted
              rw [hahead, hprint] at hrest
              rw [stampPages_append]
              exact hrest.trans (stampPages_stamps _ _ hstamps)

/-! The stamps of all pipes, as bounds. -/

theorem lt_max_iff_of_uint64 (time left right : UInt64) :
    time < max left right ↔ time < left ∨ time < right := by
  simp only [UInt64.lt_iff_toNat_lt, UInt64.toNat_max]
  omega

theorem min_lt_iff_of_uint64 (time left right : UInt64) :
    min left right < time ↔ left < time ∨ right < time := by
  simp only [UInt64.lt_iff_toNat_lt, UInt64.toNat_min]
  omega

theorem lt_stampPages_last (time : UInt64) (print : Bool) (pages : List RawPage)
    (status : RawStatus) :
    time < (stampPages print pages status).lastPageTimeStamp ↔
      time < status.lastPageTimeStamp ∨ ∃ page ∈ pages, time < page.pageTraceTime := by
  induction pages generalizing print status with
  | nil => simp
  | cons page rest ih =>
      rw [stampPages, ih, updateFirstLastPageTimeStamp, lt_max_iff_of_uint64,
        List.exists_mem_cons_iff, or_assoc]

theorem stampPages_printed (pages : List RawPage) (status : RawStatus) :
    (stampPages true pages status).firstPageTimeStamp =
      status.firstPageTimeStamp := by
  induction pages generalizing status with
  | nil => rfl
  | cons page rest ih =>
      rw [stampPages, ih]
      rfl

theorem stampPages_first_lt (time : UInt64) (pages : List RawPage)
    (status : RawStatus) :
    (stampPages false pages status).firstPageTimeStamp < time ↔
      status.firstPageTimeStamp < time ∨
        ∃ page ∈ pages.head?, page.pageTraceTime < time := by
  cases pages with
  | nil => simp
  | cons page rest =>
      rw [stampPages, stampPages_printed, updateFirstLastPageTimeStamp]
      simp [min_lt_iff_of_uint64]

theorem cacheTracePipeRawData_stored (isHm : Bool) (request : TraceDumpRequest)
    {pipe : CachePipe} (hopens : pipe.opens = true) (cpuIdx : Int)
    (state : ReadState) :
    ∃ next : ReadState,
      cacheTracePipeRawData isHm request pipe cpuIdx state = (true, next) ∧
      next.status.stamps = (stampPages false (storedPages isHm request pipe)
        state.status).stamps := by
  have hstored := copyTracePipeRawLoop_stored isHm request cpuIdx pipe.grants
    pipe.pages {} state TraceBufferManager.defaultBlockSz Nat.zero_lt_two
  rw [cacheTracePipeRawData, hopens]
  simp only [Bool.not_true, Bool.false_eq_true, if_false]
  split
  · exact ⟨_, rfl, hstored⟩
  · exact ⟨_, rfl, hstored⟩

/-- The two stamps of a read whose pipes all open. -/
theorem cachePipes_stored (isHm : Bool) (request : TraceDumpRequest)
    {pipes : List CachePipe} (hopens : ∀ pipe ∈ pipes, pipe.opens = true)
    (cpuIdx : Int) (state : ReadState) (time : UInt64) :
    (time < (cachePipes isHm request pipes cpuIdx state).2.status.lastPageTimeStamp ↔
      time < state.status.lastPageTimeStamp ∨
        ∃ pipe ∈ pipes, ∃ page ∈ storedPages isHm request pipe,
          time < page.pageTraceTime) ∧
    ((cachePipes isHm request pipes cpuIdx state).2.status.firstPageTimeStamp < time ↔
      state.status.firstPageTimeStamp < time ∨
        ∃ pipe ∈ pipes, ∃ page ∈ (storedPages isHm request pipe).head?,
          page.pageTraceTime < time) := by
  induction pipes generalizing cpuIdx state with
  | nil => simp [cachePipes]
  | cons pipe rest ih =>
      obtain ⟨hpipe, hrest⟩ := List.forall_mem_cons.mp hopens
      obtain ⟨next, hnext, hstamps⟩ :=
        cacheTracePipeRawData_stored isHm request hpipe cpuIdx state
      obtain ⟨hfirst, hlast⟩ := Prod.mk.inj hstamps
      obtain ⟨hlater, hearlier⟩ := ih hrest (cpuIdx + 1) next
      rw [cachePipes, hnext]
      dsimp only
      constructor
      · rw [hlater, hlast, lt_stampPages_last, List.exists_mem_cons_iff, or_assoc]
      · rw [hearlier, hfirst, stampPages_first_lt, List.exists_mem_cons_iff, or_assoc]

/-- A page that stands first among those of its processor is older than a page of
the capture. -/
def SpansTime (isHm : Bool) (request : TraceDumpRequest) (pipes : List CachePipe) :
    Prop :=
  ∃ first ∈ pipes, ∃ head ∈ (storedPages isHm request first).head?,
    ∃ last ∈ pipes, ∃ page ∈ storedPages isHm request last,
      head.pageTraceTime < page.pageTraceTime

theorem stamps_lt_iff (isHm : Bool) (request : TraceDumpRequest)
    {pipes : List CachePipe} (hopens : ∀ pipe ∈ pipes, pipe.opens = true)
    (taskBuffers : Multimap UInt64 BufferBlock) :
    let status := (cachePipes isHm request pipes 0 { taskBuffers }).2.status
    status.firstPageTimeStamp < status.lastPageTimeStamp ↔
      SpansTime isHm request pipes := by
  intro status
  have hinit : ∀ time : UInt64,
      ¬ UInt64.ofNat (UInt64.size - 1) < time ∧ ¬ time < 0 := by
    intro time
    have hlt := time.toNat_lt
    rw [UInt64.lt_iff_toNat_lt, UInt64.lt_iff_toNat_lt]
    constructor
    · intro hbelow
      exact absurd hbelow (by simp [UInt64.size]; omega)
    · exact Nat.not_lt_zero _
  have hbounds := cachePipes_stored isHm request hopens 0 { taskBuffers }
  rw [(hbounds status.lastPageTimeStamp).2, or_iff_right (hinit _).1, SpansTime]
  apply exists_congr
  intro first
  apply and_congr_right
  intro _
  apply exists_congr
  intro head
  apply and_congr_right
  intro _
  rw [(hbounds head.pageTraceTime).1]
  exact or_iff_right (hinit _).2

end CpuRaw

end Hitrace
