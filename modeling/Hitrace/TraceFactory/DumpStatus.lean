import Hitrace.TraceFactory.CaptureAgreement
import Hitrace.TracedumpExecutor.BlockLifetime
import Mathlib.Data.List.TakeWhile

namespace Hitrace

open Library TraceContent

namespace CpuRaw

/-! The dump status that the processors of one dump leave behind. -/

theorem flushFull_readLen (request : TraceDumpRequest) {state next : PipeState}
    {overflow : Bool} (hflush : state.flushFull request = (overflow, next)) :
    next.readLen + next.buffer.length = state.readLen + state.buffer.length ∧
      (overflow = true → next.buffer = []) := by
  rw [PipeState.flushFull] at hflush
  split at hflush
  · cases hflush
    refine ⟨rfl, ?_⟩
    intro hoverflow
    cases hoverflow
  · have hnext : (state.flush request).2 = next := congrArg Prod.snd hflush
    cases hnext
    exact ⟨rfl, fun _ => rfl⟩

/-- The bytes read never become fewer, and every exit counts the buffer. -/
theorem writeTracePipeRawLoop_readLen (isHm : Bool) (request : TraceDumpRequest)
    (pages : List RawPage) (state : PipeState) :
    state.readLen + state.buffer.length ≤
      (writeTracePipeRawLoop isHm request pages state).readLen := by
  induction pages generalizing state with
  | nil =>
      obtain ⟨overflow, next, hflush⟩ :
          ∃ overflow next, state.flushFull request = (overflow, next) := ⟨_, _, rfl⟩
      obtain ⟨hsame, hempty⟩ := flushFull_readLen request hflush
      rw [writeTracePipeRawLoop, hflush, ← hsame]
      cases overflow with
      | true =>
          rw [hempty rfl]
          exact Nat.le_refl _
      | false => exact Nat.le_refl _
  | cons page rest ih =>
      obtain ⟨overflow, next, hflush⟩ :
          ∃ overflow next, state.flushFull request = (overflow, next) := ⟨_, _, rfl⟩
      obtain ⟨hsame, hempty⟩ := flushFull_readLen request hflush
      rw [writeTracePipeRawLoop, hflush, ← hsame]
      cases overflow with
      | true =>
          rw [hempty rfl]
          exact Nat.le_refl _
      | false =>
          dsimp only
          have hhit : next.readLen + next.buffer.length ≤
              (next.hit isHm page).readLen + (next.hit isHm page).buffer.length := by
            simp only [PipeState.hit, List.length_append]
            omega
          cases pageValid request page with
          | late =>
              simp only [PipeState.flush, PipeState.late, List.length_append]
              omega
          | early => exact ih next
          | hit =>
              dsimp only
              split
              · exact hhit
              · exact Nat.le_trans hhit (ih (next.hit isHm page))

/-- A pipe without a page in the window up to the first one past it is read to no
effect but on the status. -/
theorem writeTracePipeRawLoop_untaken (isHm : Bool) {request : TraceDumpRequest}
    {pages : List RawPage} (state : PipeState) (hbuffer : state.buffer = [])
    (hprint : state.printFirstPageTime = false)
    (hdecide : pagesDecide request pages ≠ some .success) :
    (writeTracePipeRawLoop isHm request pages state).readLen = state.readLen ∧
      (writeTracePipeRawLoop isHm request pages state).status.dumpStatus =
        (pagesDecide request pages).getD .success := by
  have hflush := flushFull_of_nil request hbuffer
  induction pages with
  | nil =>
      rw [writeTracePipeRawLoop, hflush]
      refine ⟨?_, rfl⟩
      simp [PipeState.flush, PipeState.setDumpStatus, hbuffer]
  | cons page rest ih =>
      rw [pagesDecide] at hdecide ⊢
      rw [writeTracePipeRawLoop, hflush]
      cases hvalid : pageValid request page with
      | late =>
          refine ⟨?_, rfl⟩
          simp [PipeState.flush, PipeState.late, hbuffer, hprint]
      | early =>
          rw [hvalid] at hdecide
          exact ih hdecide
      | hit => simp [hvalid] at hdecide

theorem writeTracePipeRawLoop_taken (isHm : Bool) {request : TraceDumpRequest}
    {pages : List RawPage} (state : PipeState) (hbuffer : state.buffer = [])
    (hdecide : pagesDecide request pages = some .success) :
    0 < (writeTracePipeRawLoop isHm request pages state).readLen ∧
      state.takenPages isHm request pages ≠ [] := by
  have hflush := flushFull_of_nil request hbuffer
  have hroom : ¬ bufferSize - pageSize < state.buffer.length := by
    rw [hbuffer]
    exact Nat.not_lt_zero _
  induction pages with
  | nil => exact nomatch hdecide
  | cons page rest ih =>
      rw [pagesDecide] at hdecide
      rw [writeTracePipeRawLoop, hflush, PipeState.takenPages, takenPages]
      simp only [decide_eq_false hroom, Bool.false_and, Bool.false_eq_true, if_false]
      cases hvalid : pageValid request page with
      | late => simp [hvalid] at hdecide
      | early =>
          rw [hvalid] at hdecide
          exact ih hdecide
      | hit =>
          have hbytes : 0 < page.bytes.length :=
            Nat.lt_of_lt_of_le (by decide) page.size.1
          have hread : 0 < (state.hit isHm page).readLen +
              (state.hit isHm page).buffer.length := by
            simp only [PipeState.hit, List.length_append]
            omega
          refine ⟨?_, ?_⟩
          · dsimp only
            split
            · exact hread
            · exact Nat.lt_of_lt_of_le hread (writeTracePipeRawLoop_readLen ..)
          · have hpage : page.bytes ≠ [] := List.length_pos_iff.mp hbytes
            simp [hpage]

/-- The status a synchronous read of one pipe ends with. -/
def pipeStatus (request : TraceDumpRequest) (pages : List RawPage) :
    TraceErrorCode :=
  (pagesDecide request pages).getD .success

theorem writeTracePipeRawData_status (isHm : Bool) (request : TraceDumpRequest)
    {pipe : RawPipe} (hopens : pipe.opens = true) (cpuIdx : Nat)
    {content : RawContent} (hready : content.io.Ready) :
    ∃ next, writeTracePipeRawData isHm request pipe cpuIdx content = (true, next) ∧
      next.io.Ready ∧
      next.status.dumpStatus = pipeStatus request pipe.pages := by
  obtain ⟨next, hwrite, hwrote⟩ :=
    writeTracePipeRawData_wrote isHm request hopens cpuIdx hready
  obtain ⟨start, hexist, hstart, _, _⟩ := hready.isFileExist
  refine ⟨next, hwrite, hwrote.ready, ?_⟩
  unfold writeTracePipeRawData at hwrite
  rw [hexist] at hwrite
  dsimp only at hwrite
  rw [hopens, doWriteTraceContentHeader_writable hstart.writable] at hwrite
  let state : PipeState :=
    { status := content.status
      isOverFlow := content.isOverFlow
      io := start.put (TraceFileContentHeader.bytes
        ⟨ContentType.cpuRaw + UInt8.ofNat cpuIdx, 0⟩) }
  have hput := writeTracePipeRawLoop_put isHm request pipe.pages state
    (hstart.put _).writable
  cases hwrite
  dsimp only
  rw [pipeStatus]
  by_cases hdecide : pagesDecide request pipe.pages = some .success
  · obtain ⟨hread, htaken⟩ := writeTracePipeRawLoop_taken isHm state rfl hdecide
    have hwritten := hput.writeLen
    have hlength := List.length_pos_iff.mpr htaken
    rw [if_pos hread, if_pos, hdecide]
    · rfl
    · have hstart : state.writeLen = 0 := rfl
      rw [hwritten, hstart, List.length_append]
      omega
  · obtain ⟨hread, hstatus⟩ := writeTracePipeRawLoop_untaken isHm state rfl rfl
      hdecide
    rw [if_neg, hstatus]
    rw [hread]
    exact Nat.lt_irrefl 0

theorem writePipes_status (isHm : Bool) (request : TraceDumpRequest)
    {pipes : List RawPipe} (hopens : ∀ pipe ∈ pipes, pipe.opens = true)
    (cpuIdx : Nat) (content : RawContent) (hready : content.io.Ready) :
    ∃ next, writePipes isHm request pipes cpuIdx content = (true, next) ∧
      next.status.dumpStatus = pipes.foldl
        (fun _ pipe => pipeStatus request pipe.pages) content.status.dumpStatus := by
  induction pipes generalizing cpuIdx content with
  | nil => exact ⟨content, rfl, rfl⟩
  | cons pipe rest ih =>
      obtain ⟨hfirst, hothers⟩ := List.forall_mem_cons.mp hopens
      obtain ⟨next, hwrite, hnext, hstatus⟩ :=
        writeTracePipeRawData_status isHm request hfirst cpuIdx hready
      obtain ⟨final, hrest, hfinal⟩ := ih hothers (cpuIdx + 1) next hnext
      refine ⟨final, ?_, ?_⟩
      · rw [writePipes, hwrite]
        exact hrest
      · rw [hfinal, hstatus]
        rfl

/-! The result of both readers, and the one the interface documents. -/

def syncResult (request : TraceDumpRequest) (pipes : List CachePipe)
    (io : TraceIo) : Bool × TraceErrorCode :=
  let (succeeds, content) :=
    traceCpuRawLinux request (pipes.map CachePipe.toRawPipe) io
  (succeeds, content.status.dumpStatus)

def asyncResult (request : TraceDumpRequest) (pipes : List CachePipe)
    (taskBuffers : Multimap UInt64 BufferBlock) : Bool × TraceErrorCode :=
  let (succeeds, state) := traceCpuRawReadLinux request pipes taskBuffers
  (succeeds, state.status.dumpStatus)

/-- Success when some processor contributes a page of the window. -/
def documentedResult (request : TraceDumpRequest) (pipes : List CachePipe) :
    Bool × TraceErrorCode :=
  if pipes.any fun pipe => pagesDecide request pipe.pages = some .success then
    (true, .success)
  else (false, .outOfTime)

def StatusDocumented (request : TraceDumpRequest) (pipes : List CachePipe)
    (io : TraceIo) (taskBuffers : Multimap UInt64 BufferBlock) : Prop :=
  syncResult request pipes io = documentedResult request pipes ∧
    asyncResult request pipes taskBuffers = documentedResult request pipes

/-- Every pipe opens, and the reader gets a block for it. -/
def Served (pipes : List CachePipe) : Prop :=
  ∀ pipe ∈ pipes, pipe.opens = true ∧ pipe.granted = true

def statusResult (status : TraceErrorCode) : Bool × TraceErrorCode :=
  (decide (status = .success), status)

def decisions (request : TraceDumpRequest) (pipes : List CachePipe) :
    List (Option TraceErrorCode) :=
  pipes.map fun pipe => pagesDecide request pipe.pages

theorem syncResult_eq (request : TraceDumpRequest) {pipes : List CachePipe}
    (hserved : Served pipes) {io : TraceIo} (hready : io.Ready) :
    syncResult request pipes io = statusResult ((decisions request pipes).foldl
      (fun _ decision => decision.getD .success) .unset) := by
  have hopens : ∀ pipe ∈ pipes.map CachePipe.toRawPipe, pipe.opens = true := by
    intro pipe hmem
    obtain ⟨cached, hcached, rfl⟩ := List.mem_map.mp hmem
    exact (hserved cached hcached).1
  obtain ⟨next, hwrite, hstatus⟩ := writePipes_status false request hopens 0
    { io } hready
  rw [syncResult, traceCpuRawLinux, traceCpuRaw, hwrite, statusResult]
  rw [List.foldl_map] at hstatus
  rw [decisions, List.foldl_map]
  dsimp only
  rw [hstatus, Bool.true_and]
  rfl

theorem asyncResult_eq (request : TraceDumpRequest) {pipes : List CachePipe}
    (hserved : Served pipes) (taskBuffers : Multimap UInt64 BufferBlock) :
    asyncResult request pipes taskBuffers =
      statusResult ((decisions request pipes).foldl
        (fun status decision => decision.getD status) .unset) := by
  obtain ⟨hall, hstatus, _⟩ := cachePipes_spec false request pipes 0
    (Int.le_refl 0) { taskBuffers }
  have hopened : openedPipes pipes = pipes := by
    rw [openedPipes, List.takeWhile_eq_self_iff]
    exact fun pipe hmem => (hserved pipe hmem).1
  have hopens : pipes.all (fun pipe => pipe.opens) = true :=
    List.all_eq_true.mpr fun pipe hmem => (hserved pipe hmem).1
  have hdecided : decidedStatus request .unset pipes =
      (decisions request pipes).foldl
        (fun status decision => decision.getD status) .unset := by
    rw [decisions, List.foldl_map, decidedStatus]
    apply List.foldl_ext
    intro status pipe hmem
    rw [CachePipe.decides, (hserved pipe hmem).2]
    rfl
  rw [hopened] at hstatus
  rw [hopens] at hall
  rw [← hdecided, asyncResult, traceCpuRawReadLinux, traceCpuRawRead]
  generalize cachePipes false request pipes 0 { taskBuffers } = result
    at hall hstatus
  obtain ⟨opened, state⟩ := result
  cases hall
  dsimp only at hstatus ⊢
  rw [← hstatus, statusResult]
  by_cases hsuccess : state.status.dumpStatus = .success
  · simp [hsuccess]
  · simp [hsuccess]

/-! When the status is the documented one. -/

theorem mem_decisions {request : TraceDumpRequest} {pipes : List CachePipe}
    {decision : Option TraceErrorCode} (hmem : decision ∈ decisions request pipes) :
    decision = none ∨ decision = some .outOfTime ∨ decision = some .success := by
  obtain ⟨pipe, _, rfl⟩ := List.mem_map.mp hmem
  exact pagesDecide_cases request pipe.pages

theorem documentedResult_eq (request : TraceDumpRequest) (pipes : List CachePipe) :
    documentedResult request pipes =
      if some .success ∈ decisions request pipes then statusResult .success
      else statusResult .outOfTime := by
  have hany : (pipes.any fun pipe => pagesDecide request pipe.pages = some .success) =
      decide (some .success ∈ decisions request pipes) := by
    rw [Bool.eq_iff_iff, List.any_eq_true, decide_eq_true_iff, decisions,
      List.mem_map]
    simp only [decide_eq_true_eq]
  rw [documentedResult, hany]
  simp only [decide_eq_true_eq]
  rfl

theorem statusResult_inj {left right : TraceErrorCode} :
    statusResult left = statusResult right ↔ left = right :=
  ⟨fun hsame => congrArg Prod.snd hsame, fun hsame => congrArg statusResult hsame⟩

/-- The last processor that decides anything contributes, or none contributes and
the last one starts past the window. -/
def LastDecides (request : TraceDumpRequest) (pipes : List CachePipe) : Prop :=
  ((decisions request pipes).filterMap id).getLast? = some .success ∨
    some .success ∉ decisions request pipes ∧
      (decisions request pipes).getLast? = some (some .outOfTime)

theorem foldl_kept (decisions : List (Option TraceErrorCode))
    (status : TraceErrorCode) :
    decisions.foldl (fun status decision => decision.getD status) status =
      ((decisions.filterMap id).getLast?).getD status := by
  induction decisions using List.reverseRecOn with
  | nil => rfl
  | append_singleton front last ih =>
      rw [List.foldl_concat, ih]
      cases last with
      | none => simp
      | some decision => simp

theorem foldl_last (decisions : List (Option TraceErrorCode))
    (status : TraceErrorCode) :
    decisions.foldl (fun _ decision => decision.getD .success) status =
      (decisions.getLast?.map fun decision => decision.getD .success).getD
        status := by
  induction decisions using List.reverseRecOn with
  | nil => rfl
  | append_singleton front last _ => simp

theorem statusDocumented_iff (request : TraceDumpRequest) {pipes : List CachePipe}
    (hserved : Served pipes) {io : TraceIo} (hready : io.Ready)
    (taskBuffers : Multimap UInt64 BufferBlock) :
    StatusDocumented request pipes io taskBuffers ↔ LastDecides request pipes := by
  rw [StatusDocumented, syncResult_eq request hserved hready,
    asyncResult_eq request hserved, documentedResult_eq, foldl_kept, foldl_last,
    LastDecides]
  have hkept : ∀ status,
      (((decisions request pipes).filterMap id).getLast?).getD .unset = status →
        status ≠ .unset → some status ∈ decisions request pipes := by
    intro status hlast hset
    cases hget : ((decisions request pipes).filterMap id).getLast? with
    | none =>
        rw [hget] at hlast
        exact absurd hlast.symm hset
    | some decision =>
        rw [hget] at hlast
        cases hlast
        simpa using List.mem_of_getLast? hget
  by_cases hhit : some .success ∈ decisions request pipes
  · rw [if_pos hhit, statusResult_inj, statusResult_inj]
    constructor
    · rintro ⟨_, hasync⟩
      refine Or.inl ?_
      cases hget : ((decisions request pipes).filterMap id).getLast? with
      | none =>
          rw [hget] at hasync
          cases hasync
      | some decision =>
          rw [hget] at hasync
          exact congrArg some hasync
    · rintro (hlast | ⟨hmiss, _⟩)
      · refine ⟨?_, by rw [hlast]; rfl⟩
        cases hget : (decisions request pipes).getLast? with
        | none => simp [List.getLast?_eq_none_iff.mp hget] at hhit
        | some decision =>
            cases decision with
            | none => rfl
            | some status =>
                obtain ⟨front, hfront⟩ := List.getLast?_eq_some_iff.mp hget
                rw [hfront] at hlast
                simpa using hlast
      · exact absurd hhit hmiss
  · rw [if_neg hhit, statusResult_inj, statusResult_inj]
    constructor
    · rintro ⟨hsync, _⟩
      refine Or.inr ⟨hhit, ?_⟩
      cases hget : (decisions request pipes).getLast? with
      | none => simp [hget] at hsync
      | some decision =>
          cases decision with
          | none => simp [hget] at hsync
          | some status => simpa [hget] using hsync
    · rintro (hlast | ⟨_, hlast⟩)
      · exact absurd (hkept .success (by rw [hlast]; rfl) (by decide)) hhit
      · refine ⟨by rw [hlast]; rfl, ?_⟩
        obtain ⟨front, hfront⟩ := List.getLast?_eq_some_iff.mp hlast
        rw [hfront]
        simp

/-- The pipes in another order: the same decisions, in another order. -/
theorem decisions_perm (request : TraceDumpRequest) {order pipes : List CachePipe}
    (hperm : order.Perm pipes) :
    (decisions request order).Perm (decisions request pipes) :=
  hperm.map _

theorem exists_order_last {pipes : List CachePipe} {pipe : CachePipe}
    (hmem : pipe ∈ pipes) : ∃ front, (front ++ [pipe]).Perm pipes :=
  ⟨pipes.erase pipe, (List.perm_append_singleton _ _).trans
    (List.perm_cons_erase hmem).symm⟩

/-- Every processor can be the last one. -/
theorem decision_of_every_order {request : TraceDumpRequest} {pipes : List CachePipe}
    (hevery : ∀ order : List CachePipe, order.Perm pipes → LastDecides request order)
    {pipe : CachePipe} (hmem : pipe ∈ pipes) :
    pagesDecide request pipe.pages = some .success ∨
      (pagesDecide request pipe.pages = none ∧ some .success ∈ decisions request pipes) ∨
      (pagesDecide request pipe.pages = some .outOfTime ∧
        some .success ∉ decisions request pipes) := by
  obtain ⟨front, hperm⟩ := exists_order_last hmem
  have hdecisions := decisions_perm request hperm
  have hconcat : decisions request (front ++ [pipe]) =
      decisions request front ++ [pagesDecide request pipe.pages] := by
    simp [decisions]
  have horder := hevery _ hperm
  rw [LastDecides, hdecisions.mem_iff, hconcat] at horder
  rcases pagesDecide_cases request pipe.pages with hdecide | hdecide | hdecide
  · refine Or.inr (Or.inl ⟨hdecide, ?_⟩)
    rw [hdecide] at horder hconcat
    rcases horder with hget | ⟨_, hget⟩
    · have hfront := List.mem_of_getLast? hget
      rw [← hdecisions.mem_iff, hconcat]
      simpa using hfront
    · simp at hget
  · refine Or.inr (Or.inr ⟨hdecide, ?_⟩)
    rw [hdecide] at horder
    rcases horder with hget | ⟨hmiss, _⟩
    · simp at hget
    · exact hmiss
  · exact Or.inl hdecide

theorem lastDecides_of_success {request : TraceDumpRequest} {pipes : List CachePipe}
    (hhit : some .success ∈ decisions request pipes)
    (hlate : some .outOfTime ∉ decisions request pipes) : LastDecides request pipes := by
  refine Or.inl ?_
  have hmem : .success ∈ (decisions request pipes).filterMap id := by
    simpa using hhit
  obtain ⟨last, hget⟩ := List.getLast?_isSome.mpr (List.ne_nil_of_mem hmem) |>
    Option.isSome_iff_exists.mp
  have hlast : some last ∈ decisions request pipes := by
    simpa using List.mem_of_getLast? hget
  rcases mem_decisions hlast with hnone | hout | hsuccess
  · cases hnone
  · rw [hout] at hlast
    exact absurd hlast hlate
  · rw [hget, hsuccess]

theorem lastDecides_of_late {request : TraceDumpRequest} {pipes : List CachePipe}
    (hnonempty : pipes ≠ [])
    (hall : ∀ decision ∈ decisions request pipes, decision = some .outOfTime) :
    LastDecides request pipes := by
  refine Or.inr ⟨?_, ?_⟩
  · intro hhit
    exact absurd (hall _ hhit) (by decide)
  · have hne : decisions request pipes ≠ [] := by
      simpa [decisions] using hnonempty
    obtain ⟨last, hget⟩ := Option.isSome_iff_exists.mp (List.getLast?_isSome.mpr hne)
    rw [hget, hall last (List.mem_of_getLast? hget)]

theorem lastDecides_every_order_iff (request : TraceDumpRequest)
    (pipes : List CachePipe) :
    (∀ order : List CachePipe, order.Perm pipes → LastDecides request order) ↔
      (some .success ∈ decisions request pipes ∧
          some .outOfTime ∉ decisions request pipes) ∨
        (pipes ≠ [] ∧
          ∀ decision ∈ decisions request pipes, decision = some .outOfTime) := by
  constructor
  · intro hevery
    have hnonempty : pipes ≠ [] := by
      rintro rfl
      rcases hevery [] (List.Perm.refl _) with hget | ⟨_, hget⟩
      · cases hget
      · cases hget
    by_cases hhit : some .success ∈ decisions request pipes
    · refine Or.inl ⟨hhit, ?_⟩
      intro hlate
      obtain ⟨pipe, hmem, hdecide⟩ := List.mem_map.mp hlate
      rcases decision_of_every_order hevery hmem with hother | ⟨hother, _⟩ | ⟨_, hmiss⟩
      · exact absurd (hother.symm.trans hdecide) (by decide)
      · exact absurd (hother.symm.trans hdecide) (by decide)
      · exact hmiss hhit
    · refine Or.inr ⟨hnonempty, ?_⟩
      intro decision hdecision
      obtain ⟨pipe, hmem, rfl⟩ := List.mem_map.mp hdecision
      rcases decision_of_every_order hevery hmem with hother | ⟨_, hother⟩ | ⟨hlate, _⟩
      · exact absurd (hother ▸ hdecision) hhit
      · exact absurd hother hhit
      · exact hlate
  · rintro (⟨hhit, hlate⟩ | ⟨hnonempty, hall⟩) order hperm
    · have hdecisions := decisions_perm request hperm
      apply lastDecides_of_success
      · exact hdecisions.mem_iff.mpr hhit
      · rw [hdecisions.mem_iff]
        exact hlate
    · have hdecisions := decisions_perm request hperm
      apply lastDecides_of_late
      · rintro rfl
        exact hnonempty hperm.nil_eq.symm
      · intro decision hmem
        exact hall decision (hdecisions.mem_iff.mp hmem)

/-- The status is the documented one exactly when the last processor that decides
contributes, or none does and the last one starts past the window; it is the
documented one in every order exactly when the processors do not contradict each
other. -/
theorem dump_status_documented_iff (request : TraceDumpRequest)
    {pipes : List CachePipe} (hserved : Served pipes) {io : TraceIo}
    (hready : io.Ready) (taskBuffers : Multimap UInt64 BufferBlock) :
    (StatusDocumented request pipes io taskBuffers ↔ LastDecides request pipes) ∧
      ((∀ order : List CachePipe, order.Perm pipes →
          StatusDocumented request order io taskBuffers) ↔
        (some .success ∈ decisions request pipes ∧
            some .outOfTime ∉ decisions request pipes) ∨
          (pipes ≠ [] ∧
            ∀ decision ∈ decisions request pipes, decision = some .outOfTime)) := by
  refine ⟨statusDocumented_iff request hserved hready taskBuffers, ?_⟩
  rw [← lastDecides_every_order_iff]
  have hiff : ∀ order : List CachePipe, order.Perm pipes →
      (StatusDocumented request order io taskBuffers ↔ LastDecides request order) := by
    intro order hperm
    have horder : Served order := fun pipe hmem => hserved pipe (hperm.mem_iff.mp hmem)
    exact statusDocumented_iff request horder hready taskBuffers
  constructor
  · exact fun hevery order hperm => (hiff order hperm).mp (hevery order hperm)
  · exact fun hevery order hperm => (hiff order hperm).mpr (hevery order hperm)

/-- A pipe whose single page is of the given time, with the blocks it needs. -/
def pipeAt (time : UInt8) : CachePipe where
  opens := true
  pages := [pageAt time]
  grants := [true, true]

def traceFileIo : TraceIo where
  traceFilePath := ['t']
  fdValid := true

theorem dump_status_documented_iff_two_cpus :
    StatusDocumented { traceStartTime := 5, traceEndTime := 8 } [pipeAt 6, pipeAt 3]
        traceFileIo ∅ ∧
      StatusDocumented { traceStartTime := 5, traceEndTime := 8 } [pipeAt 3, pipeAt 6]
        traceFileIo ∅ := by
  have hserved : Served [pipeAt 6, pipeAt 3] :=
    List.forall_mem_cons.mpr ⟨⟨rfl, rfl⟩, by simp [pipeAt, CachePipe.granted]⟩
  have hready : traceFileIo.Ready := ⟨by decide, rfl, rfl, rfl, rfl⟩
  have hall := (dump_status_documented_iff { traceStartTime := 5, traceEndTime := 8 }
    hserved hready ∅).2.mpr
    (Or.inl ⟨by decide, by decide⟩)
  exact ⟨hall _ (List.Perm.refl _), hall _ (List.Perm.swap _ _ _)⟩

theorem last_cpu_overrides_status :
    ¬ ∀ (request : TraceDumpRequest) (pipes : List CachePipe) (io : TraceIo)
      (taskBuffers : Multimap UInt64 BufferBlock), Served pipes → io.Ready →
        StatusDocumented request pipes io taskBuffers := by
  intro hdocumented
  have hserved : Served [pipeAt 6, pipeAt 9] :=
    List.forall_mem_cons.mpr ⟨⟨rfl, rfl⟩, by simp [pipeAt, CachePipe.granted]⟩
  have hready : traceFileIo.Ready := ⟨by decide, rfl, rfl, rfl, rfl⟩
  have hlate := hdocumented { traceStartTime := 5, traceEndTime := 8 } _ _ ∅ hserved
    hready
  rw [statusDocumented_iff _ hserved hready] at hlate
  revert hlate
  unfold LastDecides
  decide

end CpuRaw

end Hitrace
