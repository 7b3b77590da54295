import Hitrace.TraceFactory.PageCapture
import Hitrace.TraceFactory.SizeAccounting
import Hitrace.TracedumpExecutor.DumpStrategy

namespace Hitrace

open Library TraceContent CpuRaw

/-! The core of `RecordTraceDumpStrategy`, which writes one file of a recording. -/

/-- `WriteTraceContent` of a cpu-raw object, which may have written before. -/
def CpuRaw.writeTraceContent (isHm : Bool) (request : TraceDumpRequest)
    (pipes : List RawPipe) (content : RawContent) : Bool × RawContent :=
  let (written, content) := writePipes isHm request pipes 0 content
  (written && decide (content.status.dumpStatus = .success), content)

namespace CpuRaw

/-! The pages of one pipe under the limit of the file size. -/

section Pages

variable (isHm : Bool) (request : TraceDumpRequest) (outputFileSize : Int32)

end Pages

/-- The segments of a turn that has kept these pages of each pipe. -/
def keptSegments : List (List RawPage) → Nat → List Segment
  | [], _ => []
  | kept :: others, cpuIdx =>
      ⟨ContentType.cpuRaw + UInt8.ofNat cpuIdx, kept.flatMap RawPage.bytes, some 0⟩ ::
        keptSegments others (cpuIdx + 1)

def capturedTurn (isHm : Bool) (request : TraceDumpRequest) (pipes : List RawPipe) :
    List (List RawPage) :=
  pipes.map fun pipe => writtenPages (pageFails isHm) request pipe.pages

/-- Of each pipe the first of the captured pages. -/
def BeginsTurn (isHm : Bool) (request : TraceDumpRequest) (kept : List (List RawPage))
    (pipes : List RawPipe) : Prop :=
  List.Forall₂ (· <+: ·) kept (capturedTurn isHm request pipes)

/-- What was kept of the turn reaches the limit, at one pipe or another. -/
def turnFills (request : TraceDumpRequest) : List (List RawPage) → Int32 → Bool
  | [], _ => false
  | kept :: others, outputFileSize =>
      let payload := kept.flatMap RawPage.bytes
      reachesLimit request outputFileSize payload.length ||
        turnFills request others
          (outputFileSize + Int32.ofNat (contentHeaderSize + payload.length))

theorem beginsTurn_capturedTurn (isHm : Bool) (request : TraceDumpRequest)
    (pipes : List RawPipe) :
    BeginsTurn isHm request (capturedTurn isHm request pipes) pipes :=
  List.forall₂_refl _

end CpuRaw

/-! A whole file of a recording. -/

/-- What is recorded of the turns in a file of which so many bytes are written: all of
each until the recording is stopped, or until one reaches the limit and is cut there. -/
inductive RecordedPages (isHm : Bool) (request : TraceDumpRequest) :
    Int32 → List (List RawPipe) → List (List (List RawPage)) → Prop
  | stopped (outputFileSize : Int32) : RecordedPages isHm request outputFileSize [] []
  | filled {outputFileSize : Int32} {pipes : List RawPipe} {kept : List (List RawPage)}
      (turns : List (List RawPipe)) (hbegins : BeginsTurn isHm request kept pipes)
      (hfills : turnFills request kept outputFileSize = true) :
      RecordedPages isHm request outputFileSize (pipes :: turns) [kept]
  | goesOn {outputFileSize : Int32} {pipes : List RawPipe} {turns : List (List RawPipe)}
      {recorded : List (List (List RawPage))}
      (hroom : turnFills request (capturedTurn isHm request pipes) outputFileSize = false)
      (hrecorded : RecordedPages isHm request
        (sizeAfter (keptSegments (capturedTurn isHm request pipes) 0) outputFileSize) turns
        recorded) :
      RecordedPages isHm request outputFileSize (pipes :: turns)
        (capturedTurn isHm request pipes :: recorded)

/-- What was kept at one time is the beginning of one of the turns. -/
theorem RecordedPages.begins {isHm : Bool} {request : TraceDumpRequest}
    {outputFileSize : Int32} {turns : List (List RawPipe)}
    {recorded : List (List (List RawPage))}
    (hrecorded : RecordedPages isHm request outputFileSize turns recorded) :
    ∀ kept ∈ recorded, ∃ pipes ∈ turns, BeginsTurn isHm request kept pipes := by
  induction hrecorded with
  | stopped => exact List.forall_mem_nil _
  | filled turns hbegins hfills =>
      exact List.forall_mem_singleton.mpr ⟨_, List.mem_cons_self, hbegins⟩
  | goesOn hroom hrecorded ih =>
      refine List.forall_mem_cons.mpr
        ⟨⟨_, List.mem_cons_self, beginsTurn_capturedTurn isHm request _⟩, ?_⟩
      intro kept hkept
      obtain ⟨turn, hturn, hbegins⟩ := ih kept hkept
      exact ⟨turn, List.mem_cons_of_mem _ hturn, hbegins⟩

end Hitrace
