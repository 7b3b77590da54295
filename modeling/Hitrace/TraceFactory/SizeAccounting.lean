import Hitrace.TraceFactory.CaptureAgreement
import Hitrace.TraceFactory.Framing

namespace Hitrace

open Library TraceContent CpuRaw

/-! The count of the bytes that went into the file. -/

namespace Segment

theorem length_le_write (segment : Segment) (file : PosixFile) :
    file.content.length ≤ (segment.write file).content.length := by
  cases hplaceholder : segment.placeholder with
  | none =>
      simp only [write, hplaceholder, PosixFile.seek_content]
      exact (PosixFile.length_le_seek_write ..).trans
        (PosixFile.length_le_seek_write ..)
  | some length =>
      simp only [write, hplaceholder, PosixFile.seek_content]
      exact (PosixFile.length_le_write ..).trans ((PosixFile.length_le_write ..).trans
        (PosixFile.length_le_seek_write ..))

/-- A segment is in the file with all its bytes, wherever its header went. -/
theorem grown_le_write (segment : Segment) {file : PosixFile} (hend : file.AtEnd) :
    file.content.length + segment.bytes.length ≤
      (segment.write file).content.length := by
  cases hplaceholder : segment.placeholder with
  | none =>
      rw [write_of_none hend hplaceholder, PosixFile.append, List.length_append]
  | some length =>
      have hstored : ((file.write (TraceFileContentHeader.bytes
          ⟨segment.type, length⟩)).write segment.payload).content.length =
            file.content.length + segment.bytes.length := by
        rw [hend.write, (hend.append _).write, PosixFile.append, PosixFile.append,
          length_bytes]
        simp only [List.length_append, TraceFileContentHeader.length_bytes,
          Nat.add_assoc]
      simp only [write, hplaceholder, PosixFile.seek_content]
      rw [← hstored]
      exact PosixFile.length_le_seek_write ..

end Segment

theorem length_le_writeSegments (segments : List Segment) (file : PosixFile) :
    file.content.length ≤ (writeSegments segments file).content.length := by
  induction segments generalizing file with
  | nil => exact Nat.le_refl _
  | cons segment rest ih => exact (segment.length_le_write file).trans (ih _)

/-- In a file that grows by less than 2 GiB every segment fits. -/
theorem fits_of_grown {segments : List Segment} {file : PosixFile}
    (hend : file.AtEnd)
    (hgrown : (writeSegments segments file).content.length <
      file.content.length + 2 ^ 31) :
    ∀ segment ∈ segments, segment.Fits := by
  induction segments generalizing file with
  | nil => exact fun _ hmem => absurd hmem List.not_mem_nil
  | cons segment rest ih =>
      have hstored := segment.grown_le_write hend
      have hrest := length_le_writeSegments rest (segment.write file)
      rw [writeSegments_cons] at hgrown
      rw [segment.length_bytes] at hstored
      have hfits : segment.Fits := by
        rw [Segment.Fits]
        split
        · omega
        · omega
      have hlength : (file.append segment.bytes).content.length =
          file.content.length + segment.bytes.length := List.length_append
      rw [segment.write_of_fits hend hfits] at hgrown
      refine List.forall_mem_cons.mpr ⟨hfits, ih (hend.append segment.bytes) ?_⟩
      omega

theorem toInt_add_ofNat {size : Int32} {bytes : Nat} (hsize : 0 ≤ size.toInt)
    (hsum : size.toInt + bytes < 2 ^ 31) :
    (size + Int32.ofNat bytes).toInt = size.toInt + bytes := by
  have hbytes : (Int32.ofNat bytes).toInt = bytes := by
    apply Int32.toInt_ofNat_of_lt
    omega
  rw [Int32.toInt_add, hbytes]
  apply Int.bmod_eq_of_le
  · omega
  · omega

theorem sizeAfter_toInt (segments : List Segment) {size : Int32}
    (hsize : 0 ≤ size.toInt)
    (hsum : size.toInt + (encodeSegments segments).length < 2 ^ 31) :
    (sizeAfter segments size).toInt =
      size.toInt + (encodeSegments segments).length := by
  induction segments generalizing size with
  | nil => exact (Int.add_zero _).symm
  | cons segment rest ih =>
      rw [encodeSegments, List.flatMap_cons, List.length_append,
        segment.length_bytes] at hsum
      rw [encodeSegments, List.flatMap_cons, List.length_append,
        segment.length_bytes]
      have hfirst := toInt_add_ofNat
        (show 0 ≤ size.toInt from hsize)
        (show size.toInt + ((contentHeaderSize + segment.payload.length : Nat) : Int) <
          2 ^ 31 by omega)
      have hrest := ih (show 0 ≤ (size + Int32.ofNat
        (contentHeaderSize + segment.payload.length)).toInt by omega) (by
          rw [hfirst, encodeSegments]
          omega)
      rw [hfirst] at hrest
      rw [sizeAfter, List.foldl_cons]
      rw [sizeAfter, encodeSegments] at hrest
      omega

/-- Since the count was reset the file has grown from `base` bytes by what is
counted. -/
structure Accounts (base : Nat) (io : TraceIo) : Prop where
  writable : io.Writable
  atEnd : io.file.AtEnd
  size : io.outputFileSize.toInt + base = io.file.content.length
  grown : base ≤ io.file.content.length

theorem Counted.accounts {segments : List Segment} {io next : TraceIo} {base : Nat}
    (hcounted : Counted segments io next) (haccounts : Accounts base io)
    (hsmall : next.file.content.length < base + 2 ^ 31) : Accounts base next := by
  obtain ⟨hwritable, hend, hsize, hgrown⟩ := haccounts
  rw [hcounted.file] at hsmall
  have hfits : ∀ segment ∈ segments, segment.Fits := fits_of_grown hend (by omega)
  have hcontent := writeSegments_of_fits hend hfits
  rw [hcontent, List.length_append] at hsmall
  have htotal := sizeAfter_toInt segments
    (show 0 ≤ io.outputFileSize.toInt by omega) (by omega)
  refine ⟨hcounted.writable, ?_, ?_, ?_⟩
  · rw [hcounted.file]
    exact writeSegments_atEnd hend hfits
  · rw [hcounted.file, hcontent, hcounted.size, htotal, List.length_append]
    omega
  · rw [hcounted.file, hcontent, List.length_append]
    omega

/-! Whole sequences of writers. -/

namespace SegmentWrite

/-- `saved_cmdlines` opens, or there is no process line to write. -/
def KeepsBytes : SegmentWrite → Prop
  | .cmdLines (.kernel none) processes => keptLines (processes.getD []) 0 = []
  | _ => True

theorem KeepsBytes.not_losesByte {write : SegmentWrite} (hkeeps : write.KeepsBytes)
    (io : TraceIo) : ¬ write.LosesByte io := by
  intro hloses
  match write, hkeeps, hloses with
  | .cmdLines (.kernel none) _, hkept, ⟨_, hlines⟩ => exact hlines hkept

end SegmentWrite

theorem writeContents_accounts (isHm : Bool) {writes : List SegmentWrite}
    (hindexed : ∀ write ∈ writes, write.Indexed)
    (hkeeps : ∀ write ∈ writes, write.KeepsBytes) {base : Nat} {io : TraceIo}
    (haccounts : Accounts base io)
    (hsmall : ∀ before, before <+: writes →
      (writeContents isHm before io).file.content.length < base + 2 ^ 31) :
    Accounts base (writeContents isHm writes io) := by
  induction writes generalizing io with
  | nil => exact haccounts
  | cons write rest ih =>
      obtain ⟨hfirst, hindexed⟩ := List.forall_mem_cons.mp hindexed
      obtain ⟨hkeep, hkeeps⟩ := List.forall_mem_cons.mp hkeeps
      have hcounted : Counted (write.written isHm io) io
          (write.writeTraceContent isHm io) :=
        SegmentWrite.writeTraceContent_counted hfirst (hkeep.not_losesByte io)
          haccounts.writable haccounts.atEnd
      have hone := hsmall [write] (List.cons_prefix_cons.mpr ⟨rfl, List.nil_prefix⟩)
      refine ih hindexed hkeeps (hcounted.accounts haccounts hone) ?_
      intro before hbefore
      exact hsmall (write :: before) (List.cons_prefix_cons.mpr ⟨rfl, hbefore⟩)

/-! The rounds of one pipe. -/

namespace CpuRaw

/-- What is written round by round when nothing but the window and the page check
ends the capture; `buffer` is what the current round has gathered. -/
def roundChunks (isHm : Bool) (request : TraceDumpRequest) :
    List RawPage → List UInt8 → Nat → Bool → List (List UInt8)
  | [], buffer, _, _ =>
      if buffer.length ≤ bufferSize - pageSize then [buffer] else [buffer, []]
  | page :: rest, buffer, pageChkFailedTime, printFirstPageTime =>
      let full := !decide (buffer.length ≤ bufferSize - pageSize)
      let gathered := if full then [] else buffer
      (if full then [buffer] else []) ++
        match pageValid request page with
        | .late => [gathered ++ if printFirstPageTime then page.bytes else []]
        | .early =>
            roundChunks isHm request rest gathered pageChkFailedTime
              printFirstPageTime
        | .hit =>
            let pageChkFailedTime :=
              failedTime isHm page.pageHeaderSize pageChkFailedTime
            if pageChkFailedTime ≥ 2 then [gathered ++ page.bytes]
            else
              roundChunks isHm request rest (gathered ++ page.bytes)
                pageChkFailedTime true

/-- Rounds are written one after the other until one of them reaches the limit:
the bytes written, and whether it was reached. -/
def writeRounds (reaches : Nat → Bool) : List (List UInt8) → Nat → List UInt8 × Bool
  | [], _ => ([], false)
  | chunk :: rest, written =>
      if reaches (written + chunk.length) then (chunk, true)
      else
        let (bytes, reached) := writeRounds reaches rest (written + chunk.length)
        (chunk ++ bytes, reached)

theorem writeRounds_reached {reaches : Nat → Bool} {chunk : List UInt8}
    {written : Nat} (hreached : reaches (written + chunk.length) = true)
    (rest : List (List UInt8)) :
    writeRounds reaches (chunk :: rest) written = (chunk, true) := by
  rw [writeRounds, hreached, if_pos rfl]

theorem writeRounds_goes {reaches : Nat → Bool} {chunk : List UInt8} {written : Nat}
    (hgoes : reaches (written + chunk.length) = false) (rest : List (List UInt8)) :
    writeRounds reaches (chunk :: rest) written =
      (chunk ++ (writeRounds reaches rest (written + chunk.length)).1,
        (writeRounds reaches rest (written + chunk.length)).2) := by
  rw [writeRounds, hgoes, if_neg Bool.false_ne_true]

theorem roundChunks_full (isHm : Bool) (request : TraceDumpRequest)
    (pages : List RawPage) {buffer : List UInt8}
    (hfull : ¬ buffer.length ≤ bufferSize - pageSize) (failed : Nat) (print : Bool) :
    roundChunks isHm request pages buffer failed print =
      buffer :: roundChunks isHm request pages [] failed print := by
  cases pages with
  | nil =>
      rw [roundChunks, if_neg hfull]
      rfl
  | cons page rest =>
      rw [roundChunks, decide_eq_false hfull]
      rfl

theorem roundChunks_room (isHm : Bool) (request : TraceDumpRequest) (page : RawPage)
    (rest : List RawPage) {buffer : List UInt8}
    (hroom : buffer.length ≤ bufferSize - pageSize) (failed : Nat) (print : Bool) :
    roundChunks isHm request (page :: rest) buffer failed print =
      match pageValid request page with
      | .late => [buffer ++ if print then page.bytes else []]
      | .early => roundChunks isHm request rest buffer failed print
      | .hit =>
          if failedTime isHm page.pageHeaderSize failed ≥ 2 then
            [buffer ++ page.bytes]
          else
            roundChunks isHm request rest (buffer ++ page.bytes)
              (failedTime isHm page.pageHeaderSize failed) true := by
  rw [roundChunks, decide_eq_true hroom]
  rfl

def PipeState.chunks (isHm : Bool) (request : TraceDumpRequest)
    (pages : List RawPage) (state : PipeState) : List (List UInt8) :=
  roundChunks isHm request pages state.buffer state.pageChkFailedTime
    state.printFirstPageTime

def reachesLimit (request : TraceDumpRequest) (outputFileSize : Int32)
    (written : Nat) : Bool :=
  overflows request outputFileSize written

/-- The pipe has gone on from `start` by these rounds. -/
structure RoundsWritten (request : TraceDumpRequest) (chunks : List (List UInt8))
    (written : Nat) (start final : PipeState) : Prop where
  put : PipePut start (writeRounds (reachesLimit request start.io.outputFileSize)
    chunks written).1 final
  overflow : final.isOverFlow = (start.isOverFlow ||
    (writeRounds (reachesLimit request start.io.outputFileSize) chunks written).2)

theorem RoundsWritten.of_same {request : TraceDumpRequest}
    {chunks : List (List UInt8)} {written : Nat} {start other final : PipeState}
    (hrounds : RoundsWritten request chunks written other final)
    (hio : other.io = start.io) (hwriteLen : other.writeLen = start.writeLen)
    (hoverflow : other.isOverFlow = start.isOverFlow) :
    RoundsWritten request chunks written start final := by
  obtain ⟨hput, hover⟩ := hrounds
  rw [hio] at hput hover
  exact ⟨hput.of_same hio hwriteLen, hoverflow ▸ hover⟩

theorem flush_reaches (request : TraceDumpRequest) {state : PipeState}
    (hwritable : state.io.Writable) {written : Nat}
    (hwritten : state.writeLen = written) :
    (state.flush request).1 = reachesLimit request state.io.outputFileSize
        (written + state.buffer.length) ∧
      (state.flush request).2.isOverFlow = (state.isOverFlow ||
        reachesLimit request state.io.outputFileSize
          (written + state.buffer.length)) := by
  have hreaches : (state.flush request).1 = reachesLimit request
      state.io.outputFileSize (written + state.buffer.length) := by
    rw [(state.flush_put request hwritable).1, hwritten, reachesLimit,
      Int.natCast_add]
  exact ⟨hreaches, hreaches ▸ rfl⟩

/-- The round with which the loop ends. -/
theorem flush_rounds (request : TraceDumpRequest) {state : PipeState}
    (hwritable : state.io.Writable) {written : Nat}
    (hwritten : state.writeLen = written) :
    RoundsWritten request [state.buffer] written state (state.flush request).2 := by
  have hput := (state.flush_put request hwritable).2
  have hraised := (flush_reaches request hwritable hwritten).2
  cases hreached : reachesLimit request state.io.outputFileSize
      (written + state.buffer.length) with
  | true =>
      have hround := writeRounds_reached hreached []
      refine ⟨?_, ?_⟩
      · rw [hround]
        exact hput
      · rw [hround, hraised, hreached]
  | false =>
      have hround := writeRounds_goes hreached []
      refine ⟨?_, ?_⟩
      · rw [hround, writeRounds, List.append_nil]
        exact hput
      · rw [hround, hraised, hreached]
        rfl

theorem rounds_of_room {isHm : Bool} {request : TraceDumpRequest}
    {pages : List RawPage}
    (hopen : ∀ (state : PipeState) (written : Nat), state.io.Writable →
      state.writeLen = written → state.buffer.length ≤ bufferSize - pageSize →
        RoundsWritten request (state.chunks isHm request pages) written state
          (writeTracePipeRawLoop isHm request pages state))
    {state : PipeState} {written : Nat} (hwritable : state.io.Writable)
    (hwritten : state.writeLen = written) :
    RoundsWritten request (state.chunks isHm request pages) written state
      (writeTracePipeRawLoop isHm request pages state) := by
  by_cases hroom : state.buffer.length ≤ bufferSize - pageSize
  · exact hopen state written hwritable hwritten hroom
  · have hput := (state.flush_put request hwritable).2
    obtain ⟨hreaches, hraised⟩ := flush_reaches request hwritable hwritten
    rw [writeTracePipeRawLoop_full isHm request pages hroom, hreaches,
      PipeState.chunks, roundChunks_full isHm request pages hroom]
    cases hreached : reachesLimit request state.io.outputFileSize
        (written + state.buffer.length) with
    | true =>
        rw [if_pos rfl]
        refine ⟨?_, ?_⟩
        · rw [writeRounds_reached hreached]
          exact hput
        · rw [writeRounds_reached hreached, hraised, hreached]
    | false =>
        have hnext : (state.flush request).2.writeLen =
            ((written + state.buffer.length : Nat) : Int) := by
          rw [hput.writeLen, hwritten, Int.natCast_add]
        have hflushed : (state.flush request).2.io.Writable := by
          rw [hput.io]
          exact hwritable.put _
        have hsize : (state.flush request).2.io.outputFileSize =
            state.io.outputFileSize := by
          rw [hput.io]
          rfl
        obtain ⟨hrestPut, hrestOver⟩ := hopen _ _ hflushed hnext (Nat.zero_le _)
        rw [hsize] at hrestPut hrestOver
        rw [if_neg Bool.false_ne_true]
        refine ⟨?_, ?_⟩
        · rw [writeRounds_goes hreached]
          exact hput.trans hrestPut
        · rw [writeRounds_goes hreached, hrestOver, hraised, hreached, Bool.or_false]
          rfl

theorem writeTracePipeRawLoop_rounds (isHm : Bool) (request : TraceDumpRequest)
    (pages : List RawPage) {state : PipeState} {written : Nat}
    (hwritable : state.io.Writable) (hwritten : state.writeLen = written) :
    RoundsWritten request (state.chunks isHm request pages) written state
      (writeTracePipeRawLoop isHm request pages state) := by
  induction pages generalizing state written with
  | nil =>
      refine rounds_of_room ?_ hwritable hwritten
      intro state written hwritable hwritten hroom
      have hflush : state.flushFull request = (false, state) := if_pos hroom
      have hchunks : state.chunks isHm request [] = [state.buffer] := if_pos hroom
      have hlast : (state.setDumpStatus .success).writeLen = written := hwritten
      have hio : (state.setDumpStatus .success).io.Writable := hwritable
      rw [writeTracePipeRawLoop, hflush, hchunks]
      exact (flush_rounds request hio hlast).of_same rfl rfl rfl
  | cons page rest ih =>
      refine rounds_of_room ?_ hwritable hwritten
      intro state written hwritable hwritten hroom
      have hflush : state.flushFull request = (false, state) := if_pos hroom
      rw [writeTracePipeRawLoop, hflush, PipeState.chunks,
        roundChunks_room isHm request page rest hroom]
      dsimp only
      cases pageValid request page with
      | late =>
          have hlate : (state.late page).io.Writable := hwritable
          exact (flush_rounds request hlate hwritten).of_same rfl rfl rfl
      | early => exact ih hwritable hwritten
      | hit =>
          have hhit : (state.hit isHm page).io.Writable := hwritable
          have hlen : (state.hit isHm page).writeLen = written := hwritten
          have hfailed : (state.hit isHm page).pageChkFailedTime =
              failedTime isHm page.pageHeaderSize state.pageChkFailedTime := rfl
          dsimp only
          rw [← hfailed]
          split
          · exact (flush_rounds request hhit hlen).of_same rfl rfl rfl
          · exact (ih hhit hlen).of_same rfl rfl rfl

/-- Rounds are written up to the first one after which the limit is reached, and
all of them when there is none. -/
def StopsAtFirst (reaches : Nat → Prop) (chunks : List (List UInt8))
    (payload : List UInt8) (raised : Bool) : Prop :=
  ∃ done, done <+: chunks ∧ payload = done.flatten ∧
    (∀ early, early <+: done → early ≠ [] → early ≠ done →
      ¬ reaches early.flatten.length) ∧
    (raised = true ↔ reaches payload.length) ∧ (raised = false → done = chunks)

theorem writeRounds_stopsAtFirst (reaches : Nat → Prop) {limit : Nat → Bool}
    {chunks : List (List UInt8)} (hchunks : chunks ≠ []) (written : Nat)
    (hlimit : ∀ bytes, limit (written + bytes) = true ↔ reaches bytes) :
    StopsAtFirst reaches chunks (writeRounds limit chunks written).1
      (writeRounds limit chunks written).2 := by
  induction chunks generalizing written reaches with
  | nil => exact absurd rfl hchunks
  | cons chunk rest ih =>
      have hone : ∀ early : List (List UInt8), early <+: [chunk] → early ≠ [] →
          early = [chunk] := by
        intro early hearly hnonempty
        exact hearly.eq_of_length (Nat.le_antisymm hearly.length_le
          (List.length_pos_of_ne_nil hnonempty))
      have hfirst := hlimit chunk.length
      cases hreached : limit (written + chunk.length) with
      | true =>
          rw [writeRounds_reached hreached]
          refine ⟨[chunk], List.cons_prefix_cons.mpr ⟨rfl, List.nil_prefix⟩, ?_, ?_, ?_,
            ?_⟩
          · exact (List.append_nil _).symm
          · intro early hearly hnonempty hshort
            exact absurd (hone early hearly hnonempty) hshort
          · exact iff_of_true rfl (hfirst.mp hreached)
          · intro hfalse
            cases hfalse
      | false =>
          have hnot : ¬ reaches chunk.length := by
            intro hreaches
            rw [hfirst.mpr hreaches] at hreached
            cases hreached
          rw [writeRounds_goes hreached]
          by_cases hrest : rest = []
          · rw [hrest, writeRounds, List.append_nil]
            refine ⟨[chunk], List.prefix_rfl, (List.append_nil _).symm, ?_, ?_, ?_⟩
            · intro early hearly hnonempty hshort
              exact absurd (hone early hearly hnonempty) hshort
            · exact iff_of_false Bool.false_ne_true hnot
            · exact fun _ => rfl
          · obtain ⟨done, hdone, hpayload, hearly, hraised, hall⟩ :=
              ih (fun bytes => reaches (chunk.length + bytes)) hrest
                (written + chunk.length)
                (fun bytes => by rw [Nat.add_assoc]; exact hlimit _)
            refine ⟨chunk :: done, List.cons_prefix_cons.mpr ⟨rfl, hdone⟩, ?_, ?_, ?_,
              ?_⟩
            · rw [hpayload, List.flatten_cons]
            · intro early hprefixed hnonempty hshort
              cases early with
              | nil => exact absurd rfl hnonempty
              | cons head tail =>
                  obtain ⟨rfl, htail⟩ := List.cons_prefix_cons.mp hprefixed
                  rw [List.flatten_cons, List.length_append]
                  by_cases htailNil : tail = []
                  · rw [htailNil]
                    exact hnot
                  · exact hearly tail htail htailNil
                      (fun hsame => hshort (congrArg (head :: ·) hsame))
            · rw [List.length_append]
              exact hraised
            · intro hfalse
              rw [hall hfalse]

theorem roundChunks_ne_nil (isHm : Bool) (request : TraceDumpRequest)
    (pages : List RawPage) (buffer : List UInt8) (failed : Nat) (print : Bool) :
    roundChunks isHm request pages buffer failed print ≠ [] := by
  induction pages generalizing buffer failed print with
  | nil =>
      rw [roundChunks]
      split
      · exact List.cons_ne_nil _ _
      · exact List.cons_ne_nil _ _
  | cons page rest ih =>
      rw [roundChunks]
      apply List.append_ne_nil_of_right_ne_nil
      cases pageValid request page with
      | late => exact List.cons_ne_nil _ _
      | early => exact ih _ _ _
      | hit =>
          dsimp only
          split
          · exact List.cons_ne_nil _ _
          · exact ih _ _ _

/-- All the rounds together hold what a capture without a limit takes. -/
theorem flatten_roundChunks (isHm : Bool) (request : TraceDumpRequest)
    (pages : List RawPage) (buffer : List UInt8) (failed : Nat) (print : Bool) :
    (roundChunks isHm request pages buffer failed print).flatten =
      buffer ++ takenBytes isHm request pages failed print := by
  induction pages generalizing buffer failed print with
  | nil =>
      rw [roundChunks]
      split
      · simp [takenBytes]
      · simp [takenBytes]
  | cons page rest ih =>
      by_cases hroom : buffer.length ≤ bufferSize - pageSize
      · rw [roundChunks_room isHm request page rest hroom, takenBytes]
        cases pageValid request page with
        | late => simp
        | early => exact ih _ _ _
        | hit =>
            dsimp only
            split
            · simp
            · rw [ih, List.append_assoc]
      · have hempty : ([] : List UInt8).length ≤ bufferSize - pageSize :=
          Nat.zero_le _
        rw [roundChunks_full isHm request _ hroom, List.flatten_cons,
          roundChunks_room isHm request page rest hempty, takenBytes]
        cases pageValid request page with
        | late => simp
        | early => rw [ih, List.nil_append]
        | hit =>
            dsimp only
            split
            · simp
            · rw [ih, List.nil_append]

/-- The limit of the file size is in force. -/
def Limited (request : TraceDumpRequest) : Prop :=
  (request.type = .traceRecording ∨ request.type = .traceCache) ∧
    request.limitFileSz = true

def fileSizeThreshold (request : TraceDumpRequest) : Int :=
  if request.fileSize ≠ 0 then request.fileSize else defaultFileSize * kbPerMb

/-- With `earlier` bytes of segments in the file, and the header of this one,
so many bytes of payload reach the threshold. -/
def ReachesThreshold (request : TraceDumpRequest) (earlier bytes : Nat) : Prop :=
  fileSizeThreshold request ≤ contentHeaderSize + earlier + bytes

/-- One more round might bring the length of the payload past `INT_MAX`. -/
def NearlyOverflows (bytes : Nat) : Prop := intMax - bufferSize < bytes

theorem reachesLimit_iff {request : TraceDumpRequest} (hlimited : Limited request)
    {size : Int32} {earlier : Nat} (hsize : size.toInt = earlier) (bytes : Nat) :
    reachesLimit request size bytes = true ↔
      ReachesThreshold request earlier bytes ∨ NearlyOverflows bytes := by
  obtain ⟨htype, hlimit⟩ := hlimited
  have hchecked : ¬ ((request.type ≠ .traceRecording ∧ request.type ≠ .traceCache) ∨
      request.limitFileSz = false) := by
    rintro (⟨hrecording, hcache⟩ | hoff)
    · rcases htype with his | his
      · exact hrecording his
      · exact hcache his
    · rw [hlimit] at hoff
      cases hoff
  rw [reachesLimit, overflows, isWriteFileOverflow, if_neg hchecked, hsize,
    ReachesThreshold, NearlyOverflows, ← fileSizeThreshold]
  split
  · next hreaches =>
      refine iff_of_true rfl (Or.inl ?_)
      omega
  · next hbelow =>
      rw [decide_eq_true_iff]
      constructor
      · exact Or.inr
      · rintro (hreaches | hnear)
        · omega
        · exact hnear

/-- The pipe is written round by round up to the first one after which the limit
is reached; that round raises `isOverFlow_`, and none before it does. -/
def RaisesAtFirst (isHm : Bool) (request : TraceDumpRequest) (pipe : RawPipe)
    (cpuIdx : Nat) (content : RawContent) (reaches : Nat → Prop) : Prop :=
  ∃ next payload raised,
    writeTracePipeRawData isHm request pipe cpuIdx content = (true, next) ∧
    next.io.file = writeSegments
      [⟨ContentType.cpuRaw + UInt8.ofNat cpuIdx, payload, some 0⟩]
        content.io.file ∧
    next.isOverFlow = (content.isOverFlow || raised) ∧
    StopsAtFirst reaches (roundChunks isHm request pipe.pages [] 0 false) payload
      raised

theorem writeTracePipeRawData_raises (isHm : Bool) {request : TraceDumpRequest}
    (hlimited : Limited request) {pipe : RawPipe} (hopens : pipe.opens = true)
    (cpuIdx : Nat) {content : RawContent} {base : Nat}
    (haccounts : Accounts base content.io)
    (hfound : content.io.isFileExist.1 = true) :
    RaisesAtFirst isHm request pipe cpuIdx content fun bytes =>
      ReachesThreshold request (content.io.file.content.length - base) bytes ∨
        NearlyOverflows bytes := by
  obtain ⟨hstart, hfile, hsize⟩ := haccounts.writable.isFileExist
  have hexist : content.io.isFileExist = (true, content.io.isFileExist.2) :=
    Prod.ext hfound rfl
  have hearlier : content.io.isFileExist.2.outputFileSize.toInt =
      ((content.io.file.content.length - base : Nat) : Int) := by
    have hcount := haccounts.size
    have hgrown := haccounts.grown
    rw [hsize]
    omega
  generalize content.io.isFileExist.2 = start at hstart hfile hexist hearlier
  obtain ⟨hput, hraised⟩ := writeTracePipeRawLoop_rounds isHm request pipe.pages
    (show (loopStart content start cpuIdx).io.Writable from hstart.put _)
    (show (loopStart content start cpuIdx).writeLen = ((0 : Nat) : Int) from rfl)
  have hstops := writeRounds_stopsAtFirst
    (fun bytes => ReachesThreshold request (content.io.file.content.length - base)
      bytes ∨ NearlyOverflows bytes)
    (roundChunks_ne_nil isHm request pipe.pages [] 0 false) 0
    (fun bytes => by rw [Nat.zero_add]; exact reachesLimit_iff hlimited hearlier bytes)
  obtain ⟨next, hwrite, hio, hflag⟩ := writeTracePipeRawData_of_put hopens hexist hstart hput
  refine ⟨next, _, _, hwrite, ?_, hflag.trans hraised, hstops⟩
  rw [← hfile]
  exact congrArg TraceIo.file hio

end CpuRaw

def resetCurrentFileSize (io : TraceIo) : TraceIo :=
  { io with outputFileSize := 0 }

theorem accounts_reset {io : TraceIo} (hwritable : io.Writable)
    (hend : io.file.AtEnd) :
    Accounts io.file.content.length (resetCurrentFileSize io) := by
  refine ⟨⟨hwritable.valid, hwritable.headerWrites, hwritable.writes⟩, hend, ?_,
    Nat.le_refl _⟩
  exact Int.zero_add _

/-- While less than 2 GiB go into the file since the reset, the count is what went
into it; so a limit on the file size stops a pipe at the first round after which
its header, the segments before it and itself reach the threshold, or after which
the length of the payload comes near to `INT_MAX`. -/
theorem file_size_accounted (isHm : Bool) {writes : List SegmentWrite}
    (hindexed : ∀ write ∈ writes, write.Indexed)
    (hkeeps : ∀ write ∈ writes, write.KeepsBytes) {io : TraceIo}
    (hwritable : io.Writable) (hend : io.file.AtEnd)
    (hsmall : ∀ before, before <+: writes →
      (writeContents isHm before (resetCurrentFileSize io)).file.content.length <
        io.file.content.length + 2 ^ 31) :
    (writeContents isHm writes (resetCurrentFileSize io)).outputFileSize.toInt +
        io.file.content.length =
      (writeContents isHm writes (resetCurrentFileSize io)).file.content.length ∧
    ∀ (request : TraceDumpRequest) (others : List RawPipe) (pipe : RawPipe)
      (content : RawContent), Limited request →
      writePipes isHm request others 0
        { io := writeContents isHm writes (resetCurrentFileSize io) } =
          (true, content) →
      content.io.file.content.length < io.file.content.length + 2 ^ 31 →
      pipe.opens = true → content.io.isFileExist.1 = true →
        RaisesAtFirst isHm request pipe others.length content fun bytes =>
          ReachesThreshold request
              (content.io.file.content.length - io.file.content.length) bytes ∨
            NearlyOverflows bytes := by
  have haccounts := writeContents_accounts isHm hindexed hkeeps
    (accounts_reset hwritable hend) hsmall
  refine ⟨haccounts.size, ?_⟩
  intro request others pipe content hlimited hpipes hbelow hopens hfound
  have hcounted := writePipes_written isHm request others 0
    { io := writeContents isHm writes (resetCurrentFileSize io) } haccounts.writable
  rw [hpipes] at hcounted
  exact writeTracePipeRawData_raises isHm hlimited hopens others.length
    (hcounted.accounts haccounts hbelow) hfound

/-- One thread group is in the file, and two pages are recorded behind it with a
limit of 24 bytes. -/
theorem file_size_accounted_tgids :
    (writeContents false [SegmentWrite.oneTgid]
        (resetCurrentFileSize SegmentWrite.emptyIo)).outputFileSize.toInt = 12 ∧
      RaisesAtFirst false
        { type := .traceRecording, limitFileSz := true, fileSize := 24 }
        ⟨true, [pageAt 3, pageAt 4]⟩ 0
        { io := writeContents false [SegmentWrite.oneTgid]
            (resetCurrentFileSize SegmentWrite.emptyIo) }
        fun bytes => ReachesThreshold
            { type := .traceRecording, limitFileSz := true, fileSize := 24 } 12 bytes ∨
          NearlyOverflows bytes := by
  obtain ⟨hsize, hraises⟩ := file_size_accounted false
    (List.forall_mem_singleton.mpr trivial :
      ∀ write ∈ [SegmentWrite.oneTgid], write.Indexed)
    (List.forall_mem_singleton.mpr trivial)
    (⟨rfl, rfl, rfl⟩ : SegmentWrite.emptyIo.Writable) rfl (by
      intro before hbefore
      rcases List.prefix_cons_iff.mp hbefore with rfl | ⟨tail, rfl, htail⟩
      · decide +kernel
      · rw [List.prefix_nil.mp htail]
        decide +kernel)
  have hlength : (writeContents false [SegmentWrite.oneTgid]
      (resetCurrentFileSize SegmentWrite.emptyIo)).file.content.length = 12 := by
    decide +kernel
  refine ⟨?_, ?_⟩
  · rw [hlength] at hsize
    exact hsize
  · have hpipe := hraises
      { type := .traceRecording, limitFileSz := true, fileSize := 24 } []
      ⟨true, [pageAt 3, pageAt 4]⟩ _ ⟨Or.inl rfl, rfl⟩ rfl (by decide +kernel) rfl
      (by decide +kernel)
    exact hpipe

/-- A full page that lies in every window and passes the check. -/
def onesPage : RawPage where
  bytes := List.replicate pageSize 1
  pageHeaderSize := 4096
  size := by
    rw [List.length_replicate]
    decide

/-- Recorded with a limit of 2097151 KB, the largest that an `int` holds in bytes. -/
def largestLimit : TraceDumpRequest :=
  { type := .traceRecording, limitFileSz := true, fileSize := 2147482624 }

theorem length_takenBytes_ones (count : Nat) (print : Bool) :
    (takenBytes false largestLimit (List.replicate count onesPage) 0 print).length =
      count * 4096 := by
  have hvalid : pageValid largestLimit onesPage = .hit := by decide +kernel
  have hpasses : failedTime false onesPage.pageHeaderSize 0 = 0 := by decide
  have hlength : onesPage.bytes.length = 4096 := List.length_replicate
  induction count generalizing print with
  | zero => rfl
  | succ count ih =>
      rw [List.replicate_succ, takenBytes, hvalid]
      dsimp only
      rw [hpasses, if_neg (by decide), List.length_append, ih, hlength]
      omega

/-- After 2047 rounds of one megabyte the guard against overflow raises the flag,
with the threshold still a round away. -/
theorem nearly_overflow_raises_early :
    ¬ ∀ (isHm : Bool) (writes : List SegmentWrite) (io : TraceIo),
      (∀ write ∈ writes, write.Indexed) → (∀ write ∈ writes, write.KeepsBytes) →
      io.Writable → io.file.AtEnd →
      (∀ before, before <+: writes →
        (writeContents isHm before (resetCurrentFileSize io)).file.content.length <
          io.file.content.length + 2 ^ 31) →
      ∀ (request : TraceDumpRequest) (others : List RawPipe) (pipe : RawPipe)
        (content : RawContent), Limited request →
        writePipes isHm request others 0
          { io := writeContents isHm writes (resetCurrentFileSize io) } =
            (true, content) →
        content.io.file.content.length < io.file.content.length + 2 ^ 31 →
        pipe.opens = true → content.io.isFileExist.1 = true →
          RaisesAtFirst isHm request pipe others.length content
            (ReachesThreshold request
              (content.io.file.content.length - io.file.content.length)) := by
  intro hclaim
  have hwritable : SegmentWrite.emptyIo.Writable := ⟨rfl, rfl, rfl⟩
  have hlimited : Limited largestLimit := ⟨Or.inl rfl, rfl⟩
  let pipe : RawPipe := ⟨true, List.replicate 524032 onesPage⟩
  let content : RawContent := { io := resetCurrentFileSize SegmentWrite.emptyIo }
  have haccounts : Accounts 0 content.io := accounts_reset hwritable rfl
  have hfound : content.io.isFileExist.1 = true := rfl
  obtain ⟨next, payload, raised, hnext, _, hover, done, hdone, hpayload, _, hreach,
    _⟩ := hclaim false [] SegmentWrite.emptyIo (fun _ hmem => absurd hmem
      List.not_mem_nil) (fun _ hmem => absurd hmem List.not_mem_nil) hwritable rfl (by
      intro before hbefore
      rw [List.prefix_nil.mp hbefore]
      decide) largestLimit [] pipe content hlimited rfl (by decide) rfl hfound
  obtain ⟨actual, written, stopped, hactual, _, hactualOver, rounds, _, hwritten, _,
    hstops, hall⟩ := writeTracePipeRawData_raises false hlimited
      (show pipe.opens = true from rfl) 0 haccounts hfound
  have htotal : (roundChunks false largestLimit pipe.pages [] 0
      false).flatten.length = 2146435072 := by
    rw [flatten_roundChunks, List.nil_append, length_takenBytes_ones]
  have hsame : raised = stopped := by
    have hnextActual : next = actual := by
      have hboth := hnext.symm.trans hactual
      exact (Prod.mk.inj hboth).2
    rw [hnextActual, hactualOver] at hover
    exact hover.symm
  have hstopped : stopped = true := by
    by_contra hgoes
    rw [hall (Bool.eq_false_of_not_eq_true hgoes)] at hwritten
    apply hgoes
    have hnear : intMax - bufferSize < ((2146435072 : Nat) : Int) := by decide
    rw [hstops, hwritten, htotal]
    exact Or.inr hnear
  have hreached := hreach.mp (hsame.trans hstopped)
  have hshort : payload.length ≤ 2146435072 := by
    rw [hpayload, ← htotal]
    exact hdone.flatten.length_le
  have hbound : (2147482624 : Int) ≤ ((8 + 0 : Nat) : Int) + payload.length :=
    hreached
  omega

end Hitrace
