import Hitrace.Library.Loop
import Mathlib.Algebra.Ring.Nat
import Mathlib.Data.Prod.Lex

namespace Hitrace

open Library

/-! `DumpCompressedTrace` of `hitrace_cmd.cpp`, with `deflate` as a parameter. -/

namespace CompressedTrace

def chunkSize : Nat := 65536

inductive DeflateResult
  | zOk
  | zStreamEnd
  | other
deriving Repr, DecidableEq

/-- What a call of `deflate` takes from the front of its input, what it appends to its
output, and its state afterwards. -/
structure Deflated (σ : Type) where
  consumed : Nat
  output : List UInt8
  ret : DeflateResult
  next : σ

/-- `deflate` on its state, the bytes at `next_in`, `avail_out` and whether it is to
finish. -/
abbrev Deflate (σ : Type) := σ → List UInt8 → Nat → Bool → Deflated σ

section Contract

variable {σ : Type}

/-- What zlib promises. `backlog` is the number of bytes that are still to be emitted when
no more input comes. -/
structure Contract (deflate : Deflate σ) (backlog : σ → Bool → Nat) : Prop where
  takes : ∀ state input room finish,
    (deflate state input room finish).consumed ≤ input.length
  fits : ∀ state input room finish, (deflate state input room finish).output.length ≤ room
  emits : ∀ state input room finish, (deflate state input room finish).consumed = 0 →
    backlog (deflate state input room finish).next finish +
      (deflate state input room finish).output.length ≤ backlog state finish
  progress : ∀ state input room finish, 0 < room →
    (input ≠ [] ∨ finish = true ∧ 0 < backlog state finish) →
    0 < (deflate state input room finish).consumed ∨
      (deflate state input room finish).output ≠ []
  succeeds : ∀ state input room finish, 0 < room → (input ≠ [] ∨ finish = true) →
    (deflate state input room finish).ret = .zOk ∨
      finish = true ∧ (deflate state input room finish).ret = .zStreamEnd
  ends : ∀ state input room,
    (deflate state input room true).consumed = input.length →
    backlog (deflate state input room true).next true = 0 →
    (deflate state input room true).ret = .zStreamEnd

end Contract

/-- The locals of the loop, with what was written to `outFd`. `avail_in` is the length of
`nextIn`, and `avail_out` what `out` leaves of the chunk. -/
structure DumpState (σ : Type) where
  zs : σ
  nextIn : List UInt8 := []
  out : List UInt8 := []
  finish : Bool := false
  /-- What `read` will return; no bytes at the end, and nothing for an error. -/
  reads : List (Option (List UInt8))
  outFd : List UInt8 := []

section Dump

-- `accepted` is how many bytes of a request `write` takes, behind what was written before
variable {σ : Type} (deflate : Deflate σ) (accepted : Nat → Nat → Nat)

/-- The input buffer is filled when it is empty, until the end was read. -/
def refill (state : DumpState σ) : Except (DumpState σ) (DumpState σ) :=
  if state.nextIn = [] ∧ state.finish = false then
    match state.reads.headD (some []) with
    | none => .error state
    | some [] => .ok { state with finish := true, reads := state.reads.tail }
    | some chunk => .ok { state with nextIn := chunk, reads := state.reads.tail }
  else .ok state

/-- The output buffer is written when it is full. -/
def drain (state : DumpState σ) : Except (DumpState σ) (DumpState σ) :=
  if state.out.length = chunkSize then
    let bytesWritten := accepted state.outFd.length chunkSize
    let written := { state with outFd := state.outFd ++ state.out.take bytesWritten }
    if bytesWritten < chunkSize then .error written else .ok { written with out := [] }
  else .ok state

/-- The state behind a call of `deflate`. -/
def called (state : DumpState σ) : DumpState σ :=
  let result := deflate state.zs state.nextIn (chunkSize - state.out.length) state.finish
  { state with
    zs := result.next
    nextIn := state.nextIn.drop result.consumed
    out := state.out ++ result.output }

/-- The last chunk is written when the stream is ended. -/
def deflateCall (state : DumpState σ) : Except (DumpState σ) (DumpState σ) :=
  let ret :=
    (deflate state.zs state.nextIn (chunkSize - state.out.length) state.finish).ret
  let state := called deflate state
  if state.finish = true ∧ ret = .zStreamEnd then
    let bytesWritten := accepted state.outFd.length state.out.length
    .error { state with outFd := state.outFd ++ state.out.take bytesWritten }
  else if ret ≠ .zOk then .error state
  else .ok state

def dumpTurn (state : DumpState σ) : Except (DumpState σ) (DumpState σ) := do
  let state ← refill state
  let state ← drain accepted state
  deflateCall deflate accepted state

def dumpCompressedTrace (zs : σ) (reads : List (Option (List UInt8))) (turns : Nat) :
    Option (DumpState σ) :=
  Loop.run (dumpTurn deflate accepted) turns { zs, reads }

end Dump

/-- The bytes that are still to be read. -/
def DumpState.unread {σ : Type} (state : DumpState σ) : List UInt8 :=
  state.reads.flatMap fun read => read.getD []

/-- Calls of `deflate` from the state `zs` on, each on the state that the one before has
left: what they took of the stream, what they appended, the state behind them and what the
last of them returned.  A call is offered bytes that follow those taken, finishes when the
stream is taken, and has the room that the output leaves of a chunk. -/
inductive Feeds {σ : Type} (deflate : Deflate σ) (zs : σ) (stream : List UInt8) :
    List UInt8 → List UInt8 → σ → DeflateResult → Prop
  | init : Feeds deflate zs stream [] [] zs .zOk
  | call {taken produced : List UInt8} {state : σ} (input : List UInt8) (room : Nat)
      (finish : Bool) (hbefore : Feeds deflate zs stream taken produced state .zOk)
      (hinput : taken ++ input <+: stream) (hfinish : finish = true ↔ taken = stream)
      (hroom : room = chunkSize - produced.length % chunkSize) :
      Feeds deflate zs stream
        (taken ++ input.take (deflate state input room finish).consumed)
        (produced ++ (deflate state input room finish).output)
        (deflate state input room finish).next (deflate state input room finish).ret

/-- Every byte of the stream is in one place, and every byte of the output. -/
structure Accounts {σ : Type} (deflate : Deflate σ) (zs : σ) (stream taken : List UInt8)
    (state : DumpState σ) : Prop where
  feeds : Feeds deflate zs stream taken (state.outFd ++ state.out) state.zs .zOk
  input : taken ++ (state.nextIn ++ state.unread) = stream
  room : state.out.length ≤ chunkSize
  chunks : state.outFd.length % chunkSize = 0
  reading : ∀ read ∈ state.reads, ∃ chunk, read = some chunk ∧ chunk ≠ []
  finishing : state.finish = true → state.nextIn = [] ∧ state.reads = []

/-- What is to come: input, the end of the input, output. -/
def remaining (backlog : σ → Bool → Nat) (state : DumpState σ) : Nat ×ₗ Nat ×ₗ Nat :=
  toLex ((state.nextIn ++ state.unread).length,
    toLex (if state.finish then 0 else 1, backlog state.zs state.finish))

section Turn

variable {σ : Type} {deflate : Deflate σ} {accepted : Nat → Nat → Nat}
  {backlog : σ → Bool → Nat} {zs : σ} {stream taken : List UInt8} {state : DumpState σ}

/-- After it there is something to do for `deflate`. -/
theorem refill_ok (haccounts : Accounts deflate zs stream taken state) :
    ∃ next, refill state = .ok next ∧ Accounts deflate zs stream taken next ∧
      (next.nextIn ≠ [] ∨ next.finish = true) ∧
      remaining backlog next ≤ remaining backlog state := by
  by_cases hempty : state.nextIn = [] ∧ state.finish = false
  · obtain ⟨hnext, hfinish⟩ := hempty
    have hinput := haccounts.input
    rw [refill, if_pos ⟨hnext, hfinish⟩]
    cases hreads : state.reads with
    | nil =>
        refine ⟨{ state with finish := true, reads := [] }, rfl, ?_, .inr rfl, ?_⟩
        · refine ⟨haccounts.feeds, ?_, haccounts.room, haccounts.chunks, nofun,
            fun _ => ⟨hnext, rfl⟩⟩
          simpa [DumpState.unread, hreads] using hinput
        · apply le_of_lt
          simp [remaining, Prod.Lex.toLex_lt_toLex, DumpState.unread, hreads, hfinish]
    | cons read rest =>
        obtain ⟨chunk, rfl, hchunk⟩ := haccounts.reading read (by simp [hreads])
        have hsame : state.nextIn ++ state.unread =
            chunk ++ rest.flatMap fun read => read.getD [] := by
          simp [DumpState.unread, hreads, hnext]
        refine ⟨{ state with nextIn := chunk, reads := rest }, ?_, ?_, .inl hchunk, ?_⟩
        · cases chunk with
          | nil => exact absurd rfl hchunk
          | cons byte bytes => rfl
        · refine ⟨haccounts.feeds, ?_, haccounts.room, haccounts.chunks, ?_, ?_⟩
          · rw [hsame] at hinput
            exact hinput
          · intro other hmem
            exact haccounts.reading other (by simp [hreads, hmem])
          · intro hends
            rw [hfinish] at hends
            exact absurd hends Bool.false_ne_true
        · apply le_of_eq
          rw [remaining, remaining, hsame]
          rfl
  · refine ⟨state, if_neg hempty, haccounts, ?_, le_rfl⟩
    by_cases hnext : state.nextIn = []
    · right
      have hfinish : state.finish ≠ false := fun hfalse => hempty ⟨hnext, hfalse⟩
      exact Bool.eq_true_of_not_eq_false hfinish
    · exact .inl hnext

/-- After it there is room for `deflate`. -/
theorem drain_ok (hcomplete : ∀ written request, accepted written request = request)
    (haccounts : Accounts deflate zs stream taken state) :
    ∃ next, drain accepted state = .ok next ∧ Accounts deflate zs stream taken next ∧
      next.out.length < chunkSize ∧ next.nextIn = state.nextIn ∧
      next.finish = state.finish ∧ remaining backlog next = remaining backlog state := by
  have hroom := haccounts.room
  by_cases hfull : state.out.length = chunkSize
  · refine ⟨{ state with outFd := state.outFd ++ state.out, out := [] }, ?_, ?_, ?_⟩
    · have htake : state.out.take chunkSize = state.out := List.take_of_length_le hroom
      rw [drain, if_pos hfull]
      simp only [hcomplete, Nat.lt_irrefl, if_false, htake]
    · refine ⟨?_, haccounts.input, Nat.zero_le _, ?_, haccounts.reading, haccounts.finishing⟩
      · rw [List.append_nil]
        exact haccounts.feeds
      · rw [List.length_append, hfull, Nat.add_mod_right]
        exact haccounts.chunks
    · exact ⟨Nat.succ_pos _, rfl, rfl, rfl⟩
  · exact ⟨state, if_neg hfull, haccounts, Nat.lt_of_le_of_ne hroom hfull, rfl, rfl, rfl⟩

/-- The call that the loop makes is one on the stream. -/
theorem called_feeds (haccounts : Accounts deflate zs stream taken state)
    (hroom : state.out.length < chunkSize)
    (hready : state.nextIn ≠ [] ∨ state.finish = true) :
    Feeds deflate zs stream
      (taken ++ state.nextIn.take (deflate state.zs state.nextIn
        (chunkSize - state.out.length) state.finish).consumed)
      (state.outFd ++ (called deflate state).out) (called deflate state).zs
      (deflate state.zs state.nextIn (chunkSize - state.out.length) state.finish).ret := by
  have hinput := haccounts.input
  have hlength : (state.outFd ++ state.out).length % chunkSize = state.out.length := by
    rw [List.length_append, Nat.add_mod, haccounts.chunks, Nat.zero_add, Nat.mod_mod,
      Nat.mod_eq_of_lt hroom]
  have hcall := Feeds.call state.nextIn (chunkSize - state.out.length) state.finish
    haccounts.feeds ?_ ?_ (by rw [hlength])
  · rw [List.append_assoc] at hcall
    exact hcall
  · exact ⟨state.unread, by rw [List.append_assoc, hinput]⟩
  · constructor
    · intro hfinish
      obtain ⟨hnext, hreads⟩ := haccounts.finishing hfinish
      rw [hnext, DumpState.unread, hreads] at hinput
      simpa using hinput
    · intro htaken
      rw [htaken] at hinput
      have hnothing := List.append_right_eq_self.mp hinput
      exact hready.resolve_left fun hne => hne (List.append_eq_nil_iff.mp hnothing).1

theorem called_accounts (hcontract : Contract deflate backlog)
    (haccounts : Accounts deflate zs stream taken state)
    (hroom : state.out.length < chunkSize)
    (hready : state.nextIn ≠ [] ∨ state.finish = true)
    (hok : (deflate state.zs state.nextIn (chunkSize - state.out.length)
      state.finish).ret = .zOk) :
    Accounts deflate zs stream
      (taken ++ state.nextIn.take (deflate state.zs state.nextIn
        (chunkSize - state.out.length) state.finish).consumed) (called deflate state) := by
  have hfits := hcontract.fits state.zs state.nextIn (chunkSize - state.out.length)
    state.finish
  have hfeeds := called_feeds haccounts hroom hready
  rw [hok] at hfeeds
  refine ⟨hfeeds, ?_, ?_, haccounts.chunks, haccounts.reading, ?_⟩
  · rw [← haccounts.input]
    simp only [called, DumpState.unread, List.append_assoc, List.append_cancel_left_eq]
    rw [← List.append_assoc, List.take_append_drop]
  · simp only [called, List.length_append]
    omega
  · intro hfinish
    obtain ⟨hnext, hreads⟩ := haccounts.finishing hfinish
    refine ⟨?_, hreads⟩
    simp [called, hnext]

/-- Unless the stream is ended, a call brings the end nearer. -/
theorem remaining_called (hcontract : Contract deflate backlog)
    (hroom : state.out.length < chunkSize)
    (hready : state.nextIn ≠ [] ∨ state.finish = true)
    (hok : (deflate state.zs state.nextIn (chunkSize - state.out.length)
      state.finish).ret = .zOk) :
    remaining backlog (called deflate state) < remaining backlog state := by
  have hpositive : 0 < chunkSize - state.out.length := Nat.sub_pos_of_lt hroom
  have htakes := hcontract.takes state.zs state.nextIn (chunkSize - state.out.length)
    state.finish
  have hemits := hcontract.emits state.zs state.nextIn (chunkSize - state.out.length)
    state.finish
  have hprogress := hcontract.progress state.zs state.nextIn _ state.finish hpositive
  have hends := hcontract.ends state.zs state.nextIn (chunkSize - state.out.length)
  simp only [remaining, called, Prod.Lex.toLex_lt_toLex, List.length_append,
    List.length_drop, DumpState.unread]
  generalize hresult : deflate state.zs state.nextIn (chunkSize - state.out.length)
    state.finish = result at *
  by_cases hconsumed : result.consumed = 0
  · right
    refine ⟨by rw [hconsumed, Nat.sub_zero], .inr ⟨rfl, ?_⟩⟩
    have hless := hemits hconsumed
    have houtput : result.output ≠ [] := by
      by_cases hnext : state.nextIn = []
      · have hfinish : state.finish = true := hready.resolve_left fun hne => hne hnext
        refine (hprogress (.inr ⟨hfinish, ?_⟩)).resolve_left (by omega)
        -- with nothing left to emit the call would have ended the stream
        apply Nat.pos_of_ne_zero
        intro hzero
        rw [hfinish] at hresult hless hzero
        rw [hresult, hnext] at hends
        have hend := hends hconsumed (by omega)
        rw [hend] at hok
        cases hok
      · exact (hprogress (.inl hnext)).resolve_left (by omega)
    have hpos := List.length_pos_iff.mpr houtput
    omega
  · left
    have hlonger : 0 < state.nextIn.length := by omega
    omega

/-- The calls took the whole stream, what they appended is what was written, and the last
of them ended the stream. -/
def Complete (deflate : Deflate σ) (zs : σ) (stream : List UInt8) (final : DumpState σ) :
    Prop :=
  Feeds deflate zs stream stream final.outFd final.zs .zStreamEnd

/-- One turn: the end comes nearer, or the dump is complete. -/
theorem dumpTurn_step (hcontract : Contract deflate backlog)
    (hcomplete : ∀ written request, accepted written request = request)
    (haccounts : Accounts deflate zs stream taken state) :
    (∃ next, dumpTurn deflate accepted state = .ok next ∧
        (∃ taken, Accounts deflate zs stream taken next) ∧
        remaining backlog next < remaining backlog state) ∨
      ∃ final, dumpTurn deflate accepted state = .error final ∧
        Complete deflate zs stream final := by
  obtain ⟨filled, hfilled, haccounts, hready, hfill⟩ := @refill_ok _ _ backlog _ _ _ _ haccounts
  obtain ⟨drained, hdrained, haccounts, hroom, hnext, hfinish, hdrain⟩ :=
    @drain_ok _ _ _ backlog _ _ _ _ hcomplete haccounts
  rw [← hnext, ← hfinish] at hready
  rw [← hdrain] at hfill
  have hturn : dumpTurn deflate accepted state = deflateCall deflate accepted drained := by
    simp only [dumpTurn, hfilled, hdrained, bind, Except.bind]
  have hpositive : 0 < chunkSize - drained.out.length := Nat.sub_pos_of_lt hroom
  rw [hturn]
  rcases hcontract.succeeds drained.zs drained.nextIn _ drained.finish hpositive hready with
    hok | ⟨hlast, hend⟩
  · left
    refine ⟨called deflate drained, ?_,
      ⟨_, called_accounts hcontract haccounts hroom hready hok⟩, ?_⟩
    · simp only [deflateCall, hok, reduceCtorEq, and_false, if_false, ne_eq, not_true]
    · exact (remaining_called hcontract hroom hready hok).trans_le hfill
  · right
    refine ⟨{ called deflate drained with
      outFd := (called deflate drained).outFd ++ (called deflate drained).out }, ?_, ?_⟩
    · have hlastCall : (called deflate drained).finish = true := hlast
      simp only [deflateCall, hend, hlastCall, and_self, if_true, hcomplete, List.take_length]
    · have hfeeds := called_feeds haccounts hroom hready
      obtain ⟨hnoInput, hnoReads⟩ := haccounts.finishing hlast
      have hinput := haccounts.input
      rw [hnoInput, DumpState.unread, hnoReads, List.flatMap_nil, List.append_nil,
        List.append_nil] at hinput
      rw [hend, hnoInput, List.take_nil, List.append_nil, hinput] at hfeeds
      exact hfeeds

end Turn

/-- The loop ends, and nothing is lost or repeated, however the chunks lie. -/
theorem compressed_dump_is_complete {σ : Type} {deflate : Deflate σ}
    {accepted : Nat → Nat → Nat} {backlog : σ → Bool → Nat}
    (hcontract : Contract deflate backlog)
    (hcomplete : ∀ written request, accepted written request = request) (zs : σ)
    (chunks : List (List UInt8)) (hchunks : ∀ chunk ∈ chunks, chunk ≠ []) :
    ∃ turns final, dumpCompressedTrace deflate accepted zs (chunks.map some) turns =
      some final ∧ Complete deflate zs chunks.flatten final := by
  have horder := InvImage.wf (remaining backlog) (@wellFounded_lt (Nat ×ₗ Nat ×ₗ Nat) _ _)
  have hstep : ∀ state, (∃ taken, Accounts deflate zs chunks.flatten taken state) →
      (∃ next, dumpTurn deflate accepted state = .ok next ∧
          (∃ taken, Accounts deflate zs chunks.flatten taken next) ∧
          remaining backlog next < remaining backlog state) ∨
        ∃ final, dumpTurn deflate accepted state = .error final ∧
          Complete deflate zs chunks.flatten final := by
    rintro state ⟨taken, haccounts⟩
    exact dumpTurn_step hcontract hcomplete haccounts
  apply Loop.run_total horder hstep
  refine ⟨[], .init, ?_, Nat.zero_le _, rfl, ?_, nofun⟩
  · simp [DumpState.unread, List.flatMap_map, List.flatMap_id']
  · intro read hmem
    obtain ⟨chunk, hchunk, rfl⟩ := List.mem_map.mp hmem
    exact ⟨chunk, rfl, hchunks chunk hchunk⟩

/-! A `deflate` that keeps its input until it is to finish. -/

structure Buffered where
  collected : List UInt8 := []
  pending : List UInt8
  finishing : Bool := false

section Buffered

-- the body of the stream for all of its input
variable (encode : List UInt8 → List UInt8)

def Buffered.toEmit (state : Buffered) (input : List UInt8) (finish : Bool) : List UInt8 :=
  state.pending ++
    (if finish = true ∧ state.finishing = false then encode (state.collected ++ input) else [])

def bufferedDeflate : Deflate Buffered := fun state input room finish =>
  let pending := state.toEmit encode input finish
  { consumed := input.length
    output := pending.take room
    ret := if finish = true ∧ pending.drop room = [] then .zStreamEnd else .zOk
    next :=
      { collected := state.collected ++ input
        pending := pending.drop room
        finishing := state.finishing || finish } }

def bufferedBacklog (state : Buffered) (finish : Bool) : Nat :=
  (state.toEmit encode [] finish).length

theorem toEmit_next (state : Buffered) (input : List UInt8) (room : Nat) (finish : Bool) :
    (bufferedDeflate encode state input room finish).next.toEmit encode [] finish =
      (state.toEmit encode input finish).drop room := by
  cases finish <;> simp [bufferedDeflate, Buffered.toEmit]

theorem buffered_contract :
    Contract (bufferedDeflate encode) (bufferedBacklog encode) where
  takes := fun _ _ _ _ => le_rfl
  fits := fun _ _ _ _ => List.length_take_le _ _
  emits := by
    intro state input room finish hconsumed
    obtain rfl := List.length_eq_zero_iff.mp hconsumed
    rw [bufferedBacklog, bufferedBacklog, toEmit_next]
    simp only [bufferedDeflate, List.length_drop, List.length_take]
    omega
  progress := by
    intro state input room finish hroom hready
    rcases hready with hinput | ⟨_, hbacklog⟩
    · exact .inl (List.length_pos_iff.mpr hinput)
    · cases input with
      | cons byte rest => exact .inl (Nat.succ_pos _)
      | nil =>
          right
          apply List.ne_nil_of_length_pos
          simp only [bufferedDeflate, List.length_take]
          exact Nat.lt_min.mpr ⟨hroom, hbacklog⟩
  succeeds := by
    intro state input room finish _ _
    by_cases hend : finish = true ∧ (state.toEmit encode input finish).drop room = []
    · exact .inr ⟨hend.1, if_pos hend⟩
    · exact .inl (if_neg hend)
  ends := by
    intro state input room _ hbacklog
    rw [bufferedBacklog, toEmit_next] at hbacklog
    exact if_pos ⟨rfl, List.eq_nil_of_length_eq_zero hbacklog⟩

end Buffered

/-- The body that zlib emits for the two bytes of the stream, behind its header. -/
def sampleBody (input : List UInt8) : List UInt8 :=
  if input = [0x61, 0x62] then [0x4b, 0x4c, 0x02, 0x00, 0x01, 0x26, 0x00, 0xc4] else input

/-- Two reads of a byte each, and the bytes of the compressed file. -/
theorem compressed_dump_is_complete_sample :
    (dumpCompressedTrace (bufferedDeflate sampleBody) (fun _ request => request)
        { pending := [0x78, 0x9c] } ([[0x61], [0x62]].map some) 3).map DumpState.outFd =
      some [0x78, 0x9c, 0x4b, 0x4c, 0x02, 0x00, 0x01, 0x26, 0x00, 0xc4] ∧
    ∃ turns final, dumpCompressedTrace (bufferedDeflate sampleBody)
        (fun _ request => request) { pending := [0x78, 0x9c] }
        ([[0x61], [0x62]].map some) turns = some final ∧
      Complete (bufferedDeflate sampleBody) { pending := [0x78, 0x9c] }
        [[0x61], [0x62]].flatten final :=
  ⟨by decide +kernel,
    compressed_dump_is_complete (buffered_contract sampleBody) (fun _ _ => rfl) _
      [[0x61], [0x62]] (by decide)⟩

end CompressedTrace

end Hitrace
