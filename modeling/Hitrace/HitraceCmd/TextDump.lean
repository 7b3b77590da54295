import Hitrace.HitraceCmd.Recording

namespace Hitrace

/-! What a text dump without `-z` writes, against what it reads. -/

namespace Recording

/-- The blocks up to the end of the trace or an error. -/
def blocks : List (Option (List UInt8)) → List (List UInt8)
  | [] => []
  | none :: _ => []
  | some block :: rest => if block = [] then [] else block :: blocks rest

variable {accepted : Nat → Nat → Option Nat}

/-- `write` takes no more than it is given. -/
def Accepts (accepted : Nat → Nat → Option Nat) : Prop :=
  ∀ written request bytes, accepted written request = some bytes → bytes ≤ request

theorem copyBlocks_sublist (written : List UInt8) (reads : List (Option (List UInt8))) :
    ∃ copied, copyBlocks accepted written reads = written ++ copied ∧
      copied.Sublist (blocks reads).flatten := by
  induction reads generalizing written with
  | nil => exact ⟨[], (List.append_nil _).symm, List.Sublist.refl _⟩
  | cons read rest ih =>
      cases read with
      | none => exact ⟨[], (List.append_nil _).symm, List.nil_sublist _⟩
      | some block =>
          unfold copyBlocks blocks
          split
          · exact ⟨[], (List.append_nil _).symm, List.nil_sublist _⟩
          · split
            · exact ⟨[], (List.append_nil _).symm, List.nil_sublist _⟩
            · exact ⟨[], (List.append_nil _).symm, List.nil_sublist _⟩
            · next bytes _ =>
                obtain ⟨copied, hcopied, hsublist⟩ := ih (written ++ block.take (bytes + 1))
                refine ⟨block.take (bytes + 1) ++ copied, ?_, ?_⟩
                · rw [hcopied, List.append_assoc]
                · rw [List.flatten_cons]
                  exact (List.take_sublist _ _).append hsublist

/-- Every block is written in one piece. -/
def Whole (accepted : Nat → Nat → Option Nat) (start : Nat) (parts : List (List UInt8)) :
    Prop :=
  ∀ (before : List (List UInt8)) (block : List UInt8) (after : List (List UInt8)),
    parts = before ++ block :: after →
      accepted (start + before.flatten.length) block.length = some block.length

theorem whole_cons {start : Nat} {block : List UInt8} {rest : List (List UInt8)} :
    Whole accepted start (block :: rest) ↔
      accepted start block.length = some block.length ∧
        Whole accepted (start + block.length) rest := by
  constructor
  · intro hwhole
    refine ⟨hwhole [] block rest rfl, fun before other after hsplit => ?_⟩
    have hother := hwhole (block :: before) other after (by rw [hsplit, List.cons_append])
    rwa [List.flatten_cons, List.length_append, ← Nat.add_assoc] at hother
  · rintro ⟨hblock, hrest⟩ before other after hsplit
    cases before with
    | nil =>
        obtain ⟨rfl, rfl⟩ := List.cons.inj hsplit
        exact hblock
    | cons first before =>
        obtain ⟨rfl, rfl⟩ := List.cons.inj hsplit
        have hother := hrest before other after rfl
        rwa [List.flatten_cons, List.length_append, ← Nat.add_assoc]

theorem whole_nil {start : Nat} : Whole accepted start [] := by
  intro before block after hsplit
  cases before with
  | nil => cases hsplit
  | cons first before => cases hsplit

theorem copyBlocks_eq_iff (haccepts : Accepts accepted) (written : List UInt8)
    (reads : List (Option (List UInt8))) :
    copyBlocks accepted written reads = written ++ (blocks reads).flatten ↔
      Whole accepted written.length (blocks reads) := by
  induction reads generalizing written with
  | nil => exact iff_of_true (List.append_nil _).symm whole_nil
  | cons read rest ih =>
      cases read with
      | none => exact iff_of_true (List.append_nil _).symm whole_nil
      | some block =>
          unfold copyBlocks blocks
          split
          · exact iff_of_true (List.append_nil _).symm whole_nil
          next hblock =>
            have hlength := List.length_pos_of_ne_nil hblock
            rw [whole_cons, List.flatten_cons]
            split
            · next hnone =>
                rw [hnone]
                exact iff_of_false (by simp [hblock]) nofun
            · next hzero =>
                rw [hzero]
                refine iff_of_false (by simp [hblock]) ?_
                rintro ⟨hsame, _⟩
                have := Option.some.inj hsame
                omega
            · next bytes hbytes =>
                rw [hbytes]
                rcases Nat.lt_or_ge (bytes + 1) block.length with hshort | hfull
                · refine iff_of_false (fun hsame => ?_) ?_
                  · obtain ⟨copied, hcopied, hsublist⟩ :=
                      @copyBlocks_sublist accepted (written ++ block.take (bytes + 1)) rest
                    rw [hcopied] at hsame
                    have hsize := congrArg List.length hsame
                    have hcopiedSize := hsublist.length_le
                    simp only [List.length_append, List.length_take] at hsize
                    omega
                  · rintro ⟨hsame, _⟩
                    have := Option.some.inj hsame
                    omega
                · have hsame : bytes + 1 = block.length :=
                    Nat.le_antisymm (haccepts _ _ _ hbytes) hfull
                  rw [List.take_of_length_le hfull, ← List.append_assoc, ih, List.length_append]
                  exact (and_iff_right (congrArg some hsame)).symm

/-- What is logged behind the blocks. -/
def readDone (globals : CommandLine.Globals) : List Event :=
  if globals.traceArgs.output = [] then []
  else [.consoleLog ("trace read done, output: " ++ String.ofList globals.traceArgs.output)]

/-- A text dump whose files open writes a part of every block it reads, all of them exactly
when `write` takes every block whole, and a loss is neither an error nor left out of the
size that is reported. -/
theorem text_dump_exact {σ : Type} {host : Host} {globals : CommandLine.Globals}
    (haccepts : Accepts host.accepted) (htrace : host.traceOpened = true)
    (houtput : globals.traceArgs.output = [] ∨ host.outputOpened = true)
    (hplain : globals.traceArgs.isCompress = false) (world : World σ) :
    ∃ written,
      (dumpKernelTraceToOutput host globals world).events =
        world.events ++ .write written :: readDone globals ∧
      written.Sublist (blocks host.reads).flatten ∧
      (written = (blocks host.reads).flatten ↔ Whole host.accepted 0 (blocks host.reads)) ∧
      (dumpKernelTraceToOutput host globals world).params.error = world.params.error ∧
      (dumpKernelTraceToOutput host globals world).params.fileSize =
        (world.params.fileSize + Int32.ofNat written.length) / 1024 := by
  have hopened : ¬ (globals.traceArgs.output ≠ [] ∧ (!host.outputOpened) = true) := by
    rintro ⟨hnamed, hclosed⟩
    rw [houtput.resolve_left hnamed] at hclosed
    cases hclosed
  obtain ⟨copied, hcopied, hsublist⟩ := @copyBlocks_sublist host.accepted [] host.reads
  have hexact := copyBlocks_eq_iff haccepts [] host.reads
  rw [hcopied, List.nil_append, List.nil_append] at hexact
  refine ⟨copied, ?_⟩
  unfold dumpKernelTraceToOutput readDone
  dsimp only
  rw [if_neg (by rw [htrace]; decide), if_neg hopened, hplain, hcopied, List.nil_append]
  split
  · exact ⟨rfl, hsublist, hexact, rfl, rfl⟩
  · exact ⟨List.append_assoc .., hsublist, hexact, rfl, rfl⟩

/-- The second block is cut short, and the third follows it. -/
def shortWrite : Host where
  traceRootPath := "/sys/kernel/tracing/".toList
  reads := [some [1, 2], some [3, 4], some [5, 6], some []]
  accepted := fun written request => some (if written = 2 then min 1 request else request)

/-- The globals of a dump into a file. -/
def toFile : CommandLine.Globals := { traceArgs := { output := "/data/log/trace".toList } }

theorem text_dump_exact_short_write :
    ∃ written,
      (dumpKernelTraceToOutput shortWrite toFile ({ collector := () } : World Unit)).events =
        [.write written, .consoleLog "trace read done, output: /data/log/trace"] ∧
      written = [1, 2, 3, 5, 6] ∧
      ¬ Whole shortWrite.accepted 0 (blocks shortWrite.reads) := by
  have haccepts : Accepts shortWrite.accepted := by
    intro written request bytes hbytes
    cases hbytes
    split
    · exact Nat.min_le_right _ _
    · exact Nat.le_refl _
  obtain ⟨written, hevents, _, hexact, _⟩ :=
    @text_dump_exact Unit shortWrite toFile haccepts rfl (.inr rfl) rfl { collector := () }
  have hwritten : written = [1, 2, 3, 5, 6] := by
    cases hevents
    decide
  refine ⟨written, hevents, hwritten, fun hwhole => ?_⟩
  have hall := hexact.mpr hwhole
  rw [hwritten] at hall
  cases hall

end Recording

end Hitrace
