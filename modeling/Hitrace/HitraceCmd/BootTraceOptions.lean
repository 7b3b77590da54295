import Hitrace.HitraceCmd.BootTraceRoundTrip

namespace Hitrace

open Library

/-! The options of `--boot_trace` for which the written configuration is loaded again. -/

namespace BootTraceJson

open Json (Plain)

section Options

variable {raw : Char → Bool} {cJson : CJson} {config : BootTraceConfig} {args : TraceArgs}
  {allTagInfos : List (List Char × TraceTag)}

theorem addTag_eq_some {start result : List (List Char) × List (List Char)} {tag : List Char}
    (hadd : addTag allTagInfos start tag = some result) :
    (allTagInfos.lookup tag).isSome = true ∧
      ∀ other, other ∈ result.1 ++ result.2 ↔ other ∈ start.1 ++ start.2 ∨ other = tag := by
  unfold addTag at hadd
  split at hadd
  · cases hadd
  · next info hinfo =>
      refine ⟨by rw [hinfo]; rfl, fun other => ?_⟩
      split at hadd
      · cases hadd
        simp only [List.mem_append, List.mem_singleton]
        exact or_right_comm
      · cases hadd
        simp only [List.mem_append, List.mem_singleton]
        exact (or_assoc).symm

/-- Each tag is known and lands in one of the two lists. -/
theorem addTags_eq_some {tagsVec : List (List Char)}
    {start result : List (List Char) × List (List Char)}
    (hadd : tagsVec.foldlM (addTag allTagInfos) start = some result) :
    (∀ tag ∈ tagsVec, (allTagInfos.lookup tag).isSome = true) ∧
      ∀ other, other ∈ result.1 ++ result.2 ↔ other ∈ start.1 ++ start.2 ∨ other ∈ tagsVec := by
  induction tagsVec generalizing start with
  | nil =>
      cases hadd
      exact ⟨fun tag htag => absurd htag List.not_mem_nil, fun other => by simp⟩
  | cons tag rest ih =>
      rw [List.foldlM_cons] at hadd
      obtain ⟨next, hnext, hrest⟩ := Option.bind_eq_some_iff.mp hadd
      obtain ⟨hknown, hmem⟩ := addTag_eq_some hnext
      obtain ⟨hrestKnown, hrestMem⟩ := ih hrest
      refine ⟨List.forall_mem_cons.mpr ⟨hknown, hrestKnown⟩, fun other => ?_⟩
      rw [hrestMem, hmem, List.mem_cons, or_assoc]

theorem handle_eq_some (hconfig : handleBootTraceConfig allTagInfos args = some config) :
    ∃ kernelTags userTags, config = bootTraceConfig args kernelTags userTags ∧
      args.tagsVec ≠ [] ∧ (∀ tag ∈ args.tagsVec, (allTagInfos.lookup tag).isSome = true) ∧
      ∀ tag, tag ∈ kernelTags ++ userTags ↔ tag ∈ args.tagsVec := by
  unfold handleBootTraceConfig at hconfig
  split at hconfig
  · cases hconfig
  · obtain ⟨lists, hlists, rfl⟩ := Option.map_eq_some_iff.mp hconfig
    unfold validateBootTraceTags at hlists
    split at hlists
    · cases hlists
    · next hempty =>
        split at hlists
        · cases hlists
        · obtain ⟨hknown, hmem⟩ := addTags_eq_some hlists
          refine ⟨lists.1, lists.2, rfl, ?_, hknown, fun tag => ?_⟩
          · exact fun hnil => hempty (List.isEmpty_iff.mpr hnil)
          · rw [hmem]
            simp

theorem filePrefix_eq (kernelTags userTags : List (List Char)) :
    (bootTraceConfig args kernelTags userTags).filePrefix =
        BootTrace.bootTraceDefaultPrefix ∧ args.bootFilePrefix = [] ∨
      (bootTraceConfig args kernelTags userTags).filePrefix = args.bootFilePrefix ∧
        args.bootFilePrefix ≠ [] := by
  rw [bootTraceConfig]
  dsimp only
  split
  · next hempty => exact .inl ⟨rfl, List.isEmpty_iff.mp hempty⟩
  · next hempty => exact .inr ⟨rfl, fun hnil => hempty (List.isEmpty_iff.mpr hnil)⟩

theorem clockType_mem (haccepted : Accepted args) (kernelTags userTags : List (List Char)) :
    (bootTraceConfig args kernelTags userTags).clockType ∈ clockTypes := by
  rw [bootTraceConfig]
  dsimp only
  rcases haccepted.clockType with hempty | hmem
  · rw [hempty]
    decide
  · split
    · decide
    · exact hmem

theorem positive_bootTraceConfig (kernelTags userTags : List (List Char)) :
    0 < (bootTraceConfig args kernelTags userTags).durationSec ∧
      0 < (bootTraceConfig args kernelTags userTags).bufferSizeKb ∧
      0 < (bootTraceConfig args kernelTags userTags).fileSizeKb := by
  rw [bootTraceConfig]
  dsimp only
  refine ⟨?_, ?_, ?_⟩
  · split
    · assumption
    · decide
  · split
    · assumption
    · decide
  · split
    · next hrange => exact Int32.lt_of_lt_of_le (by decide) hrange.1
    · decide

theorem written_of_handle (haccepted : Accepted args)
    (hconfig : handleBootTraceConfig allTagInfos args = some config) :
    Written allTagInfos config := by
  obtain ⟨kernelTags, userTags, rfl, hnonempty, hknown, hmem⟩ := handle_eq_some hconfig
  obtain ⟨hduration, hbuffer, hfile⟩ := @positive_bootTraceConfig args kernelTags userTags
  refine ⟨hduration, hbuffer, hfile, clockType_mem haccepted _ _, ?_, ?_, fun tag htag => ?_⟩
  · rcases @filePrefix_eq args kernelTags userTags with ⟨hsame, _⟩ | ⟨hsame, hfront⟩
    · rw [hsame]
      decide
    · rw [hsame]
      exact ⟨hfront, haccepted.bootFilePrefix⟩
  · obtain ⟨first, rest, hcons⟩ := List.exists_cons_of_ne_nil hnonempty
    have hfirst := (hmem first).mpr (hcons ▸ List.mem_cons_self)
    exact List.ne_nil_of_mem hfirst
  · have hgiven := (hmem tag).mp htag
    exact ⟨haccepted.tagsVec tag hgiven, hknown tag hgiven⟩

/-- The strings of the configuration need no escape if and only if those of the options need
none. -/
theorem plainConfig_iff (hjson : IsCJson raw cJson)
    (hconfig : handleBootTraceConfig allTagInfos args = some config) :
    (PlainConfig raw config ∧ ∀ tag ∈ tags config, tag ≠ []) ↔
      (∀ char ∈ args.bootFilePrefix, Plain raw char) ∧
        ∀ tag ∈ args.tagsVec, tag ≠ [] ∧ ∀ char ∈ tag, Plain raw char := by
  obtain ⟨kernelTags, userTags, rfl, _, _, hmem⟩ := handle_eq_some hconfig
  constructor
  · rintro ⟨⟨hfront, htags⟩, hnonempty⟩
    refine ⟨?_, fun tag htag => ?_⟩
    · rcases @filePrefix_eq args kernelTags userTags with ⟨_, hnil⟩ | ⟨hsame, _⟩
      · rw [hnil]
        exact List.forall_mem_nil _
      · rw [hsame] at hfront
        exact hfront
    · have hlisted := (hmem tag).mpr htag
      exact ⟨hnonempty tag hlisted, htags tag hlisted⟩
  · rintro ⟨hfront, htags⟩
    refine ⟨⟨?_, fun tag htag => (htags tag ((hmem tag).mp htag)).2⟩,
      fun tag htag => (htags tag ((hmem tag).mp htag)).1⟩
    rcases @filePrefix_eq args kernelTags userTags with ⟨hsame, _⟩ | ⟨hsame, _⟩
    · rw [hsame]
      exact hjson.plain (by decide)
    · rw [hsame]
      exact hfront

/-- The configuration comes back exactly if the file prefix and the tags can stand in quotes as
they are. -/
theorem boot_trace_round_trips_iff (hjson : IsCJson raw cJson) (haccepted : Accepted args)
    (hconfig : handleBootTraceConfig allTagInfos args = some config) :
    RoundTrips cJson allTagInfos config ↔
      (∀ char ∈ args.bootFilePrefix, Plain raw char) ∧
        ∀ tag ∈ args.tagsVec, tag ≠ [] ∧ ∀ char ∈ tag, Plain raw char := by
  rw [roundTrips_iff hjson (written_of_handle haccepted hconfig)]
  exact plainConfig_iff hjson hconfig

end Options

/-! A reader of standard JSON. -/

def readInteger (literal : List Char) : Int :=
  if literal.head? = some '-' then -(Decimal.value literal.tail : Int)
  else Decimal.value literal

theorem readInteger_intToString (number : Int) : readInteger (intToString number) = number := by
  cases number with
  | ofNat value =>
      have hminus : (Decimal.text value).head? ≠ some '-' := by
        intro hhead
        have hdigit := Decimal.isDigit_of_mem_text (List.mem_of_head? hhead)
        cases hdigit
      have htext : intToString (Int.ofNat value) = Decimal.text value := rfl
      rw [htext, readInteger, if_neg hminus, Decimal.value_text]
      rfl
  | negSucc value =>
      have htext : intToString (Int.negSucc value) = '-' :: Decimal.text (value + 1) := by
        change ("-" ++ toString (value + 1)).toList = _
        rw [String.toList_append]
        rfl
      rw [htext, readInteger, List.head?_cons, if_pos rfl, List.tail_cons, Decimal.value_text]
      rfl

def standardCJson : CJson where
  parse := Json.read Json.standardRaw
  valueint literal := Int32.ofInt (readInteger literal)

theorem isCJson_standard : IsCJson Json.standardRaw standardCJson where
  printable char hchar := decide_eq_true hchar
  nul := by decide
  standard text value hdocument := Json.read_eq_some.mpr hdocument
  quoted text value hparse := (Json.read_eq_some.mp hparse).quoted
  valueint number := by
    have hread := readInteger_intToString number.toInt
    change Int32.ofInt (readInteger (intToString number.toInt)) = number
    rw [hread, Int32.ofInt_toInt]

def schedInfos : List (List Char × TraceTag) :=
  [("sched".toList, { tag := 0, type := .kernel })]

def fullInfos : List (List Char × TraceTag) :=
  [("sched".toList, { tag := 0, type := .kernel }),
    ("ability".toList, { tag := 0x80000000, type := .user }),
    ("freq".toList, { tag := 0, type := .kernel })]

/-- Every option of `--boot_trace` is given, with kernel and user tags in turn. -/
def fullArgs : TraceArgs where
  tagsVec := ["ability".toList, "sched".toList, "freq".toList]
  clockType := "mono".toList
  bufferSize := 4096
  fileSize := 204800
  duration := 45
  remainingCount := 3
  bootFilePrefix := "night run".toList
  bootTraceOverwrite := true
  bootTraceIncrement := true

theorem boot_trace_round_trips_iff_full :
    handleBootTraceConfig fullInfos fullArgs =
        some (bootTraceConfig fullArgs ["sched".toList, "freq".toList] ["ability".toList]) ∧
      RoundTrips standardCJson fullInfos
        (bootTraceConfig fullArgs ["sched".toList, "freq".toList] ["ability".toList]) := by
  have hconfig : handleBootTraceConfig fullInfos fullArgs =
      some (bootTraceConfig fullArgs ["sched".toList, "freq".toList] ["ability".toList]) := by
    decide +kernel
  have haccepted : Accepted fullArgs := ⟨.inr (by decide), by decide, by decide⟩
  have hfront : fullArgs.bootFilePrefix.all fun char => Plain Json.standardRaw char := by
    decide
  have htags : fullArgs.tagsVec.all fun tag =>
      tag ≠ [] ∧ tag.all fun char => Plain Json.standardRaw char := by
    decide
  refine ⟨hconfig, (boot_trace_round_trips_iff isCJson_standard haccepted hconfig).mpr ⟨?_, ?_⟩⟩
  · simpa only [List.all_eq_true, decide_eq_true_eq] using hfront
  · simpa only [List.all_eq_true, decide_eq_true_eq] using htags

/-- A quote in the file prefix ends the string where the prefix is written. -/
theorem boot_trace_prefix_is_not_escaped :
    ¬ ∀ (args : TraceArgs) (config : BootTraceConfig), Accepted args →
      handleBootTraceConfig schedInfos args = some config →
        RoundTrips standardCJson schedInfos config := by
  intro hall
  have haccepted : Accepted { tagsVec := ["sched".toList], bootFilePrefix := "a\"b".toList } :=
    ⟨.inl rfl, by decide, by decide⟩
  have hround := hall _ _ haccepted rfl
  obtain ⟨⟨hfront, _⟩, _⟩ := (roundTrips_iff isCJson_standard
    (written_of_handle haccepted rfl)).mp hround
  exact (hfront '"' (by decide)).quote rfl

end BootTraceJson

end Hitrace
