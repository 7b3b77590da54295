import Hitrace.HitraceCmd.BootTraceRuns

namespace Hitrace

open Library

/-! The runs that follow a written configuration with an increment index. -/

namespace BootTraceJson

/-! The written object. -/

section Written

variable {raw : Char → Bool} {cJson : CJsonPrinter} {config : BootTraceConfig}
  {allTagInfos : List (List Char × TraceTag)}

theorem tidy_tags {list : List (List Char)} (hlist : ∀ tag ∈ list, '\x00' ∉ tag) :
    Tidy (.array (list.map .string)) := by
  refine tidy_array fun element helement => ?_
  obtain ⟨tag, htag, rfl⟩ := List.mem_map.mp helement
  exact tidy_string (hlist tag htag)

theorem tidy_kernelJson (hwritten : Written allTagInfos config) : Tidy (kernelJson config) := by
  rw [kernelJson, tidy_object]
  simp only [List.forall_mem_cons]
  refine ⟨⟨by decide, tidy_bool _⟩, ⟨by decide, ?_⟩, ⟨by decide, tidy_createNumber _⟩,
    ⟨by decide, ?_⟩, List.forall_mem_nil _⟩
  · exact tidy_tags fun tag htag => (hwritten.tags tag (List.mem_append_left _ htag)).1
  · exact tidy_string (isPrintable_clockType hwritten.clockType).2.1

theorem tidy_userSpaceJson (hwritten : Written allTagInfos config) :
    Tidy (userSpaceJson config) := by
  rw [userSpaceJson, tidy_object]
  simp only [List.forall_mem_cons]
  refine ⟨⟨by decide, tidy_bool _⟩, ⟨by decide, ?_⟩, List.forall_mem_nil _⟩
  exact tidy_tags fun tag htag => (hwritten.tags tag (List.mem_append_right _ htag)).1

theorem tidy_configJson (hwritten : Written allTagInfos config) : Tidy (configJson config) := by
  rw [configJson, tidy_object]
  simp only [List.forall_mem_cons]
  refine ⟨⟨by decide, tidy_createNumber 1⟩, ⟨by decide, tidy_string (by decide)⟩,
    ⟨by decide, tidy_createNumber _⟩, ⟨by decide, ?_⟩, ⟨by decide, tidy_createNumber _⟩,
    ⟨by decide, tidy_string hwritten.filePrefix.2⟩, ⟨by decide, tidy_bool _⟩,
    ⟨by decide, tidy_bool _⟩, ⟨by decide, tidy_createNumber _⟩,
    ⟨by decide, tidy_kernelJson hwritten⟩, ⟨by decide, tidy_userSpaceJson hwritten⟩,
    List.forall_mem_nil _⟩
  exact tidy_string (nul_not_mem_outputPath hwritten.filePrefix.2)

theorem kept_configText (hjson : IsCJson raw cJson.toCJson) (hwritten : Written allTagInfos config)
    (hplain : PlainConfig raw config) (hindex : config.incrementIndex = 0) :
    ∃ members, Kept cJson config 0 (buildBootTraceConfigJson config) members := by
  have hdocument := document_config hjson hplain (isPrintable_clockType hwritten.clockType).1
  have hparse := hjson.standard _ _ hdocument
  rw [buildBootTraceConfigJson_eq]
  refine ⟨_, ?_, ?_, tidy_configJson hwritten, ?_, ?_, fun name hname => rfl, ?_⟩
  · exact List.cons_ne_nil _ _
  · rw [cString_eq (nul_not_mem_configText hwritten), hparse]
    rfl
  · change some (Json.number (intToString config.incrementIndex.toInt)) = _
    rw [hindex]
    rfl
  · change some (Json.string (outputPath config)) = _
    rw [outputPath, hindex]
    rfl
  · refine List.forall_mem_cons.mpr ⟨?_, List.forall_mem_cons.mpr
      ⟨?_, List.forall_mem_singleton.mpr ?_⟩⟩
    · exact Nat.zero_le 1
    · exact Nat.le_refl 1
    · exact Nat.le_refl 1

end Written

/-! What is stored after the runs. -/

def storedItem (cJson : CJsonPrinter) (content name : List Char) : Option Json :=
  (cJson.parse (cString content)).bind fun root => getObjectItem root name

/-- The config file after the runs so far. -/
def lastContent (content : List Char) (outcomes : List Outcome) : List Char :=
  (outcomes.getLast?.map Outcome.content).getD content

/-- Every successful capture has the path of its number, and nothing but the result and the
index with its path changes. -/
structure Numbered (cJson : CJsonPrinter) (config : BootTraceConfig) (content : List Char)
    (launches : List Launch) (outcomes : List Outcome) : Prop where
  codes : outcomes.map Outcome.resultCode = launches.map Launch.resultCode
  captures : (outcomes.filter Outcome.succeeded).map Outcome.capture =
    (List.range (outcomes.countP Outcome.succeeded)).map fun number =>
      some (BootTrace.buildBootTraceOutputPathForPrefix config.filePrefix (Int32.ofNat number))
  later : outcomes.Pairwise fun earlier later =>
    earlier.succeeded = true → later.capture ≠ earlier.capture
  unsuccessful : ∀ (before : List Outcome) (outcome : Outcome) (behind : List Outcome),
    outcomes = before ++ outcome :: behind → outcome.succeeded = false →
      storedItem cJson outcome.content "increment_index".toList =
        storedItem cJson (lastContent content before) "increment_index".toList
  stored : ∀ text ∈ content :: outcomes.map Outcome.content, ∃ index : Int32,
    storedItem cJson text "increment_index".toList = some (createNumber index) ∧
      storedItem cJson text "output".toList =
        some (.string (BootTrace.buildBootTraceOutputPathForPrefix config.filePrefix index))
  others : ∀ outcome ∈ outcomes, ∀ name, ¬ isEdited name →
    storedItem cJson outcome.content name = storedItem cJson content name

section Running

variable {raw : Char → Bool} {cJson : CJsonPrinter} {config : BootTraceConfig} {index : Nat}
  {members : List (List Char × Json)} {content : List Char} {args : TraceArgs}
  {allTagInfos : List (List Char × TraceTag)} {launches : List Launch} {outcomes : List Outcome}

theorem Kept.storedItem_eq (hkept : Kept cJson config index content members)
    (name : List Char) : storedItem cJson content name = getObjectItem (.object members) name := by
  rw [storedItem, hkept.parse]
  rfl

theorem Kept.index_eq (hkept : Kept cJson config index content members) :
    storedItem cJson content "increment_index".toList =
      some (createNumber (Int32.ofNat index)) := by
  rw [hkept.storedItem_eq]
  exact hkept.stored.number

theorem Sequel.kept_of_mem (hsequel : Sequel cJson config index content launches outcomes) :
    ∀ text ∈ content :: outcomes.map Outcome.content,
      ∃ number members, Kept cJson config number text members := by
  induction hsequel with
  | @done index content members hkept =>
      exact List.forall_mem_singleton.mpr ⟨index, members, hkept⟩
  | @run index content members launch launches outcome outcomes hkept hcode hcapture hrest ih =>
      exact List.forall_mem_cons.mpr ⟨⟨index, members, hkept⟩, ih⟩

theorem Sequel.unsuccessful (hsequel : Sequel cJson config index content launches outcomes) :
    ∀ (before : List Outcome) (outcome : Outcome) (behind : List Outcome),
      outcomes = before ++ outcome :: behind → outcome.succeeded = false →
        storedItem cJson outcome.content "increment_index".toList =
          storedItem cJson (lastContent content before) "increment_index".toList := by
  induction hsequel with
  | done hkept =>
      intro before outcome behind heq
      cases before <;> cases heq
  | @run index content members launch launches first outcomes hkept hcode hcapture hrest ih =>
      intro before outcome behind heq hfailed
      cases before with
      | nil =>
          obtain ⟨rfl, rfl⟩ := List.cons.inj heq
          rw [succeeded_eq hcode, decide_eq_false_iff_not] at hfailed
          rw [Launch.count, if_neg hfailed] at hrest
          obtain ⟨saved, hsaved⟩ := hrest.kept
          rw [hsaved.index_eq]
          exact hkept.index_eq.symm
      | cons head tail =>
          obtain ⟨rfl, hrestEq⟩ := List.cons.inj heq
          rw [ih tail outcome behind hrestEq hfailed]
          have hlast : lastContent content (first :: tail) = lastContent first.content tail := by
            rw [lastContent, lastContent, List.getLast?_cons]
            cases tail.getLast? with
            | none => rfl
            | some last => rfl
          rw [hlast]

theorem Sequel.numbered (hsequel : Sequel cJson config 0 content launches outcomes)
    (hfew : launches.length < 2 ^ 31) : Numbered cJson config content launches outcomes where
  codes := hsequel.codes
  captures := by
    rw [List.range_eq_range']
    exact hsequel.captures
  later := hsequel.later (by omega)
  unsuccessful := hsequel.unsuccessful
  stored text htext := by
    obtain ⟨number, members, hkept⟩ := hsequel.kept_of_mem text htext
    refine ⟨Int32.ofNat number, hkept.index_eq, ?_⟩
    rw [hkept.storedItem_eq]
    exact hkept.stored.output
  others outcome houtcome name hname := by
    obtain ⟨members, hstart⟩ := hsequel.kept
    obtain ⟨number, saved, hkept⟩ := hsequel.kept_of_mem outcome.content
      (List.mem_cons_of_mem _ (List.mem_map_of_mem houtcome))
    rw [hkept.storedItem_eq, hstart.storedItem_eq, hkept.stored.others name hname,
      hstart.stored.others name hname]

/-- The boot traces after a configuration that is loaded as it was written. -/
theorem boot_traces_are_numbered (hprinter : IsPrinter raw cJson) (haccepted : Accepted args)
    (hincrement : args.bootTraceIncrement = true)
    (hconfig : handleBootTraceConfig allTagInfos args = some config)
    (hround : RoundTrips cJson.toCJson allTagInfos config) (hfew : launches.length < 2 ^ 31) :
    Numbered cJson config (buildBootTraceConfigJson config) launches
      (runs cJson allTagInfos (buildBootTraceConfigJson config) launches) := by
  have hjson := hprinter.isCJson
  have hwritten := written_of_handle haccepted hconfig
  obtain ⟨hplain, hnonempty⟩ := plain_of_roundTrips hjson hwritten hround
  have hindex : config.incrementIndex = 0 := by
    obtain ⟨kernelTags, userTags, rfl, _⟩ := handle_eq_some hconfig
    rw [bootTraceConfig]
    exact if_pos hincrement
  obtain ⟨members, hkept⟩ := kept_configText hjson hwritten hplain hindex
  have hloaded := load_configJson hjson hwritten hplain hnonempty
  exact (hkept.runs hprinter hwritten ⟨_, hloaded⟩ (by omega)).numbered hfew

end Running

/-! The printer of standard JSON. -/

def standardPrinter : CJsonPrinter where
  toCJson := standardCJson
  print value := Json.print value []

theorem isPrinter_standard : IsPrinter Json.standardRaw standardPrinter where
  isCJson := isCJson_standard
  print value htidy := by
    have hnumeric : Json.Numeric value := by
      intro literal hwithin
      obtain ⟨number, rfl⟩ := htidy.numbers literal hwithin
      exact isNumber_intToString number.toInt
    have hraw : ∀ char, ' ' ≤ char → Json.standardRaw char = true :=
      fun char hchar => decide_eq_true hchar
    change Json.Document Json.standardRaw (cString (Json.print value [])) value
    rw [cString_eq (Json.nul_not_mem_print hraw (by decide) hnumeric)]
    exact Json.document_print hraw hnumeric

def incrementArgs : TraceArgs :=
  { tagsVec := ["sched".toList], bootTraceIncrement := true }

/-- A success, a duplicate launch, a failed capture and a success. -/
def sampleLaunches : List Launch :=
  [⟨false, true, true⟩, ⟨true, true, true⟩, ⟨false, true, false⟩, ⟨false, true, true⟩]

theorem accepted_incrementArgs : Accepted incrementArgs :=
  ⟨.inl rfl, by decide, by decide⟩

theorem roundTrips_incrementArgs : RoundTrips standardCJson schedInfos
    (bootTraceConfig incrementArgs ["sched".toList] []) := by
  have hwritten : Written schedInfos (bootTraceConfig incrementArgs ["sched".toList] []) :=
    written_of_handle accepted_incrementArgs rfl
  refine roundTrips_of_plain isCJson_standard hwritten ⟨?_, ?_⟩ (by decide)
  · exact isCJson_standard.plain (by decide)
  · intro tag htag
    rw [List.mem_singleton.mp htag]
    exact isCJson_standard.plain (by decide)

theorem boot_traces_are_numbered_sample :
    Numbered standardPrinter (bootTraceConfig incrementArgs ["sched".toList] [])
      (buildBootTraceConfigJson (bootTraceConfig incrementArgs ["sched".toList] []))
      sampleLaunches (runs standardPrinter schedInfos
        (buildBootTraceConfigJson (bootTraceConfig incrementArgs ["sched".toList] []))
        sampleLaunches) :=
  boot_traces_are_numbered isPrinter_standard accepted_incrementArgs rfl rfl
    roundTrips_incrementArgs (by decide)

end BootTraceJson

end Hitrace
