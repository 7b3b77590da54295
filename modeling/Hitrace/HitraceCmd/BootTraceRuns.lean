import Hitrace.HitraceCmd.BootTraceUpdate

namespace Hitrace

open Library

/-! The output paths of boot traces that are captured one after another. -/

namespace BootTraceJson

/-- The names of the items that a run replaces. -/
def editedNames : List (List Char) :=
  ["result".toList, "increment_index".toList, "output".toList]

def isEdited (name : List Char) : Prop :=
  ∃ edited ∈ editedNames, SameName edited name

/-- The path of the trace that is captured after `index` successful ones. -/
def indexedPath (config : BootTraceConfig) (index : Nat) : List Char :=
  BootTrace.buildBootTraceOutputPathForPrefix config.filePrefix (Int32.ofNat index)

/-! The config file between two runs. -/

/-- The object that is stored after `index` successful captures. -/
structure Stored (config : BootTraceConfig) (index : Nat)
    (members : List (List Char × Json)) : Prop where
  tidy : Tidy (.object members)
  number : getObjectItem (.object members) "increment_index".toList =
    some (createNumber (Int32.ofNat index))
  output : getObjectItem (.object members) "output".toList =
    some (.string (indexedPath config index))
  others : ∀ name, ¬ isEdited name →
    getObjectItem (.object members) name = getObjectItem (configJson config) name
  once : ∀ name ∈ editedNames, Once members name

/-- The text of such an object. -/
structure Kept (cJson : CJsonPrinter) (config : BootTraceConfig) (index : Nat)
    (content : List Char) (members : List (List Char × Json)) : Prop where
  nonempty : content ≠ []
  parse : cJson.parse (cString content) = some (.object members)
  stored : Stored config index members

section Index

variable {config : BootTraceConfig} {index : Nat}

theorem index_not_neg (hindex : index < 2 ^ 31) : ¬ Int32.ofNat index < 0 := by
  rw [Int32.lt_iff_toInt_lt, Int32.toInt_ofNat_of_lt hindex, Int32.toInt_zero]
  omega

theorem index_succ (index : Nat) : Int32.ofNat index + 1 = Int32.ofNat (index + 1) := by
  rw [← Int32.ofInt_eq_ofNat, ← Int32.ofInt_eq_ofNat, Int.natCast_add, Int32.ofInt_add]
  rfl

theorem indexedPath_eq (hindex : index < 2 ^ 31) :
    indexedPath config index = BootTrace.bootTraceConfigDir ++ config.filePrefix ++
      "_".toList ++ Decimal.text index ++ ".sys".toList := by
  have hnonneg : 0 ≤ Int32.ofNat index := Int32.not_lt.mp (index_not_neg hindex)
  rw [indexedPath, BootTrace.buildBootTraceOutputPathForPrefix, if_pos hnonneg,
    Int32.toInt_ofNat_of_lt hindex]
  rfl

theorem indexedPath_injective {other : Nat} (hindex : index < 2 ^ 31) (hother : other < 2 ^ 31)
    (heq : indexedPath config index = indexedPath config other) : index = other := by
  rw [indexedPath_eq hindex, indexedPath_eq hother] at heq
  exact Decimal.text_injective (List.append_cancel_left (List.append_cancel_right heq))

theorem not_sameName_of_not_isEdited {name edited : List Char} (hname : ¬ isEdited name)
    (hedited : edited ∈ editedNames) : ¬ SameName edited name :=
  fun hsame => hname ⟨edited, hedited, hsame⟩

instance (name : List Char) : Decidable (isEdited name) :=
  inferInstanceAs (Decidable (∃ edited ∈ editedNames, SameName edited name))

theorem nul_not_mem_edited {name : List Char} (hname : name ∈ editedNames) : '\x00' ∉ name := by
  have hall : ∀ name ∈ editedNames, '\x00' ∉ name := by decide
  exact hall name hname

theorem eq_of_sameName_edited {first second : List Char} (hfirst : first ∈ editedNames)
    (hsecond : second ∈ editedNames) (hsame : SameName first second) : first = second := by
  have hdistinct : ∀ first ∈ editedNames, ∀ second ∈ editedNames,
      SameName first second → first = second := by decide
  exact hdistinct first hfirst second hsecond hsame

theorem once_replace_edited {members : List (List Char × Json)} {name : List Char} {item : Json}
    (hname : name ∈ editedNames) (honce : ∀ other ∈ editedNames, Once members other) :
    ∀ other ∈ editedNames, Once (replaceItem members name item) other := by
  intro other hother
  by_cases hsame : SameName name other
  · rw [← eq_of_sameName_edited hname hother hsame]
    exact once_replace (nul_not_mem_edited hname) (honce name hname)
  · exact once_replace_of_ne (nul_not_mem_edited hname) hsame (honce other hother)

end Index

section Update

variable {raw : Char → Bool} {cJson : CJsonPrinter} {config : BootTraceConfig} {index : Nat}
  {members : List (List Char × Json)} {content : List Char}

/-- What replacing an edited item leaves. -/
theorem Stored.replace {name : List Char} {item : Json} (hstored : Stored config index members)
    (hname : name ∈ editedNames) (hitem : Tidy item) :
    Tidy (.object (replaceItem members name item)) ∧
      (∀ other, ¬ isEdited other → getObjectItem (.object (replaceItem members name item)) other =
        getObjectItem (configJson config) other) ∧
      ∀ other ∈ editedNames, Once (replaceItem members name item) other := by
  have hnul := nul_not_mem_edited hname
  refine ⟨tidy_replace hnul hitem hstored.tidy, fun other hother => ?_,
    once_replace_edited hname hstored.once⟩
  rw [getObjectItem_replace_of_ne hnul (not_sameName_of_not_isEdited hother hname)]
  exact hstored.others other hother

theorem Stored.result (hstored : Stored config index members) (code : Int32) :
    Stored config index (replaceItem members "result".toList (createNumber code)) := by
  obtain ⟨htidy, hothers, honce⟩ :=
    hstored.replace (by decide : "result".toList ∈ editedNames) (tidy_createNumber code)
  refine ⟨htidy, ?_, ?_, hothers, honce⟩
  · rw [getObjectItem_replace_of_ne (by decide) (by decide)]
    exact hstored.number
  · rw [getObjectItem_replace_of_ne (by decide) (by decide)]
    exact hstored.output

theorem resolve_filePrefix {root : Json} (hnul : '\x00' ∉ config.filePrefix)
    (hnonempty : config.filePrefix ≠ [])
    (hitem : getObjectItem root "file_prefix".toList =
      getObjectItem (configJson config) "file_prefix".toList) :
    resolveBootTraceFilePrefixFromJson root = config.filePrefix := by
  have hconfig : getObjectItem (configJson config) "file_prefix".toList =
      some (.string config.filePrefix) := rfl
  rw [resolveBootTraceFilePrefixFromJson, hitem, hconfig, nonEmptyString_eq hnul hnonempty]
  rfl

theorem numberItem_createNumber (hjson : IsCJson raw cJson.toCJson) (number : Int32) :
    numberItem cJson.toCJson (some (createNumber number)) = some number := by
  rw [createNumber, numberItem, hjson.valueint]

/-- A successful capture takes the index and the path one further. -/
theorem Stored.bump (hjson : IsCJson raw cJson.toCJson) (hnul : '\x00' ∉ config.filePrefix)
    (hnonempty : config.filePrefix ≠ []) (hindex : index + 1 < 2 ^ 31)
    (hstored : Stored config index members) :
    ∃ bumped, applyBootTraceIncrementBump cJson (.object members) = .object bumped ∧
      Stored config (index + 1) bumped := by
  have hnumber := tidy_createNumber (Int32.ofNat (index + 1))
  obtain ⟨htidy, hothers, honce⟩ :=
    hstored.replace (by decide : "increment_index".toList ∈ editedNames) hnumber
  have hpath : '\x00' ∉ indexedPath config (index + 1) := nul_not_mem_builtPath hnul _
  have houtput := tidy_string hpath
  have hget := @getObjectItem_replace "increment_index".toList
    (createNumber (Int32.ofNat (index + 1))) members (by decide)
    (hstored.once _ (by decide))
  have hresolve := resolve_filePrefix hnul hnonempty (hothers "file_prefix".toList (by decide))
  refine ⟨replaceItem (replaceItem members "increment_index".toList
    (createNumber (Int32.ofNat (index + 1)))) "output".toList
      (.string (indexedPath config (index + 1))), ?_, ?_, ?_, ?_, ?_, ?_⟩
  · rw [applyBootTraceIncrementBump, hstored.number, numberItem_createNumber hjson]
    dsimp only
    rw [Option.bind_some, BootTrace.nextIndex, if_neg (index_not_neg (by omega)), index_succ]
    change addItemToObject (deleteItemFromObject (.object (replaceItem members _ _)) _) _
      (.string (cString (BootTrace.buildBootTraceOutputPathForPrefix
        (resolveBootTraceFilePrefixFromJson (.object (replaceItem members _ _))) _))) = _
    rw [hresolve, ← indexedPath, cString_eq hpath]
    rfl
  · exact tidy_replace (by decide) houtput htidy
  · rw [getObjectItem_replace_of_ne (by decide) (by decide)]
    exact hget
  · exact getObjectItem_replace (by decide) (honce "output".toList (by decide))
  · intro name hname
    rw [getObjectItem_replace_of_ne (by decide)
      (not_sameName_of_not_isEdited hname (by decide))]
    exact hothers name hname
  · exact once_replace_edited (by decide) honce

theorem cString_cString (text : List Char) : cString (cString text) = cString text := by
  rw [cString, cString, List.takeWhile_takeWhile]
  simp only [and_self, Bool.decide_eq_true]

/-- What is printed is read back, and is not empty. -/
theorem parse_print (hprinter : IsPrinter raw cJson) (htidy : Tidy (.object members)) :
    cString (cJson.print (.object members)) ≠ [] ∧
      cJson.parse (cString (cString (cJson.print (.object members)))) =
        some (.object members) := by
  have hdocument := hprinter.print _ htidy
  refine ⟨fun hnil => ?_, ?_⟩
  · obtain ⟨rest, hreads, _⟩ := hdocument
    obtain ⟨char, behind, htext, _⟩ := hreads.head
    rw [hnil] at htext
    cases htext
  · rw [cString_cString]
    exact hprinter.isCJson.standard _ _ hdocument

theorem Kept.of_print (hprinter : IsPrinter raw cJson) (hstored : Stored config index members) :
    Kept cJson config index (cString (cJson.print (.object members))) members where
  nonempty := (parse_print hprinter hstored.tidy).1
  parse := (parse_print hprinter hstored.tidy).2
  stored := hstored

theorem load_for_update (hkept : Kept cJson config index content members) :
    loadBootTraceConfigJsonForUpdate cJson content = some (.object members) := by
  rw [loadBootTraceConfigJsonForUpdate,
    if_neg (fun hempty => hkept.nonempty (List.isEmpty_iff.mp hempty)), hkept.parse]
  rfl

theorem Kept.save_ok (hprinter : IsPrinter raw cJson) (hnul : '\x00' ∉ config.filePrefix)
    (hnonempty : config.filePrefix ≠ []) (hindex : index + 1 < 2 ^ 31)
    (hkept : Kept cJson config index content members) :
    ∃ bumped, Kept cJson config (index + 1) (saveBootTraceResultToConfig cJson content .ok)
      bumped := by
  have hresult := hkept.stored.result (Int32.ofInt BootTrace.ExitCode.ok.value)
  obtain ⟨bumped, hbump, hstored⟩ := hresult.bump hprinter.isCJson hnul hnonempty hindex
  refine ⟨bumped, ?_⟩
  rw [saveBootTraceResultToConfig, load_for_update hkept]
  dsimp only
  rw [if_pos rfl]
  change Kept cJson config (index + 1) (cString (cJson.print (applyBootTraceIncrementBump cJson
    (.object (replaceItem members _ _))))) bumped
  rw [hbump]
  exact .of_print hprinter hstored

theorem Kept.save_other (hprinter : IsPrinter raw cJson) {code : BootTrace.ExitCode}
    (hcode : code ≠ .ok) (hkept : Kept cJson config index content members) :
    ∃ saved, Kept cJson config index (saveBootTraceResultToConfig cJson content code) saved := by
  refine ⟨replaceItem members "result".toList (createNumber (Int32.ofInt code.value)), ?_⟩
  rw [saveBootTraceResultToConfig, load_for_update hkept]
  dsimp only
  rw [if_neg hcode]
  exact .of_print hprinter (hkept.stored.result _)

end Update

/-! What a run loads. -/

section Loading

variable {raw : Char → Bool} {cJson : CJsonPrinter} {config : BootTraceConfig} {index : Nat}
  {members : List (List Char × Json)} {content : List Char}
  {allTagInfos : List (List Char × TraceTag)}

theorem append_tags_congr {root other : Json} {name : List Char} {out : List (List Char)}
    (hitem : getObjectItem root name = getObjectItem other name) :
    appendBootTraceSectionTags root name out = appendBootTraceSectionTags other name out := by
  rw [appendBootTraceSectionTags, appendBootTraceSectionTags, hitem]

/-- Tags and duration are looked up under names that no run edits. -/
theorem Stored.validates (hstored : Stored config index members) :
    validateBootTraceConfig cJson.toCJson (.object members) =
        validateBootTraceConfig cJson.toCJson (configJson config) ∧
      validateBootTraceCaptureTags allTagInfos (.object members) =
        validateBootTraceCaptureTags allTagInfos (configJson config) := by
  constructor
  · have hobject : objectItem (some (.object members)) = some (.object members) := rfl
    have hconfig : objectItem (some (configJson config)) = some (configJson config) := rfl
    have hduration := hstored.others "duration_sec".toList (by decide)
    simp only [validateBootTraceConfig, hobject, hconfig, hduration]
  · rw [validateBootTraceCaptureTags, validateBootTraceCaptureTags,
      append_tags_congr (hstored.others "kernel".toList (by decide)),
      append_tags_congr (hstored.others "userspace".toList (by decide))]

/-- The capture is told to write to the path of the index. -/
theorem Kept.load (hprinter : IsPrinter raw cJson) (hwritten : Written allTagInfos config)
    (hloaded : ∃ cfg, (validateBootTraceConfig cJson.toCJson (configJson config)).bind
      (fillBootTraceCaptureConfig cJson.toCJson allTagInfos (configJson config)) = some cfg)
    (hindex : index < 2 ^ 31) (hkept : Kept cJson config index content members) :
    ∃ cfg, loadBootTraceCaptureConfig cJson.toCJson allTagInfos content = some cfg ∧
      cfg.outputPath = indexedPath config index := by
  obtain ⟨cfg, hloaded⟩ := hloaded
  obtain ⟨durationSec, hduration, hfill⟩ := Option.bind_eq_some_iff.mp hloaded
  obtain ⟨list, htags, _⟩ := Option.map_eq_some_iff.mp hfill
  obtain ⟨hvalidate, hvalidateTags⟩ := @Stored.validates cJson config index members allTagInfos
    hkept.stored
  have hload : loadBootTraceCaptureConfig cJson.toCJson allTagInfos content =
      fillBootTraceCaptureConfig cJson.toCJson allTagInfos (.object members) durationSec := by
    rw [loadBootTraceCaptureConfig,
      if_neg (fun hempty => hkept.nonempty (List.isEmpty_iff.mp hempty)), hkept.parse]
    dsimp only
    rw [hvalidate, hduration]
  have hresolved : resolveBootTraceIncrementIndexFromJson cJson.toCJson (.object members) =
      Int32.ofNat index := by
    rw [resolveBootTraceIncrementIndexFromJson, hkept.stored.number,
      numberItem_createNumber hprinter.isCJson]
    rfl
  have hfront := resolve_filePrefix hwritten.filePrefix.2 hwritten.filePrefix.1
    (hkept.stored.others "file_prefix".toList (by decide))
  rw [hload, fillBootTraceCaptureConfig, hvalidateTags, htags]
  refine ⟨_, rfl, ?_⟩
  rw [(apply_file_keeps _).1, (apply_kernel_keeps _).1]
  dsimp only
  rw [hresolved, hfront, resolveBootTraceCaptureOutputPath,
    if_pos (Int32.not_lt.mp (index_not_neg hindex))]
  rfl

end Loading

/-! Runs one after another. -/

def Launch.resultCode (launch : Launch) : BootTrace.ExitCode :=
  if launch.active then .duplicate
  else if launch.flagSet && launch.captured then .ok
  else .configError

def Launch.captures (launch : Launch) : Bool :=
  !launch.active && launch.flagSet

/-- How many successful captures there are after the run. -/
def Launch.count (launch : Launch) (index : Nat) : Nat :=
  if launch.resultCode = .ok then index + 1 else index

/-- The file holds the object of an index between any two runs. -/
inductive Sequel (cJson : CJsonPrinter) (config : BootTraceConfig) :
    Nat → List Char → List Launch → List Outcome → Prop
  | done {index : Nat} {content : List Char} {members : List (List Char × Json)}
      (hkept : Kept cJson config index content members) : Sequel cJson config index content [] []
  | run {index : Nat} {content : List Char} {members : List (List Char × Json)}
      {launch : Launch} {launches : List Launch} {outcome : Outcome} {outcomes : List Outcome}
      (hkept : Kept cJson config index content members)
      (hcode : outcome.resultCode = launch.resultCode)
      (hcapture : outcome.capture =
        if launch.captures then some (indexedPath config index) else none)
      (hrest : Sequel cJson config (launch.count index) outcome.content launches outcomes) :
      Sequel cJson config index content (launch :: launches) (outcome :: outcomes)

section Running

variable {raw : Char → Bool} {cJson : CJsonPrinter} {config : BootTraceConfig} {index : Nat}
  {members : List (List Char × Json)} {content : List Char}
  {allTagInfos : List (List Char × TraceTag)} {launches : List Launch} {outcomes : List Outcome}

theorem Launch.count_le (launch : Launch) (index : Nat) :
    index ≤ launch.count index ∧ launch.count index ≤ index + 1 := by
  rw [Launch.count]
  split
  · exact ⟨Nat.le_succ index, Nat.le_refl _⟩
  · exact ⟨Nat.le_refl index, Nat.le_succ index⟩

/-- One run. -/
theorem Kept.run (hprinter : IsPrinter raw cJson) (hwritten : Written allTagInfos config)
    (hloaded : ∃ cfg, (validateBootTraceConfig cJson.toCJson (configJson config)).bind
      (fillBootTraceCaptureConfig cJson.toCJson allTagInfos (configJson config)) = some cfg)
    (hindex : index + 1 < 2 ^ 31) (hkept : Kept cJson config index content members)
    (launch : Launch) :
    (runBootTraceControl cJson allTagInfos content launch).resultCode = launch.resultCode ∧
      (runBootTraceControl cJson allTagInfos content launch).capture =
        (if launch.captures then some (indexedPath config index) else none) ∧
      ∃ saved, Kept cJson config (launch.count index)
        (runBootTraceControl cJson allTagInfos content launch).content saved := by
  obtain ⟨active, flagSet, captured⟩ := launch
  obtain ⟨hnonempty, hnul⟩ := hwritten.filePrefix
  cases active with
  | true => exact ⟨rfl, rfl, hkept.save_other hprinter (by decide)⟩
  | false =>
      cases flagSet with
      | false => exact ⟨rfl, rfl, hkept.save_other hprinter (by decide)⟩
      | true =>
          obtain ⟨cfg, hload, hpath⟩ := hkept.load hprinter hwritten hloaded (by omega)
          have hrun : runBootTraceControl cJson allTagInfos content ⟨false, true, captured⟩ =
              ⟨if captured then .ok else .configError, some cfg.outputPath,
                saveBootTraceResultToConfig cJson content
                  (if captured then .ok else .configError)⟩ := by
            rw [runBootTraceControl]
            dsimp only
            rw [hload]
            rfl
          rw [hrun, hpath]
          cases captured with
          | false => exact ⟨rfl, rfl, hkept.save_other hprinter (by decide)⟩
          | true => exact ⟨rfl, rfl, hkept.save_ok hprinter hnul hnonempty hindex⟩

theorem Kept.runs (hprinter : IsPrinter raw cJson) (hwritten : Written allTagInfos config)
    (hloaded : ∃ cfg, (validateBootTraceConfig cJson.toCJson (configJson config)).bind
      (fillBootTraceCaptureConfig cJson.toCJson allTagInfos (configJson config)) = some cfg)
    (hfew : index + launches.length < 2 ^ 31) (hkept : Kept cJson config index content members) :
    Sequel cJson config index content launches
      (BootTraceJson.runs cJson allTagInfos content launches) := by
  induction launches generalizing index content members with
  | nil => exact .done hkept
  | cons launch rest ih =>
      rw [List.length_cons] at hfew
      obtain ⟨hcode, hcapture, saved, hsaved⟩ :=
        hkept.run hprinter hwritten hloaded (by omega) launch
      have hcount := (launch.count_le index).2
      exact .run hkept hcode hcapture (ih (by omega) hsaved)

theorem Sequel.kept (hsequel : Sequel cJson config index content launches outcomes) :
    ∃ members, Kept cJson config index content members := by
  cases hsequel with
  | done hkept => exact ⟨_, hkept⟩
  | run hkept hcode hcapture hrest => exact ⟨_, hkept⟩

theorem Sequel.codes (hsequel : Sequel cJson config index content launches outcomes) :
    outcomes.map Outcome.resultCode = launches.map Launch.resultCode := by
  induction hsequel with
  | done hkept => rfl
  | run hkept hcode hcapture hrest ih => rw [List.map_cons, List.map_cons, hcode, ih]

theorem Launch.captures_of_ok {launch : Launch} (hcode : launch.resultCode = .ok) :
    launch.captures = true := by
  obtain ⟨active, flagSet, captured⟩ := launch
  cases active with
  | true => cases hcode
  | false =>
      cases flagSet with
      | false => cases hcode
      | true => rfl

theorem succeeded_eq {launch : Launch} {outcome : Outcome}
    (hcode : outcome.resultCode = launch.resultCode) :
    outcome.succeeded = decide (launch.resultCode = .ok) := by
  rw [Outcome.succeeded, hcode]

/-- The successful captures are numbered without a gap. -/
theorem Sequel.captures (hsequel : Sequel cJson config index content launches outcomes) :
    (outcomes.filter Outcome.succeeded).map Outcome.capture =
      (List.range' index (outcomes.countP Outcome.succeeded)).map
        fun number => some (indexedPath config number) := by
  induction hsequel with
  | done hkept => rfl
  | @run index content members launch launches outcome outcomes hkept hcode hcapture hrest ih =>
      have hsucceeded := succeeded_eq hcode
      by_cases hok : launch.resultCode = .ok
      · have htrue : outcome.succeeded = true := by rw [hsucceeded, decide_eq_true hok]
        rw [Launch.count, if_pos hok] at ih
        rw [Launch.captures_of_ok hok, if_pos rfl] at hcapture
        rw [List.filter_cons_of_pos htrue, List.countP_cons_of_pos htrue, List.map_cons, ih,
          List.range'_succ, List.map_cons, hcapture]
      · have hfalse : ¬ outcome.succeeded = true := by
          rw [hsucceeded, decide_eq_true_eq]
          exact hok
        rw [Launch.count, if_neg hok] at ih
        rw [List.filter_cons_of_neg hfalse, List.countP_cons_of_neg hfalse, ih]

/-- A later capture has a later path or the one of the current index. -/
theorem Sequel.capture_mem (hsequel : Sequel cJson config index content launches outcomes)
    {outcome : Outcome} (hmem : outcome ∈ outcomes) {path : List Char}
    (hpath : outcome.capture = some path) :
    ∃ number, index ≤ number ∧ number ≤ index + launches.length ∧
      path = indexedPath config number := by
  induction hsequel with
  | done hkept => cases hmem
  | @run index content members launch launches first outcomes hkept hcode hcapture hrest ih =>
      rcases List.mem_cons.mp hmem with rfl | hmem
      · rw [hcapture] at hpath
        split at hpath
        · cases hpath
          exact ⟨index, Nat.le_refl index, Nat.le_add_right _ _, rfl⟩
        · cases hpath
      · obtain ⟨number, hle, hbound, hsame⟩ := ih hmem
        have hcount := launch.count_le index
        rw [List.length_cons]
        exact ⟨number, by omega, by omega, hsame⟩

theorem Sequel.later (hsequel : Sequel cJson config index content launches outcomes)
    (hfew : index + launches.length < 2 ^ 31) :
    outcomes.Pairwise fun earlier later =>
      earlier.succeeded = true → later.capture ≠ earlier.capture := by
  induction hsequel with
  | done hkept => exact .nil
  | @run index content members launch launches outcome outcomes hkept hcode hcapture hrest ih =>
      rw [List.length_cons] at hfew
      have hcount := launch.count_le index
      refine .cons (fun later hmem hsucceeded heq => ?_) (ih (by omega))
      rw [succeeded_eq hcode, decide_eq_true_eq] at hsucceeded
      rw [Launch.captures_of_ok hsucceeded, if_pos rfl] at hcapture
      rw [hcapture] at heq
      rw [Launch.count, if_pos hsucceeded] at hrest hcount
      obtain ⟨number, hle, hbound, hsame⟩ := hrest.capture_mem hmem heq
      have hnumber := indexedPath_injective (by omega) (by omega) hsame
      omega

end Running

end BootTraceJson

end Hitrace
