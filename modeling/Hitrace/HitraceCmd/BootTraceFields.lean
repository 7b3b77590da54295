import Hitrace.HitraceCmd.BootTraceRuns

namespace Hitrace

open Library

/-! The processes of `BootTrace` on the text of the config file. -/

namespace BootTrace

/-- The process goes from `state` to `final` while the others stand still. -/
def Alone (process : Nat) (state final : State) : Prop :=
  ∃ actions : List Action, machine.run state (actions.map (Label.mk process)) = some final

theorem Alone.refl (process : Nat) (state : State) : Alone process state state := ⟨[], rfl⟩

theorem Alone.step {process : Nat} {state next final : State} {phase : Phase} {action : Action}
    (hphase : state.phases process = phase) (hact : state.act process action phase = some next)
    (halone : Alone process next final) : Alone process state final := by
  obtain ⟨actions, hrun⟩ := halone
  have hstep : machine.step state ⟨process, action⟩ = some next := by
    subst hphase
    exact hact
  refine ⟨action :: actions, ?_⟩
  rw [List.map_cons, machine.run_cons_of_step hstep]
  exact hrun

theorem Alone.trans {process : Nat} {state middle final : State}
    (hfirst : Alone process state middle) (hsecond : Alone process middle final) :
    Alone process state final := by
  obtain ⟨first, hfirst⟩ := hfirst
  obtain ⟨second, hsecond⟩ := hsecond
  refine ⟨first ++ second, ?_⟩
  rw [List.map_append, machine.run_append, hfirst]
  exact hsecond

end BootTrace

namespace BootTraceJson

def configFields (cJson : CJsonPrinter) (root : Json) : BootTrace.BootTraceConfig where
  durationSec :=
    (numberItem cJson.toCJson (getObjectItem root "duration_sec".toList)).map Int32.toInt
  tags := appendBootTraceSectionTags root "userspace".toList
    (appendBootTraceSectionTags root "kernel".toList [])
  incrementIndex := numberItem cJson.toCJson (getObjectItem root "increment_index".toList)
  filePrefix := nonEmptyString (getObjectItem root "file_prefix".toList)
  output := nonEmptyString (getObjectItem root "output".toList)
  result := (numberItem cJson.toCJson (getObjectItem root "result".toList)).map Int32.toInt

def configFile (cJson : CJsonPrinter) (content : List Char) : BootTrace.ConfigFile :=
  if content.isEmpty then .empty
  else
    match objectItem (cJson.parse (cString content)) with
    | none => .broken
    | some root => .object (configFields cJson root)

/-- What `cJSON_Print` writes back without a change, with at most one item of each name that a
run replaces. -/
structure Editable (members : List (List Char × Json)) : Prop where
  tidy : Tidy (.object members)
  once : ∀ name ∈ editedNames, Once members name

section Fields

variable {raw : Char → Bool} {cJson : CJsonPrinter} {members : List (List Char × Json)}
  {content : List Char}

theorem Editable.replace {name : List Char} {item : Json} (heditable : Editable members)
    (hname : name ∈ editedNames) (hitem : Tidy item) :
    Editable (replaceItem members name item) where
  tidy := tidy_replace (nul_not_mem_edited hname) hitem heditable.tidy
  once := once_replace_edited hname heditable.once

theorem getObjectItem_free {name free : List Char} {item : Json} (hname : name ∈ editedNames)
    (hfree : ¬ isEdited free) :
    getObjectItem (.object (replaceItem members name item)) free =
      getObjectItem (.object members) free :=
  getObjectItem_replace_of_ne (nul_not_mem_edited hname) (not_sameName_of_not_isEdited hfree hname)

/-- Duration, tags and prefix stand under names that no run replaces. -/
theorem configFields_congr {root other : Json}
    (hfree : ∀ name, ¬ isEdited name → getObjectItem root name = getObjectItem other name) :
    configFields cJson root =
      { configFields cJson other with
        incrementIndex := (configFields cJson root).incrementIndex
        output := (configFields cJson root).output
        result := (configFields cJson root).result } := by
  have hduration := hfree "duration_sec".toList (by decide)
  have hfront := hfree "file_prefix".toList (by decide)
  have hkernel := hfree "kernel".toList (by decide)
  have huserSpace := hfree "userspace".toList (by decide)
  simp only [configFields, hduration, hfront, append_tags_congr hkernel,
    append_tags_congr huserSpace]

theorem configFields_result (hjson : IsCJson raw cJson.toCJson) (heditable : Editable members)
    (code : Int32) :
    configFields cJson (.object (replaceItem members "result".toList (createNumber code))) =
      { configFields cJson (.object members) with result := some code.toInt } := by
  have hresult : getObjectItem (.object (replaceItem members "result".toList
      (createNumber code))) "result".toList = some (createNumber code) :=
    getObjectItem_replace (by decide) (heditable.once _ (by decide))
  have hnumber : getObjectItem (.object (replaceItem members "result".toList
      (createNumber code))) "increment_index".toList =
        getObjectItem (.object members) "increment_index".toList :=
    getObjectItem_replace_of_ne (by decide) (by decide)
  have houtput : getObjectItem (.object (replaceItem members "result".toList
      (createNumber code))) "output".toList = getObjectItem (.object members) "output".toList :=
    getObjectItem_replace_of_ne (by decide) (by decide)
  rw [configFields_congr fun _ => getObjectItem_free (by decide)]
  simp only [configFields, hresult, hnumber, houtput, numberItem_createNumber hjson,
    Option.map_some]

/-! The bump of the index. -/

theorem nul_not_mem_cString (text : List Char) : '\x00' ∉ cString text := by
  intro hmem
  have hchar := List.mem_takeWhile_imp hmem
  cases hchar

theorem nul_not_mem_resolved (root : Json) :
    '\x00' ∉ resolveBootTraceFilePrefixFromJson root := by
  rw [resolveBootTraceFilePrefixFromJson]
  cases hentry : nonEmptyString (getObjectItem root "file_prefix".toList) with
  | none => decide
  | some shown =>
      obtain ⟨_, text, _, hshown⟩ := nonEmptyString_eq_some hentry
      rw [Option.getD_some, ← hshown]
      exact nul_not_mem_cString text

theorem builtPath_ne_nil (front : List Char) (index : Int32) :
    BootTrace.buildBootTraceOutputPathForPrefix front index ≠ [] := by
  rw [BootTrace.buildBootTraceOutputPathForPrefix]
  split
  · exact List.append_ne_nil_of_right_ne_nil _ (by decide)
  · exact List.append_ne_nil_of_right_ne_nil _ (by decide)

/-- The fields are bumped as by `BootTrace` when there is a next index. -/
theorem incrementBump_configFields {root : Json} {newIdx : Int32}
    (hnext : (configFields cJson root).incrementIndex.bind BootTrace.nextIndex = some newIdx) :
    (configFields cJson root).incrementBump =
      { configFields cJson root with
        incrementIndex := some newIdx
        output := some (BootTrace.buildBootTraceOutputPathForPrefix
          (resolveBootTraceFilePrefixFromJson root) newIdx) } := by
  rw [BootTrace.BootTraceConfig.incrementBump, hnext]
  dsimp only [configFields]
  rw [resolveBootTraceFilePrefixFromJson]
  cases hentry : nonEmptyString (getObjectItem root "file_prefix".toList) with
  | none => rfl
  | some shown =>
      obtain ⟨hnonempty, _⟩ := nonEmptyString_eq_some hentry
      cases shown with
      | nil => exact absurd rfl hnonempty
      | cons char rest => rfl

/-- The index and the path are replaced one after the other. -/
theorem configFields_indexed (hjson : IsCJson raw cJson.toCJson) (heditable : Editable members)
    (newIdx : Int32) {path : List Char} (hpath : '\x00' ∉ path) (hnonempty : path ≠ []) :
    configFields cJson (.object (replaceItem (replaceItem members "increment_index".toList
        (createNumber newIdx)) "output".toList (.string path))) =
      { configFields cJson (.object members) with
        incrementIndex := some newIdx
        output := some path } := by
  have hnumber := @getObjectItem_replace "increment_index".toList (createNumber newIdx) members
    (by decide) (heditable.once _ (by decide))
  have hindexed := heditable.replace (by decide : "increment_index".toList ∈ editedNames)
    (tidy_createNumber newIdx)
  generalize hmiddle : replaceItem members "increment_index".toList (createNumber newIdx) =
    middle at hnumber hindexed
  have houtput := @getObjectItem_replace "output".toList (.string path) middle (by decide)
    (hindexed.once _ (by decide))
  have hresult : getObjectItem (.object (replaceItem middle "output".toList (.string path)))
      "result".toList = getObjectItem (.object members) "result".toList := by
    rw [getObjectItem_replace_of_ne (by decide) (by decide), ← hmiddle]
    exact getObjectItem_replace_of_ne (by decide) (by decide)
  have hindex : getObjectItem (.object (replaceItem middle "output".toList (.string path)))
      "increment_index".toList = some (createNumber newIdx) := by
    rw [getObjectItem_replace_of_ne (by decide) (by decide)]
    exact hnumber
  have hfree (name : List Char) (hname : ¬ isEdited name) :
      getObjectItem (.object (replaceItem middle "output".toList (.string path))) name =
        getObjectItem (.object members) name := by
    rw [getObjectItem_free (by decide) hname, ← hmiddle]
    exact getObjectItem_free (by decide) hname
  rw [configFields_congr hfree]
  simp only [configFields, hindex, houtput, hresult, numberItem_createNumber hjson,
    nonEmptyString_eq hpath hnonempty]

theorem configFields_bump (hjson : IsCJson raw cJson.toCJson) (heditable : Editable members) :
    ∃ bumped, applyBootTraceIncrementBump cJson (.object members) = .object bumped ∧
      Editable bumped ∧
      configFields cJson (.object bumped) =
        (configFields cJson (.object members)).incrementBump := by
  rw [applyBootTraceIncrementBump]
  dsimp only
  cases hnext : (numberItem cJson.toCJson
      (getObjectItem (.object members) "increment_index".toList)).bind BootTrace.nextIndex with
  | none =>
      refine ⟨members, rfl, heditable, ?_⟩
      have hfields : (configFields cJson (.object members)).incrementIndex.bind
          BootTrace.nextIndex = none := hnext
      rw [BootTrace.BootTraceConfig.incrementBump, hfields]
  | some newIdx =>
      have hindexed := heditable.replace (by decide : "increment_index".toList ∈ editedNames)
        (tidy_createNumber newIdx)
      have hfront : resolveBootTraceFilePrefixFromJson (.object (replaceItem members
          "increment_index".toList (createNumber newIdx))) =
            resolveBootTraceFilePrefixFromJson (.object members) := by
        rw [resolveBootTraceFilePrefixFromJson,
          getObjectItem_replace_of_ne (by decide) (by decide)]
        rfl
      have hpath := nul_not_mem_builtPath (nul_not_mem_resolved (.object members)) newIdx
      refine ⟨replaceItem (replaceItem members "increment_index".toList (createNumber newIdx))
        "output".toList (.string (BootTrace.buildBootTraceOutputPathForPrefix
          (resolveBootTraceFilePrefixFromJson (.object members)) newIdx)), ?_,
        hindexed.replace (by decide) (tidy_string hpath), ?_⟩
      · change addItemToObject (deleteItemFromObject (.object (replaceItem members _ _)) _) _
          (.string (cString (BootTrace.buildBootTraceOutputPathForPrefix
            (resolveBootTraceFilePrefixFromJson (.object (replaceItem members _ _))) _))) = _
        rw [hfront, cString_eq hpath]
        rfl
      · rw [incrementBump_configFields hnext]
        exact configFields_indexed hjson heditable newIdx hpath (builtPath_ne_nil _ _)

/-! The save, and the whole of a run. -/

theorem exists_members {root : Json}
    (hload : loadBootTraceConfigJsonForUpdate cJson content = some root) :
    ∃ members, root = .object members := by
  rw [loadBootTraceConfigJsonForUpdate] at hload
  split at hload
  · cases hload
  · unfold objectItem at hload
    split at hload
    · next members _ => exact ⟨members, (Option.some.inj hload).symm⟩
    · cases hload

theorem loadForUpdate_configFile :
    (configFile cJson content).loadForUpdate true =
      (loadBootTraceConfigJsonForUpdate cJson content).map (configFields cJson) := by
  rw [configFile, loadBootTraceConfigJsonForUpdate]
  split
  · rfl
  · cases objectItem (cJson.parse (cString content)) with
    | none => rfl
    | some root => rfl

theorem configFile_print (hprinter : IsPrinter raw cJson) (heditable : Editable members) :
    configFile cJson (cString (cJson.print (.object members))) =
      .object (configFields cJson (.object members)) := by
  obtain ⟨hnonempty, hparse⟩ := parse_print hprinter heditable.tidy
  rw [configFile, if_neg fun hempty => hnonempty (List.isEmpty_iff.mp hempty), hparse]
  rfl

/-- `SaveBootTraceResultToConfig` writes what `BootTrace` records. -/
theorem configFile_save (hprinter : IsPrinter raw cJson)
    (hload : loadBootTraceConfigJsonForUpdate cJson content = some (.object members))
    (heditable : Editable members) (code : BootTrace.ExitCode) :
    configFile cJson (saveBootTraceResultToConfig cJson content code) =
      .object ((configFields cJson (.object members)).record code) := by
  have hcode : (Int32.ofInt code.value).toInt = code.value := by cases code <;> rfl
  have hresult := configFields_result hprinter.isCJson heditable (Int32.ofInt code.value)
  have hrecorded := heditable.replace (by decide : "result".toList ∈ editedNames)
    (tidy_createNumber (Int32.ofInt code.value))
  rw [hcode] at hresult
  rw [saveBootTraceResultToConfig, hload, BootTrace.BootTraceConfig.record]
  dsimp only
  split
  · obtain ⟨bumped, hbump, hbumped, hfields⟩ := configFields_bump hprinter.isCJson hrecorded
    change configFile cJson (cString (cJson.print (applyBootTraceIncrementBump cJson
      (.object (replaceItem members _ _))))) = _
    rw [hbump, configFile_print hprinter hbumped, hfields, hresult]
  · change configFile cJson (cString (cJson.print (.object (replaceItem members _ _)))) = _
    rw [configFile_print hprinter hrecorded, hresult]

variable {allTagInfos : List (List Char × TraceTag)}

def supportsTags (allTagInfos : List (List Char × TraceTag)) : BootTrace.ConfigFile → Bool
  | .object config => config.tags.all fun tag => (allTagInfos.lookup tag).isSome
  | _ => false

theorem isSome_validateBootTraceCaptureTags {root : Json} :
    (validateBootTraceCaptureTags allTagInfos root).isSome =
      (!(configFields cJson root).tags.isEmpty &&
        (configFields cJson root).tags.all fun tag => (allTagInfos.lookup tag).isSome) := by
  rw [validateBootTraceCaptureTags]
  change (if (configFields cJson root).tags.isEmpty then none else if
    ((configFields cJson root).tags.all fun tag => (allTagInfos.lookup tag).isSome) then
      some (configFields cJson root).tags else none).isSome = _
  cases (configFields cJson root).tags.isEmpty with
  | true => rfl
  | false =>
      cases (configFields cJson root).tags.all fun tag => (allTagInfos.lookup tag).isSome with
      | true => rfl
      | false => rfl

theorem loads_configFile :
    (configFile cJson content).loads (supportsTags allTagInfos (configFile cJson content)) =
      (loadBootTraceCaptureConfig cJson.toCJson allTagInfos content).isSome := by
  rw [configFile, loadBootTraceCaptureConfig]
  split
  · rfl
  · cases cJson.parse (cString content) with
    | none => rfl
    | some root =>
        dsimp only
        rw [validateBootTraceConfig]
        cases hobject : objectItem (some root) with
        | none => rfl
        | some object =>
            have hroot : object = root := by
              unfold objectItem at hobject
              split at hobject
              · next heq =>
                  cases heq
                  cases hobject
                  rfl
              · cases hobject
            subst hroot
            dsimp only [BootTrace.ConfigFile.loads, supportsTags, configFields]
            cases numberItem cJson.toCJson (getObjectItem object "duration_sec".toList) with
            | none => rfl
            | some duration =>
                have hpositive : (Option.map Int32.toInt (some duration)).any (0 < ·) =
                    decide (¬ duration ≤ 0) := by
                  rw [Option.map_some, Option.any_some, decide_eq_decide,
                    Int32.le_iff_toInt_le, Int32.toInt_zero, Int.not_le]
                rw [hpositive, Bool.and_assoc]
                change (decide (¬ duration ≤ 0) && (!(configFields cJson object).tags.isEmpty &&
                  (configFields cJson object).tags.all fun tag =>
                    (allTagInfos.lookup tag).isSome)) = _
                rw [← isSome_validateBootTraceCaptureTags]
                by_cases hduration : duration ≤ 0
                · simp only [hduration, if_true, not_true_eq_false, decide_false,
                    Bool.false_and, Option.isSome_none]
                · simp only [hduration, if_false, not_false_eq_true, decide_true,
                    Bool.true_and, fillBootTraceCaptureConfig, Option.isSome_map]

open BootTrace in
/-- A save alone leaves the text of `SaveBootTraceResultToConfig`. -/
theorem alone_save (hprinter : IsPrinter raw cJson)
    (heditable : ∀ members,
      loadBootTraceConfigJsonForUpdate cJson content = some (.object members) → Editable members)
    {state : State} {process : Nat} {save : Save} (hphase : state.phases process = .saving save)
    (hfile : state.file = configFile cJson content) :
    ∃ final, Alone process state final ∧ final.phases process = save.after ∧
      final.file = configFile cJson (saveBootTraceResultToConfig cJson content save.code) ∧
        final.active = state.active := by
  have hread : state.file.loadForUpdate true =
      (loadBootTraceConfigJsonForUpdate cJson content).map (configFields cJson) :=
    hfile ▸ loadForUpdate_configFile
  cases hload : loadBootTraceConfigJsonForUpdate cJson content with
  | none =>
      have hact : state.act process (.readConfig true) (.saving save) =
          some (state.move process save.after) := by
        rw [State.act, hread, hload]
        rfl
      refine ⟨_, .step hphase hact (.refl _ _), move_phases_self _ _ _, ?_, rfl⟩
      rw [saveBootTraceResultToConfig, hload]
      exact hfile
  | some root =>
      obtain ⟨members, rfl⟩ := exists_members hload
      have hact : state.act process (.readConfig true) (.saving save) =
          some (state.move process (.updating save
            ((configFields cJson (.object members)).record save.code))) := by
        rw [State.act, hread, hload]
        rfl
      generalize hrecorded : (configFields cJson (.object members)).record save.code = config
        at hact
      have hwritten (truncated : State) (hempty : truncated.file = .empty) :
          truncated.act process (.writeConfig true .broken) (.writing save config) =
            some (State.move { truncated with file := .object config } process save.after) := by
        rw [State.act, if_pos ⟨rfl, hempty⟩]
      have htruncated (opened : State) :
          opened.act process (.truncateConfig true) (.updating save config) =
            some (State.move { opened with file := .empty } process (.writing save config)) :=
        rfl
      refine ⟨_, .step hphase hact (.step (move_phases_self _ _ _) (htruncated _)
        (.step (move_phases_self _ _ _) (hwritten _ rfl) (.refl _ _))),
        move_phases_self _ _ _, ?_, rfl⟩
      rw [configFile_save hprinter hload (heditable members hload), hrecorded]
      rfl

open BootTrace in
/-- The owner clears the flag behind its save. -/
theorem alone_ownerSave (hprinter : IsPrinter raw cJson)
    (heditable : ∀ members,
      loadBootTraceConfigJsonForUpdate cJson content = some (.object members) → Editable members)
    {state : State} {process : Nat} {code : ExitCode}
    (hphase : state.phases process = .saving (ownerSave code))
    (hfile : state.file = configFile cJson content) :
    ∃ final, Alone process state final ∧ final.phases process = .exited code ∧
      final.file = configFile cJson (saveBootTraceResultToConfig cJson content code) ∧
        final.active = false := by
  obtain ⟨saved, halone, hclearing, hsaved, _⟩ := alone_save hprinter heditable hphase hfile
  have hcleared : saved.act process (.clearFlag true) (.clearing code) =
      some (State.move { saved with active := saved.active && !true } process (.exited code)) :=
    rfl
  exact ⟨_, halone.trans (.step hclearing hcleared (.refl _ _)), move_phases_self _ _ _, hsaved,
    Bool.and_false _⟩

open BootTrace in
theorem alone_owner (hprinter : IsPrinter raw cJson)
    (heditable : ∀ members,
      loadBootTraceConfigJsonForUpdate cJson content = some (.object members) → Editable members)
    (allTagInfos : List (List Char × TraceTag)) (captured : Bool) {state : State} {process : Nat}
    (hphase : state.phases process = .owner) (hfile : state.file = configFile cJson content) :
    ∃ final code, Alone process state final ∧ final.phases process = .exited code ∧
      final.file = configFile cJson (saveBootTraceResultToConfig cJson content code) ∧
      final.active = false ∧
      code = if (loadBootTraceCaptureConfig cJson.toCJson allTagInfos content).isSome && captured
        then .ok else .configError := by
  have hloads := @loads_configFile cJson content allTagInfos
  rw [← hfile] at hloads
  cases hload : (loadBootTraceCaptureConfig cJson.toCJson allTagInfos content).isSome with
  | false =>
      have hrefused : state.act process (.loadConfig (supportsTags allTagInfos state.file)) .owner =
          some (state.move process (.saving (ownerSave .configError))) :=
        if_neg (Bool.eq_false_iff.mp (hloads.trans hload))
      obtain ⟨final, halone, hexited, hsaved, hcleared⟩ := alone_ownerSave hprinter heditable
        (move_phases_self state process (.saving (ownerSave .configError))) hfile
      exact ⟨final, _, .step hphase hrefused halone, hexited, hsaved, hcleared, rfl⟩
  | true =>
      have hloaded : state.act process (.loadConfig (supportsTags allTagInfos state.file)) .owner =
          some (state.move process .capturing) := if_pos (hloads.trans hload)
      have hcapturing := move_phases_self state process .capturing
      cases captured with
      | true =>
          have hexecuted : (state.move process .capturing).act process (.executeCapture true)
              .capturing = some (State.move
                { state.move process .capturing with captured := state.captured + 1 } process
                  (.saving (ownerSave .ok))) := rfl
          obtain ⟨final, halone, hexited, hsaved, hcleared⟩ := alone_ownerSave hprinter heditable
            (move_phases_self { state.move process .capturing with
              captured := state.captured + 1 } process (.saving (ownerSave .ok))) hfile
          exact ⟨final, _, .step hphase hloaded (.step hcapturing hexecuted halone), hexited,
            hsaved, hcleared, rfl⟩
      | false =>
          have hfailed : (state.move process .capturing).act process (.executeCapture false)
              .capturing = some ((state.move process .capturing).move process
                (.saving (ownerSave .configError))) := rfl
          obtain ⟨final, halone, hexited, hsaved, hcleared⟩ := alone_ownerSave hprinter heditable
            (move_phases_self (state.move process .capturing) process
              (.saving (ownerSave .configError))) hfile
          exact ⟨final, _, .step hphase hloaded (.step hcapturing hfailed halone), hexited,
            hsaved, hcleared, rfl⟩

open BootTrace in
/-- A launch that nothing comes in between is a run of `RunBootTraceControl` on the text. -/
theorem alone_runBootTraceControl (hprinter : IsPrinter raw cJson)
    (heditable : ∀ members,
      loadBootTraceConfigJsonForUpdate cJson content = some (.object members) → Editable members)
    (allTagInfos : List (List Char × TraceTag)) {launch : Launch} {state : State} {process : Nat}
    (hphase : state.phases process = .launched) (hactive : state.active = launch.active)
    (hfile : state.file = configFile cJson content) :
    ∃ final, Alone process state final ∧
      final.phases process =
        .exited (runBootTraceControl cJson allTagInfos content launch).resultCode ∧
      final.file =
        configFile cJson (runBootTraceControl cJson allTagInfos content launch).content ∧
      final.active = launch.active := by
  rw [runBootTraceControl]
  cases hflag : launch.active with
  | true =>
      have htested : state.act process .testFlag .launched =
          some (state.move process (.saving duplicateSave)) := if_pos (hactive.trans hflag)
      obtain ⟨final, halone, hexited, hsaved, hkept⟩ := alone_save hprinter heditable
        (move_phases_self state process (.saving duplicateSave)) hfile
      exact ⟨final, .step hphase htested halone, hexited, hsaved,
        hkept.trans (hactive.trans hflag)⟩
  | false =>
      have hinactive : state.active = false := hactive.trans hflag
      have htested : state.act process .testFlag .launched =
          some (state.move process .unset) :=
        if_neg (Bool.eq_false_iff.mp hinactive)
      have hunset : (state.move process .unset).phases process = .unset :=
        move_phases_self state process .unset
      cases hset : launch.flagSet with
      | false =>
          obtain ⟨final, halone, hexited, hsaved, hkept⟩ := alone_save hprinter heditable
            (move_phases_self (state.move process .unset) process (.saving refusedSave)) hfile
          have hrefused : (state.move process .unset).act process (.setFlag false) .unset =
              some ((state.move process .unset).move process (.saving refusedSave)) := rfl
          exact ⟨final, .step hphase htested (.step hunset hrefused halone), hexited, hsaved,
            hkept.trans hinactive⟩
      | true =>
          have howned : (state.move process .unset).act process (.setFlag true) .unset =
              some (State.move { state.move process .unset with
                active := true, holder := some process } process .owner) := rfl
          obtain ⟨final, code, halone, hexited, hsaved, hcleared, hcode⟩ :=
            alone_owner hprinter heditable allTagInfos launch.captured
              (move_phases_self { state.move process .unset with
                active := true, holder := some process } process .owner) hfile
          refine ⟨final, .step hphase htested (.step hunset howned halone), ?_, ?_, hcleared⟩
          · rw [hexited, hcode]
            cases loadBootTraceCaptureConfig cJson.toCJson allTagInfos content with
            | none => rfl
            | some cfg => cases launch.captured <;> rfl
          · rw [hsaved, hcode]
            cases loadBootTraceCaptureConfig cJson.toCJson allTagInfos content with
            | none => rfl
            | some cfg => cases launch.captured <;> rfl

theorem Kept.editable {config : BootTraceConfig} {index : Nat}
    {stored : List (List Char × Json)} (hkept : Kept cJson config index content members)
    (hload : loadBootTraceConfigJsonForUpdate cJson content = some (.object stored)) :
    Editable stored := by
  rw [load_for_update hkept] at hload
  cases hload
  exact ⟨hkept.stored.tidy, hkept.stored.once⟩

open BootTrace in
/-- So are the launches on a config that the command has written with the increment on. -/
theorem Kept.alone_run (hprinter : IsPrinter raw cJson) {config : BootTraceConfig} {index : Nat}
    (hkept : Kept cJson config index content members)
    (allTagInfos : List (List Char × TraceTag)) {launch : Launch} {state : State} {process : Nat}
    (hphase : state.phases process = .launched) (hactive : state.active = launch.active)
    (hfile : state.file = configFile cJson content) :
    ∃ final, Alone process state final ∧
      final.phases process =
        .exited (runBootTraceControl cJson allTagInfos content launch).resultCode ∧
      final.file =
        configFile cJson (runBootTraceControl cJson allTagInfos content launch).content ∧
      final.active = launch.active :=
  alone_runBootTraceControl hprinter (fun _ => hkept.editable) allTagInfos hphase hactive hfile

end Fields

end BootTraceJson

end Hitrace
