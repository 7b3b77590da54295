import Hitrace.HitraceCmd.BootTraceText

namespace Hitrace

open Library

/-! What is loaded from a boot-trace configuration whose strings need no escape. -/

namespace BootTraceJson

open Json (Plain Reads Document Quoted)

/-- The loaded configuration is the one that was written. -/
structure Restored (config : BootTraceConfig) (cfg : BootTraceCaptureConfig) : Prop where
  durationSec : cfg.durationSec = config.durationSec
  bufferSizeKb : (cfg.bufferSizeKb.toNat : Int) = config.bufferSizeKb.toInt
  fileSizeLimitKb : (cfg.fileSizeLimitKb.toNat : Int) = config.fileSizeKb.toInt
  clockType : cfg.clockType = config.clockType
  overwrite : cfg.overwrite = config.overwrite
  incrementIndex : cfg.incrementIndex = config.incrementIndex
  outputPath : cfg.outputPath =
    BootTrace.buildBootTraceOutputPathForPrefix config.filePrefix config.incrementIndex
  tags : cfg.tags = config.kernelTags ++ config.userTags

def RoundTrips (cJson : CJson) (allTagInfos : List (List Char × TraceTag))
    (config : BootTraceConfig) : Prop :=
  ∃ cfg, loadBootTraceCaptureConfig cJson allTagInfos (buildBootTraceConfigJson config) =
    some cfg ∧ Restored config cfg

/-- The parser takes the JSON texts, and what it finds in a text stands there; `raw` are the
characters that it takes unescaped in a string, at least those of the standard. -/
structure IsCJson (raw : Char → Bool) (cJson : CJson) : Prop where
  printable : ∀ char, ' ' ≤ char → raw char = true
  nul : raw '\x00' = false
  standard : ∀ text value, Document raw text value → cJson.parse text = some value
  quoted : ∀ text value, cJson.parse text = some value → Quoted raw text value
  valueint : ∀ number : Int32, cJson.valueint (intToString number.toInt) = number

/-- What the command line has checked or cannot pass on. -/
structure Accepted (args : TraceArgs) : Prop where
  clockType : args.clockType = [] ∨ args.clockType ∈ clockTypes
  bootFilePrefix : '\x00' ∉ args.bootFilePrefix
  tagsVec : ∀ tag ∈ args.tagsVec, '\x00' ∉ tag

/-! The value. -/

def kernelJson (config : BootTraceConfig) : Json :=
  .object [("enabled".toList, .bool (!config.kernelTags.isEmpty)),
    ("tags".toList, .array (config.kernelTags.map .string)),
    ("buffer_size_kb".toList, .number (intToString config.bufferSizeKb.toInt)),
    ("clock".toList, .string config.clockType)]

def userSpaceJson (config : BootTraceConfig) : Json :=
  .object [("enabled".toList, .bool (!config.userTags.isEmpty)),
    ("tags".toList, .array (config.userTags.map .string))]

def configJson (config : BootTraceConfig) : Json :=
  .object [("version".toList, .number "1".toList),
    ("description".toList, .string "Boot-time trace configuration".toList),
    ("duration_sec".toList, .number (intToString config.durationSec.toInt)),
    ("output".toList, .string (outputPath config)),
    ("file_size_kb".toList, .number (intToString config.fileSizeKb.toInt)),
    ("file_prefix".toList, .string config.filePrefix),
    ("overwrite".toList, .bool config.overwrite),
    ("inline_event_format".toList, .bool true),
    ("increment_index".toList, .number (intToString config.incrementIndex.toInt)),
    ("kernel".toList, kernelJson config),
    ("userspace".toList, userSpaceJson config)]

section Reading

variable {raw : Char → Bool} {indent key front behind more rest text : List Char} {value : Json}
  {members : List (List Char × Json)}

theorem skip_lineText (hindent : ∀ blank ∈ indent, Json.isBlank blank = true) :
    Json.skip (lineText indent key front) = '"' :: (key ++ '"' :: ':' :: ' ' :: front) := by
  refine Json.skip_blanks (List.forall_mem_append.mpr ⟨?_, hindent⟩) rfl
  exact List.all_eq_true.mp rfl

theorem reads_line (hindent : ∀ blank ∈ indent, Json.isBlank blank = true)
    (hkey : ∀ char ∈ key, Plain raw char)
    (hvalue : Reads raw (.value value) front (',' :: more))
    (hmembers : Reads raw (.members members) more rest) :
    Reads raw (.members ((key, value) :: members)) (lineText indent key front) rest := by
  have hskip : Json.skip ([' '] ++ front) = front := hvalue.skip (List.all_eq_true.mp rfl)
  exact .member (skip_lineText hindent) (Json.spells_self hkey) rfl (hskip.symm ▸ hvalue) rfl
    hmembers

theorem reads_lastLine (hindent : ∀ blank ∈ indent, Json.isBlank blank = true)
    (hkey : ∀ char ∈ key, Plain raw char) (hvalue : Reads raw (.value value) front behind)
    (hclose : Json.skip behind = '}' :: rest) :
    Reads raw (.members [(key, value)]) (lineText indent key front) rest := by
  have hskip : Json.skip ([' '] ++ front) = front := hvalue.skip (List.all_eq_true.mp rfl)
  exact .lastMember (skip_lineText hindent) (Json.spells_self hkey) rfl (hskip.symm ▸ hvalue)
    hclose

theorem reads_number (number : Int) :
    Reads raw (.value (.number (intToString number))) (intToString number ++ ',' :: more)
      (',' :: more) := by
  refine .number (isNumber_intToString number) ?_
  intro char hchar
  cases hchar
  rfl

theorem reads_bool (flag : Bool) :
    Reads raw (.value (.bool flag)) (boolText flag ++ rest) rest := by
  cases flag with
  | false => exact .isFalse
  | true => exact .isTrue

theorem reads_quote (hplain : ∀ char ∈ text, Plain raw char) :
    Reads raw (.value (.string text)) (quote text rest) rest :=
  .string (Json.spells_self hplain)

theorem reads_elements {blanks tag : List Char} {others : List (List Char)}
    (hblanks : ∀ blank ∈ blanks, Json.isBlank blank = true)
    (htags : ∀ other ∈ tag :: others, ∀ char ∈ other, Plain raw char) :
    Reads raw (.elements ((tag :: others).map .string))
      (blanks ++ (tagsText (tag :: others) ++ ']' :: rest)) rest := by
  induction others generalizing blanks tag with
  | nil =>
      have hvalue : Reads raw (.value (.string tag)) (tagsText [tag] ++ ']' :: rest)
          (']' :: rest) := by
        have hreads := @reads_quote raw (']' :: rest) tag (htags tag List.mem_cons_self)
        simpa [tagsText, quote] using hreads
      exact .lastElement ((hvalue.skip hblanks).symm ▸ hvalue) rfl
  | cons next others ih =>
      obtain ⟨htag, hothers⟩ := List.forall_mem_cons.mp htags
      have hvalue : Reads raw (.value (.string tag))
          (tagsText (tag :: next :: others) ++ ']' :: rest)
          (',' :: (" ".toList ++ (tagsText (next :: others) ++ ']' :: rest))) := by
        have hreads := @reads_quote raw
          (',' :: (" ".toList ++ (tagsText (next :: others) ++ ']' :: rest))) tag htag
        simpa [tagsText, quote] using hreads
      exact .element ((hvalue.skip hblanks).symm ▸ hvalue) rfl
        (ih (List.all_eq_true.mp rfl) hothers)

theorem reads_tags {list : List (List Char)}
    (htags : ∀ tag ∈ list, ∀ char ∈ tag, Plain raw char) :
    Reads raw (.value (.array (list.map .string)))
      ('[' :: (tagsText list ++ ']' :: rest)) rest := by
  cases list with
  | nil => exact .noElements rfl
  | cons tag others =>
      exact .array (@reads_elements raw rest [] tag others (List.forall_mem_nil _) htags)

end Reading

section Text

variable {raw : Char → Bool} {cJson : CJson} {config : BootTraceConfig}
  {allTagInfos : List (List Char × TraceTag)}

/-- The strings of the options need no escape. -/
structure PlainConfig (raw : Char → Bool) (config : BootTraceConfig) : Prop where
  filePrefix : ∀ char ∈ config.filePrefix, Plain raw char
  tags : ∀ tag ∈ tags config, ∀ char ∈ tag, Plain raw char

def isPrintable (text : List Char) : Bool :=
  text.all fun char => ' ' ≤ char && char != '"' && char != '\\'

theorem IsCJson.plain (hjson : IsCJson raw cJson) {text : List Char}
    (htext : isPrintable text = true) : ∀ char ∈ text, Plain raw char := by
  intro char hchar
  have hall := List.all_eq_true.mp htext char hchar
  simp only [Bool.and_eq_true, decide_eq_true_eq, bne_iff_ne] at hall
  exact ⟨hjson.printable char hall.1.1, hall.1.2, hall.2⟩

theorem reads_kernel (hjson : IsCJson raw cJson) (hplain : PlainConfig raw config)
    (hclock : isPrintable config.clockType = true) {rest : List Char} :
    Reads raw (.value (kernelJson config)) (kernelText config rest) rest := by
  have hindent : ∀ blank ∈ "    ".toList, Json.isBlank blank = true := List.all_eq_true.mp rfl
  unfold kernelText kernelJson
  refine .object (reads_line hindent (hjson.plain (by decide)) (reads_bool _) ?_)
  refine reads_line hindent (hjson.plain (by decide)) (reads_tags ?_) ?_
  · exact fun tag htag => hplain.tags tag (List.mem_append_left _ htag)
  refine reads_line hindent (hjson.plain (by decide)) (reads_number _) ?_
  exact reads_lastLine hindent (hjson.plain (by decide)) (reads_quote (hjson.plain hclock)) rfl

theorem reads_userSpace (hjson : IsCJson raw cJson) (hplain : PlainConfig raw config)
    {rest : List Char} :
    Reads raw (.value (userSpaceJson config)) (userSpaceText config rest) rest := by
  have hindent : ∀ blank ∈ "    ".toList, Json.isBlank blank = true := List.all_eq_true.mp rfl
  unfold userSpaceText userSpaceJson
  refine .object (reads_line hindent (hjson.plain (by decide)) (reads_bool _) ?_)
  refine reads_lastLine hindent (hjson.plain (by decide)) (reads_tags ?_) rfl
  exact fun tag htag => hplain.tags tag (List.mem_append_right _ htag)

theorem isPrintable_intToString (number : Int) : isPrintable (intToString number) = true := by
  have hnumber := isNumber_intToString number
  rw [Json.isNumber, Bool.and_eq_true, List.all_eq_true] at hnumber
  rw [isPrintable, List.all_eq_true]
  intro char hchar
  have hnumberChar := hnumber.1 char hchar
  have hquote : char ≠ '"' := Json.ne_of_isNumberChar hnumberChar rfl
  have hback : char ≠ '\\' := Json.ne_of_isNumberChar hnumberChar rfl
  have hblank : ' ' ≤ char := by
    simp only [Json.isNumberChar, Char.isDigit, ge_iff_le, Bool.or_eq_true, Bool.and_eq_true,
      decide_eq_true_eq, beq_iff_eq] at hnumberChar
    rcases hnumberChar with ((((hdigit | rfl) | rfl) | rfl) | rfl) | rfl
    · exact UInt32.le_trans (by decide : ' '.val ≤ '0'.val) hdigit.1
    · decide
    · decide
    · decide
    · decide
    · decide
  simp [hquote, hback, hblank]

theorem outputPath_eq (config : BootTraceConfig) : ∃ suffix, isPrintable suffix = true ∧
    suffix.getLast? = some 's' ∧
    outputPath config = BootTrace.bootTraceConfigDir ++ (config.filePrefix ++ suffix) := by
  rw [outputPath, BootTrace.buildBootTraceOutputPathForPrefix]
  split
  · refine ⟨"_".toList ++ (intToString config.incrementIndex.toInt ++ ".sys".toList), ?_, ?_, ?_⟩
    · rw [isPrintable, List.all_append, List.all_append, ← isPrintable, ← isPrintable,
        ← isPrintable, isPrintable_intToString]
      decide
    · rw [List.getLast?_append, List.getLast?_append]
      rfl
    · simp only [List.append_assoc]
  · exact ⟨".sys".toList, by decide, by decide, List.append_assoc ..⟩

theorem plain_outputPath (hjson : IsCJson raw cJson) (hplain : PlainConfig raw config) :
    ∀ char ∈ outputPath config, Plain raw char := by
  obtain ⟨suffix, hsuffix, _, hpath⟩ := outputPath_eq config
  rw [hpath]
  refine List.forall_mem_append.mpr ⟨hjson.plain (by decide), List.forall_mem_append.mpr ⟨?_, ?_⟩⟩
  · exact hplain.filePrefix
  · exact hjson.plain hsuffix

theorem document_config (hjson : IsCJson raw cJson) (hplain : PlainConfig raw config)
    (hclock : isPrintable config.clockType = true) :
    Document raw (configText config) (configJson config) := by
  have hindent : ∀ blank ∈ "  ".toList, Json.isBlank blank = true := List.all_eq_true.mp rfl
  refine ⟨"\n".toList, ?_, by decide⟩
  unfold configJson
  refine .object (reads_line hindent (hjson.plain (by decide)) (.number rfl ?_) ?_)
  · intro char hchar
    cases hchar
    rfl
  refine reads_line hindent (hjson.plain (by decide)) (reads_quote (hjson.plain (by decide))) ?_
  refine reads_line hindent (hjson.plain (by decide)) (reads_number _) ?_
  refine reads_line hindent (hjson.plain (by decide))
    (reads_quote (plain_outputPath hjson hplain)) ?_
  refine reads_line hindent (hjson.plain (by decide)) (reads_number _) ?_
  refine reads_line hindent (hjson.plain (by decide)) (reads_quote hplain.filePrefix) ?_
  refine reads_line hindent (hjson.plain (by decide)) (reads_bool _) ?_
  refine reads_line hindent (hjson.plain (by decide)) .isTrue ?_
  refine reads_line hindent (hjson.plain (by decide)) (reads_number _) ?_
  refine reads_line hindent (hjson.plain (by decide)) (reads_kernel hjson hplain hclock) ?_
  exact reads_lastLine hindent (hjson.plain (by decide)) (reads_userSpace hjson hplain) rfl

/-! Loading what was written. -/

/-- What is known of a configuration that was written. -/
structure Written (allTagInfos : List (List Char × TraceTag)) (config : BootTraceConfig) :
    Prop where
  durationSec : 0 < config.durationSec
  bufferSizeKb : 0 < config.bufferSizeKb
  fileSizeKb : 0 < config.fileSizeKb
  clockType : config.clockType ∈ clockTypes
  filePrefix : config.filePrefix ≠ [] ∧ '\x00' ∉ config.filePrefix
  someTag : tags config ≠ []
  tags : ∀ tag ∈ tags config, '\x00' ∉ tag ∧ (allTagInfos.lookup tag).isSome = true

theorem cString_eq {text : List Char} (hnul : '\x00' ∉ text) : cString text = text := by
  refine List.takeWhile_eq_self_iff.mpr fun char hchar => ?_
  rw [bne_iff_ne]
  rintro rfl
  exact hnul hchar

theorem nonEmptyString_eq {text : List Char} (hnul : '\x00' ∉ text) (hnonempty : text ≠ []) :
    nonEmptyString (some (.string text)) = some text := by
  have hempty : (cString text).isEmpty = false := by
    rw [cString_eq hnul]
    exact List.isEmpty_eq_false_iff.mpr hnonempty
  rw [nonEmptyString, hempty, cString_eq hnul]
  rfl

theorem filterMap_tags {list : List (List Char)}
    (hlist : ∀ tag ∈ list, '\x00' ∉ tag ∧ tag ≠ []) :
    (list.map Json.string).filterMap (fun tag => nonEmptyString (some tag)) = list := by
  rw [List.filterMap_map]
  refine (List.filterMap_congr fun tag htag => ?_).trans List.filterMap_some
  exact nonEmptyString_eq (hlist tag htag).1 (hlist tag htag).2

theorem append_tags {list out : List (List Char)} {sec root : Json} {name : List Char}
    (hsection : objectItem (getObjectItem root name) = some sec)
    (henabled : getObjectItem sec "enabled".toList = some (.bool (!list.isEmpty)))
    (htags : getObjectItem sec "tags".toList = some (.array (list.map .string)))
    (hlist : ∀ tag ∈ list, '\x00' ∉ tag ∧ tag ≠ []) :
    appendBootTraceSectionTags root name out = out ++ list := by
  rw [appendBootTraceSectionTags, hsection]
  dsimp only
  rw [henabled, htags]
  cases list with
  | nil => exact (List.append_nil out).symm
  | cons tag rest =>
      rw [if_neg (by simp [boolItem])]
      dsimp only [arrayItem]
      rw [filterMap_tags hlist]

theorem validate_tags (hwritten : Written allTagInfos config)
    (hnonempty : ∀ tag ∈ tags config, tag ≠ []) :
    validateBootTraceCaptureTags allTagInfos (configJson config) =
      some (config.kernelTags ++ config.userTags) := by
  have hlist : ∀ tag ∈ tags config, '\x00' ∉ tag ∧ tag ≠ [] :=
    fun tag htag => ⟨(hwritten.tags tag htag).1, hnonempty tag htag⟩
  have hkernel := @append_tags config.kernelTags [] (kernelJson config) (configJson config)
    "kernel".toList rfl rfl rfl fun tag htag => hlist tag (List.mem_append_left _ htag)
  have huser := @append_tags config.userTags config.kernelTags (userSpaceJson config)
    (configJson config) "userspace".toList rfl rfl rfl
    fun tag htag => hlist tag (List.mem_append_right _ htag)
  have hsome : (config.kernelTags ++ config.userTags).isEmpty = false :=
    List.isEmpty_eq_false_iff.mpr hwritten.someTag
  rw [validateBootTraceCaptureTags, hkernel, List.nil_append, huser, hsome]
  refine if_pos (List.all_eq_true.mpr fun tag htag => ?_)
  exact (hwritten.tags tag htag).2

/-- What is loaded from the value. -/
def loadedConfig (config : BootTraceConfig) : BootTraceCaptureConfig where
  durationSec := config.durationSec
  outputPath := outputPath config
  tags := config.kernelTags ++ config.userTags
  bufferSizeKb := config.bufferSizeKb.toUInt32
  clockType := config.clockType
  overwrite := config.overwrite
  fileSizeLimitKb := config.fileSizeKb.toUInt32
  incrementIndex := config.incrementIndex
  inlineEventFormat := true

theorem isPrintable_clockType (hclock : config.clockType ∈ clockTypes) :
    isPrintable config.clockType = true ∧ '\x00' ∉ config.clockType ∧ config.clockType ≠ [] := by
  have hall : ∀ clock ∈ clockTypes, isPrintable clock = true ∧ '\x00' ∉ clock ∧ clock ≠ [] := by
    decide
  exact hall _ hclock

theorem nul_of_plain {raw : Char → Bool} (hnul : raw '\x00' = false) {text : List Char}
    (hplain : ∀ char ∈ text, Plain raw char) : '\x00' ∉ text := by
  intro hmem
  have hraw := (hplain _ hmem).raw
  rw [hnul] at hraw
  cases hraw

theorem resolve_outputPath (hpath : '\x00' ∉ outputPath config) :
    resolveBootTraceCaptureOutputPath (configJson config) config.filePrefix
      config.incrementIndex = outputPath config := by
  have hnonempty : outputPath config ≠ [] := by
    obtain ⟨suffix, _, _, heq⟩ := outputPath_eq config
    rw [heq]
    exact List.cons_ne_nil _ _
  have hitem : getObjectItem (configJson config) "output".toList =
      some (.string (outputPath config)) := rfl
  rw [resolveBootTraceCaptureOutputPath]
  split
  · rfl
  · rw [hitem, nonEmptyString_eq hpath hnonempty]
    rfl

theorem apply_kernel (hjson : IsCJson raw cJson) (hwritten : Written allTagInfos config)
    (cfg : BootTraceCaptureConfig) :
    applyBootTraceKernelCaptureOptions cJson (configJson config) cfg =
      { cfg with
        bufferSizeKb := config.bufferSizeKb.toUInt32
        clockType := config.clockType } := by
  obtain ⟨_, hnul, hnonempty⟩ := isPrintable_clockType hwritten.clockType
  have hkernel : objectItem (getObjectItem (configJson config) "kernel".toList) =
      some (kernelJson config) := rfl
  have hbuffer : getObjectItem (kernelJson config) "buffer_size_kb".toList =
      some (.number (intToString config.bufferSizeKb.toInt)) := rfl
  have hclock : getObjectItem (kernelJson config) "clock".toList =
      some (.string config.clockType) := rfl
  rw [applyBootTraceKernelCaptureOptions, hkernel]
  dsimp only
  rw [hbuffer, hclock, nonEmptyString_eq hnul hnonempty, numberItem, hjson.valueint]
  dsimp only
  rw [if_pos hwritten.bufferSizeKb]

theorem apply_file (hjson : IsCJson raw cJson) (hwritten : Written allTagInfos config)
    (cfg : BootTraceCaptureConfig) :
    applyBootTraceFileCaptureOptions cJson (configJson config) cfg =
      { cfg with
        overwrite := config.overwrite
        fileSizeLimitKb := config.fileSizeKb.toUInt32
        inlineEventFormat := true } := by
  have hoverwrite : boolItem (getObjectItem (configJson config) "overwrite".toList) =
      some config.overwrite := rfl
  have hfileSize : getObjectItem (configJson config) "file_size_kb".toList =
      some (.number (intToString config.fileSizeKb.toInt)) := rfl
  have hinline : boolItem (getObjectItem (configJson config) "inline_event_format".toList) =
      some true := rfl
  rw [applyBootTraceFileCaptureOptions, hoverwrite, hfileSize, hinline, numberItem,
    hjson.valueint]
  dsimp only
  rw [if_pos hwritten.fileSizeKb]

theorem load_configJson (hjson : IsCJson raw cJson) (hwritten : Written allTagInfos config)
    (hplain : PlainConfig raw config) (hnonempty : ∀ tag ∈ tags config, tag ≠ []) :
    (validateBootTraceConfig cJson (configJson config)).bind
      (fillBootTraceCaptureConfig cJson allTagInfos (configJson config)) =
      some (loadedConfig config) := by
  have hduration : getObjectItem (configJson config) "duration_sec".toList =
      some (.number (intToString config.durationSec.toInt)) := rfl
  have hobject : objectItem (some (configJson config)) = some (configJson config) := rfl
  have hindex : getObjectItem (configJson config) "increment_index".toList =
      some (.number (intToString config.incrementIndex.toInt)) := rfl
  have hfrontItem : getObjectItem (configJson config) "file_prefix".toList =
      some (.string config.filePrefix) := rfl
  have hpath := resolve_outputPath (nul_of_plain hjson.nul (plain_outputPath hjson hplain))
  have hvalidate : validateBootTraceConfig cJson (configJson config) =
      some config.durationSec := by
    rw [validateBootTraceConfig, hobject]
    dsimp only
    rw [hduration, numberItem, hjson.valueint]
    exact if_neg (Int32.not_le.mpr hwritten.durationSec)
  rw [hvalidate, Option.bind_some, fillBootTraceCaptureConfig,
    resolveBootTraceFilePrefixFromJson, resolveBootTraceIncrementIndexFromJson, hindex,
    hfrontItem, nonEmptyString_eq hwritten.filePrefix.2 hwritten.filePrefix.1, numberItem,
    hjson.valueint, validate_tags hwritten hnonempty]
  dsimp only [Option.getD_some, Option.map_some]
  rw [hpath, apply_kernel hjson hwritten, apply_file hjson hwritten]
  rfl

/-! From the text to what is loaded. -/

theorem weight_clockType (hclock : config.clockType ∈ clockTypes) :
    Json.weight config.clockType = 0 := by
  have hall : ∀ clock ∈ clockTypes, Json.weight clock = 0 := by decide
  exact hall _ hclock

theorem weight_of_isPrintable {text : List Char} (htext : isPrintable text = true) :
    Json.weight text = 0 := by
  refine Json.weight_eq_zero.mpr fun char hchar => ?_
  have hall := List.all_eq_true.mp htext char hchar
  simp only [Bool.and_eq_true, decide_eq_true_eq, bne_iff_ne] at hall
  have hnul : char ≠ '\x00' := by
    rintro rfl
    exact absurd hall.1.1 (by decide)
  simp [Json.isSpecial, hall.1.2, hall.2, hnul]

theorem nul_not_mem_builtPath {front : List Char} (hfront : '\x00' ∉ front) (index : Int32) :
    '\x00' ∉ BootTrace.buildBootTraceOutputPathForPrefix front index := by
  have hdir : '\x00' ∉ BootTrace.bootTraceConfigDir := by decide
  have hnumber : '\x00' ∉ intToString index.toInt :=
    Json.not_mem_of_weight (clean_intToString _) rfl
  rw [BootTrace.buildBootTraceOutputPathForPrefix]
  split
  · exact List.not_mem_append (List.not_mem_append (List.not_mem_append
      (List.not_mem_append hdir hfront) (by decide)) hnumber) (by decide)
  · exact List.not_mem_append (List.not_mem_append hdir hfront) (by decide)

theorem nul_not_mem_outputPath (hfront : '\x00' ∉ config.filePrefix) :
    '\x00' ∉ outputPath config :=
  nul_not_mem_builtPath hfront _

theorem nul_not_mem_configText (hwritten : Written allTagInfos config) :
    '\x00' ∉ configText config := by
  have hclock := weight_clockType hwritten.clockType
  rw [configText_eq]
  refine Json.nul_not_mem_quotedText (framed_pieces hclock) fun piece hpiece => ?_
  rcases (classified_pieces hclock piece hpiece).2 with hlight | ⟨_, hpath | hfront⟩ | ⟨_, htag⟩
  · exact Json.not_mem_of_weight hlight rfl
  · rw [hpath]
    exact nul_not_mem_outputPath hwritten.filePrefix.2
  · rw [hfront]
    exact hwritten.filePrefix.2
  · exact (hwritten.tags _ htag).1

theorem load_eq (hwritten : Written allTagInfos config) :
    loadBootTraceCaptureConfig cJson allTagInfos (buildBootTraceConfigJson config) =
      (cJson.parse (configText config)).bind fun root =>
        (validateBootTraceConfig cJson root).bind
          (fillBootTraceCaptureConfig cJson allTagInfos root) := by
  have hnonempty : (configText config).isEmpty = false := rfl
  rw [loadBootTraceCaptureConfig, buildBootTraceConfigJson_eq, hnonempty,
    cString_eq (nul_not_mem_configText hwritten), if_neg Bool.false_ne_true]
  cases cJson.parse (configText config) with
  | none => rfl
  | some root =>
      dsimp only [Option.bind_some]
      cases validateBootTraceConfig cJson root with
      | none => rfl
      | some durationSec => rfl

theorem toNat_toUInt32 {number : Int32} (hpositive : 0 < number) :
    (number.toUInt32.toNat : Int) = number.toInt := by
  have hle : 0 ≤ number := Int32.le_of_lt hpositive
  have hint := Int32.le_iff_toInt_le.mp hle
  rw [Int32.toInt_zero] at hint
  rw [Int32.toNat_toUInt32_of_le hle]
  exact Int.toNat_of_nonneg hint

theorem roundTrips_of_plain (hjson : IsCJson raw cJson) (hwritten : Written allTagInfos config)
    (hplain : PlainConfig raw config) (hnonempty : ∀ tag ∈ tags config, tag ≠ []) :
    RoundTrips cJson allTagInfos config := by
  have hclock := (isPrintable_clockType hwritten.clockType).1
  have hparse := hjson.standard _ _ (document_config hjson hplain hclock)
  refine ⟨loadedConfig config, ?_, ?_⟩
  · rw [load_eq hwritten, hparse]
    exact load_configJson hjson hwritten hplain hnonempty
  · exact ⟨rfl, toNat_toUInt32 hwritten.bufferSizeKb, toNat_toUInt32 hwritten.fileSizeKb, rfl,
      rfl, rfl, rfl, rfl⟩

end Text

end BootTraceJson

end Hitrace
