import Hitrace.HitraceCmd.BootTrace
import Hitrace.HitraceDump.OpenTrace
import Hitrace.Library.Json
import Hitrace.Utils.ScanNumber

namespace Hitrace

open Library

/-! `--boot_trace` of `hitrace_cmd.cpp`: the configuration that is written for the next boots,
and how it is loaded there. -/

namespace BootTraceJson

def bootTraceDefaultDuration : Int32 := 30

def bootTraceRepeatMin : Int32 := 1

def bootTraceRepeatMax : Int32 := 100

def defaultBufferSize : Int32 := 18432

def minFileSize : Int32 := 51200

def maxFileSize : Int32 := 512000

def defaultFileSize : Int32 := 102400

def clockTypes : List (List Char) :=
  ["boot".toList, "mono".toList, "global".toList, "perf".toList, "uptime".toList]

/-- The fields of `g_traceArgs` that are read here. -/
structure TraceArgs where
  tagsVec : List (List Char)
  clockType : List Char := []
  bufferSize : Int32 := 0
  fileSize : Int32 := 0
  duration : Int32 := 0
  remainingCount : Int32 := 1
  bootFilePrefix : List Char := []
  bootTraceOverwrite : Bool := false
  bootTraceIncrement : Bool := false
deriving Repr, DecidableEq

structure BootTraceConfig where
  durationSec : Int32
  bufferSizeKb : Int32
  fileSizeKb : Int32
  incrementIndex : Int32
  kernelTags : List (List Char)
  userTags : List (List Char)
  clockType : List Char
  filePrefix : List Char
  overwrite : Bool
deriving Repr, DecidableEq

section Options

variable (allTagInfos : List (List Char × TraceTag)) (args : TraceArgs)

def addTag (tags : List (List Char) × List (List Char)) (tag : List Char) :
    Option (List (List Char) × List (List Char)) :=
  match allTagInfos.lookup tag with
  | none => none
  | some info =>
      if info.type = .kernel then some (tags.1 ++ [tag], tags.2)
      else some (tags.1, tags.2 ++ [tag])

def validateBootTraceTags : Option (List (List Char) × List (List Char)) :=
  if args.tagsVec.isEmpty then none
  else if args.remainingCount < bootTraceRepeatMin ∨ bootTraceRepeatMax < args.remainingCount then
    none
  else args.tagsVec.foldlM (addTag allTagInfos) ([], [])

/-- The configuration in `BuildAndWriteBootTraceConfig`. -/
def bootTraceConfig (kernelTags userTags : List (List Char)) : BootTraceConfig where
  durationSec := if 0 < args.duration then args.duration else bootTraceDefaultDuration
  bufferSizeKb := if 0 < args.bufferSize then args.bufferSize else defaultBufferSize
  fileSizeKb :=
    if minFileSize ≤ args.fileSize ∧ args.fileSize ≤ maxFileSize then args.fileSize
    else defaultFileSize
  incrementIndex := if args.bootTraceIncrement then 0 else -1
  kernelTags
  userTags
  clockType := if args.clockType.isEmpty then "boot".toList else args.clockType
  filePrefix :=
    if args.bootFilePrefix.isEmpty then BootTrace.bootTraceDefaultPrefix
    else args.bootFilePrefix
  overwrite := args.bootTraceOverwrite

/-- `HandleBootTraceConfig`: the configuration that is written, if the tags are no `off`. -/
def handleBootTraceConfig : Option BootTraceConfig :=
  if args.tagsVec = ["off".toList] then none
  else
    (validateBootTraceTags allTagInfos args).map fun tags =>
      bootTraceConfig args tags.1 tags.2

end Options

/-! The text. -/

def boolText (value : Bool) : List Char :=
  if value then "true".toList else "false".toList

def tagsText : List (List Char) → List Char
  | [] => []
  | [tag] => "\"".toList ++ tag ++ "\"".toList
  | tag :: next :: rest =>
      "\"".toList ++ tag ++ "\"".toList ++ ", ".toList ++ tagsText (next :: rest)

def buildKernelSectionJson (kernelTags : List (List Char)) (bufferSizeKb : Int32)
    (clockType : List Char) : List Char :=
  "  \"kernel\": \x7b\n".toList ++
  "    \"enabled\": ".toList ++ boolText (!kernelTags.isEmpty) ++ ",\n".toList ++
  "    \"tags\": [".toList ++ tagsText kernelTags ++ "],\n".toList ++
  "    \"buffer_size_kb\": ".toList ++ intToString bufferSizeKb.toInt ++ ",\n".toList ++
  "    \"clock\": \"".toList ++ clockType ++ "\"\n".toList ++
  "  \x7d,\n".toList

def buildUserSpaceSectionJson (userTags : List (List Char)) : List Char :=
  "  \"userspace\": \x7b\n".toList ++
  "    \"enabled\": ".toList ++ boolText (!userTags.isEmpty) ++ ",\n".toList ++
  "    \"tags\": [".toList ++ tagsText userTags ++ "]\n".toList ++
  "  \x7d\n".toList

def buildBootTraceConfigJson (config : BootTraceConfig) : List Char :=
  "\x7b\n".toList ++
  "  \"version\": 1,\n".toList ++
  "  \"description\": \"Boot-time trace configuration\",\n".toList ++
  "  \"duration_sec\": ".toList ++ intToString config.durationSec.toInt ++ ",\n".toList ++
  "  \"output\": \"".toList ++
    BootTrace.buildBootTraceOutputPathForPrefix config.filePrefix config.incrementIndex ++
    "\",\n".toList ++
  "  \"file_size_kb\": ".toList ++ intToString config.fileSizeKb.toInt ++ ",\n".toList ++
  "  \"file_prefix\": \"".toList ++ config.filePrefix ++ "\",\n".toList ++
  "  \"overwrite\": ".toList ++ boolText config.overwrite ++ ",\n".toList ++
  "  \"inline_event_format\": true,\n".toList ++
  "  \"increment_index\": ".toList ++ intToString config.incrementIndex.toInt ++ ",\n".toList ++
  buildKernelSectionJson config.kernelTags config.bufferSizeKb config.clockType ++
  buildUserSpaceSectionJson config.userTags ++
  "\x7d\n".toList

/-! Loading. -/

/-- `cJSON_Parse`, and the `valueint` of a number. -/
structure CJson where
  parse : List Char → Option Json
  valueint : List Char → Int32

/-- `cJSON_GetObjectItem`: keys are compared without case. -/
def getObjectItem (object : Json) (name : List Char) : Option Json :=
  match object with
  | .object members =>
      (members.find? fun member =>
        (cString member.1).map Char.toLower == name.map Char.toLower).map Prod.snd
  | _ => none

/-- A string item with a `valuestring` that is not empty. -/
def nonEmptyString (item : Option Json) : Option (List Char) :=
  match item with
  | some (.string text) => if (cString text).isEmpty then none else some (cString text)
  | _ => none

def numberItem (cJson : CJson) (item : Option Json) : Option Int32 :=
  match item with
  | some (.number literal) => some (cJson.valueint literal)
  | _ => none

def boolItem (item : Option Json) : Option Bool :=
  match item with
  | some (.bool value) => some value
  | _ => none

def objectItem (item : Option Json) : Option Json :=
  match item with
  | some (.object members) => some (.object members)
  | _ => none

def arrayItem (item : Option Json) : Option (List Json) :=
  match item with
  | some (.array elements) => some elements
  | _ => none

structure BootTraceCaptureConfig where
  durationSec : Int32 := 0
  outputPath : List Char := []
  tags : List (List Char) := []
  bufferSizeKb : UInt32 := 0
  clockType : List Char := "boot".toList
  overwrite : Bool := true
  fileSizeLimitKb : UInt32 := 0
  incrementIndex : Int32 := -1
  inlineEventFormat : Bool := false
deriving Repr, DecidableEq

section Loading

variable (cJson : CJson) (allTagInfos : List (List Char × TraceTag)) (root : Json)

/-- `ValidateBootTraceConfig`, with the `duration_sec` that it has looked at. -/
def validateBootTraceConfig : Option Int32 :=
  match objectItem (some root) with
  | none => none
  | some root =>
      match numberItem cJson (getObjectItem root "duration_sec".toList) with
      | none => none
      | some duration => if duration ≤ 0 then none else some duration

def appendBootTraceSectionTags (name : List Char) (out : List (List Char)) :
    List (List Char) :=
  match objectItem (getObjectItem root name) with
  | none => out
  | some sec =>
      if boolItem (getObjectItem sec "enabled".toList) = some false then out
      else
        match arrayItem (getObjectItem sec "tags".toList) with
        | none => out
        | some elements => out ++ elements.filterMap fun tag => nonEmptyString (some tag)

def resolveBootTraceFilePrefixFromJson : List Char :=
  (nonEmptyString (getObjectItem root "file_prefix".toList)).getD
    BootTrace.bootTraceDefaultPrefix

def resolveBootTraceIncrementIndexFromJson : Int32 :=
  (numberItem cJson (getObjectItem root "increment_index".toList)).getD (-1)

def resolveBootTraceCaptureOutputPath (filePrefix : List Char) (incrementIndex : Int32) :
    List Char :=
  if 0 ≤ incrementIndex then BootTrace.buildBootTraceOutputPathForPrefix filePrefix incrementIndex
  else
    (nonEmptyString (getObjectItem root "output".toList)).getD
      (BootTrace.buildBootTraceOutputPathForPrefix filePrefix (-1))

def validateBootTraceCaptureTags : Option (List (List Char)) :=
  let tags := appendBootTraceSectionTags root "userspace".toList
    (appendBootTraceSectionTags root "kernel".toList [])
  if tags.isEmpty then none
  else if tags.all fun tag => (allTagInfos.lookup tag).isSome then some tags
  else none

def applyBootTraceKernelCaptureOptions (cfg : BootTraceCaptureConfig) :
    BootTraceCaptureConfig :=
  match objectItem (getObjectItem root "kernel".toList) with
  | none => cfg
  | some kernel =>
      let cfg :=
        match numberItem cJson (getObjectItem kernel "buffer_size_kb".toList) with
        | none => cfg
        | some buf => if 0 < buf then { cfg with bufferSizeKb := buf.toUInt32 } else cfg
      match nonEmptyString (getObjectItem kernel "clock".toList) with
      | none => cfg
      | some clk => { cfg with clockType := clk }

def applyBootTraceFileCaptureOptions (cfg : BootTraceCaptureConfig) : BootTraceCaptureConfig :=
  let cfg :=
    match boolItem (getObjectItem root "overwrite".toList) with
    | none => cfg
    | some ow => { cfg with overwrite := ow }
  let cfg :=
    match numberItem cJson (getObjectItem root "file_size_kb".toList) with
    | none => cfg
    | some fs => if 0 < fs then { cfg with fileSizeLimitKb := fs.toUInt32 } else cfg
  match boolItem (getObjectItem root "inline_event_format".toList) with
  | none => cfg
  | some inlineFmt => { cfg with inlineEventFormat := inlineFmt }

def fillBootTraceCaptureConfig (durationSec : Int32) : Option BootTraceCaptureConfig :=
  let filePrefix := resolveBootTraceFilePrefixFromJson root
  let incrementIndex := resolveBootTraceIncrementIndexFromJson cJson root
  let outputPath := resolveBootTraceCaptureOutputPath root filePrefix incrementIndex
  (validateBootTraceCaptureTags allTagInfos root).map fun tags =>
    applyBootTraceFileCaptureOptions cJson root
      (applyBootTraceKernelCaptureOptions cJson root
        { durationSec, outputPath, incrementIndex, tags })

/-- `content` is that of the config file. -/
def loadBootTraceCaptureConfig (content : List Char) : Option BootTraceCaptureConfig :=
  if content.isEmpty then none
  else
    match cJson.parse (cString content) with
    | none => none
    | some root =>
        match validateBootTraceConfig cJson root with
        | none => none
        | some durationSec => fillBootTraceCaptureConfig cJson allTagInfos root durationSec

end Loading

end BootTraceJson

end Hitrace
