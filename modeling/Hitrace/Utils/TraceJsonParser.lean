import Hitrace.HitraceCmd.BootTraceJson
import Hitrace.HitraceDump.TraceNodes
import Hitrace.Library.SortedMap
import Hitrace.Utils.FileAgeing

namespace Hitrace

open Library
open BootTraceJson (CJson getObjectItem numberItem arrayItem)

/-! The two JSON files that the tags, the tag groups and the limits come from, from
`utils/trace_json_parser.cpp`. -/

structure TraceJsonParser where
  traceTagInfos : SortedMap (List Char) (List Char × TraceNodes.TagInfo)
  tagGroups : SortedMap (List Char) (List (List Char))
  baseTraceFormats : List (List Char)
  snapshotBufSzKb : Int32
  snapShotAgeingParam : AgeingParam
  recordAgeingParam : AgeingParam

namespace TraceJsonParser

def defaultSnapshotBufferSizeKb : Int32 := 12 * 1024
def hmDefaultSnapshotBufferSizeKb : Int32 := 144 * 1024
def extraBufferSizeKbGe16gDevice : Int32 := 48 * 1024
def memGb : Int := 1024 * 1024
def defaultRecordFileNumberLimit : Int := 15
def defaultSnapshotFileNumberLimit : Int := 35

/-- The device and the build; a value that the build does not define is zero. `memTotal` is
what `/proc/meminfo` tells. -/
structure Product where
  isHmKernel : Bool
  memTotal : Nat
  snapshotTracebufferSize : Int32 := 0
  recordFileLimit : Int := 0
  snapshotFileLimit : Int := 0

/-- What an uninitialised `TraceTag` holds, and what `1ULL` becomes when it is shifted by a
number that is not below 64. -/
structure TagMemory where
  tag : UInt64
  type : Int
  shifted : Int32 → UInt64

section Files

variable (cJson : CJson) (memory : List Char → TagMemory) (root : Json)

def stringItem : Option Json → Option (List Char)
  | some (.string text) => some (cString text)
  | _ => none

/-- What `cJSON_ArrayForEach` goes through, each with its `string`. -/
def children : Json → List (Option (List Char) × Json)
  | .object members => members.map fun member => (some (cString member.1), member.2)
  | .array elements => elements.map fun element => (none, element)
  | _ => []

/-- `GetStringFromJsonVector`: what it appends. -/
def getStringFromJsonVector (key : List Char) : List (List Char) :=
  match arrayItem (getObjectItem root key) with
  | none => []
  | some elements => elements.filterMap fun item => stringItem (some item)

/-- A tag with its description. -/
def newTag (found : TagMemory) : List Char × TraceNodes.TagInfo :=
  ((stringItem (getObjectItem root "description".toList)).getD [],
    { tag :=
        match numberItem cJson (getObjectItem root "tag_offset".toList) with
        | none => found.tag
        | some tagOffset =>
            if 0 ≤ tagOffset ∧ tagOffset < 64 then 1 <<< tagOffset.toInt.toNat.toUInt64
            else found.shifted tagOffset
      type := ((numberItem cJson (getObjectItem root "type".toList)).map Int32.toInt).getD
        found.type
      enablePath := getStringFromJsonVector root "enable_path".toList
      formatPath := getStringFromJsonVector root "format_path".toList })

def addPaths (tag : List Char × TraceNodes.TagInfo) : List Char × TraceNodes.TagInfo :=
  (tag.1,
    { tag.2 with
      enablePath := tag.2.enablePath ++ getStringFromJsonVector root "enable_path".toList
      formatPath := tag.2.formatPath ++ getStringFromJsonVector root "format_path".toList })

/-- One turn of the loop of `ParseTagCategory`. -/
def addTag (tagInfos : SortedMap (List Char) (List Char × TraceNodes.TagInfo))
    (tagNode : Option (List Char) × Json) :
    SortedMap (List Char) (List Char × TraceNodes.TagInfo) :=
  match tagNode.1 with
  | none => tagInfos
  | some name =>
      match tagInfos.lookup name with
      | some _ => tagInfos.modify name (addPaths tagNode.2)
      | none => tagInfos.insert name (newTag cJson tagNode.2 (memory name))

def parseTagCategory (tagInfos : SortedMap (List Char) (List Char × TraceNodes.TagInfo)) :
    SortedMap (List Char) (List Char × TraceNodes.TagInfo) :=
  match getObjectItem root "tag_category".toList with
  | none => tagInfos
  | some tagCategoryNode => (children tagCategoryNode).foldl (addTag cJson memory) tagInfos

def tagList : List (List Char) :=
  (children root).filterMap fun tagNameNode => stringItem (some tagNameNode.2)

def addTagGroup (tagGroups : SortedMap (List Char) (List (List Char)))
    (tagGroupNode : Option (List Char) × Json) : SortedMap (List Char) (List (List Char)) :=
  match tagGroupNode.1 with
  | none => tagGroups
  | some tagGroupName => tagGroups.insert tagGroupName (tagList tagGroupNode.2)

def parseTagGroups (tagGroups : SortedMap (List Char) (List (List Char))) :
    SortedMap (List Char) (List (List Char)) :=
  match getObjectItem root "tag_groups".toList with
  | none => tagGroups
  | some tagGroupsNode => (children tagGroupsNode).foldl addTagGroup tagGroups

/-- `GetIntFromJson` and `GetInt64FromJson`: the value, if there is one. -/
def getIntFromJson (key : List Char) : Option Int32 :=
  numberItem cJson (getObjectItem root key)

/-- `content` is that of the file, if it can be opened. -/
def parseJsonFromFile (content : Option (List Char)) : Option Json :=
  content.bind fun text => cJson.parse (cString text)

end Files

def initSnapshotDefaultBufferSize (product : Product) : Int32 :=
  let snapshotBufSzKb :=
    if product.isHmKernel then
      if (product.memTotal / memGb + 4 - 1) / 4 * 4 ≥ 16 then
        hmDefaultSnapshotBufferSizeKb + extraBufferSizeKbGe16gDevice
      else hmDefaultSnapshotBufferSizeKb
    else defaultSnapshotBufferSizeKb
  if product.snapshotTracebufferSize ≠ 0 then product.snapshotTracebufferSize
  else snapshotBufSzKb

def init (product : Product) : TraceJsonParser where
  traceTagInfos := SortedMap.empty
  tagGroups := SortedMap.empty
  baseTraceFormats := []
  snapshotBufSzKb := initSnapshotDefaultBufferSize product
  snapShotAgeingParam :=
    { fileNumberLimit := if product.snapshotFileLimit ≠ 0 then product.snapshotFileLimit
        else defaultSnapshotFileNumberLimit }
  recordAgeingParam :=
    { fileNumberLimit := if product.recordFileLimit ≠ 0 then product.recordFileLimit
        else defaultRecordFileNumberLimit }

section Parsing

variable (cJson : CJson) (memory : List Char → TagMemory)

def setRootEnable (param : AgeingParam) : Option Int32 → AgeingParam
  | none => param
  | some value => { param with rootEnable := decide (value ≠ 0) }

def setSnapshotBufSz (snapshotBufSzKb : Int32) : Option Int32 → Int32
  | none => snapshotBufSzKb
  | some value => if value ≠ 0 then value else snapshotBufSzKb

def parseHitraceUtilsJson (content : Option (List Char)) (parser : TraceJsonParser) :
    TraceJsonParser :=
  match parseJsonFromFile cJson content with
  | none => parser
  | some root =>
      { traceTagInfos := parseTagCategory cJson memory root parser.traceTagInfos
        baseTraceFormats := parser.baseTraceFormats ++
          getStringFromJsonVector root "base_format_path".toList
        tagGroups := parseTagGroups root parser.tagGroups
        snapShotAgeingParam := setRootEnable parser.snapShotAgeingParam
          (getIntFromJson cJson root "snapshot_file_aging".toList)
        recordAgeingParam := setRootEnable parser.recordAgeingParam
          (getIntFromJson cJson root "record_file_aging".toList)
        snapshotBufSzKb := setSnapshotBufSz parser.snapshotBufSzKb
          (getIntFromJson cJson root "snapshot_buffer_kb".toList) }

def setFileSizeKbLimit (param : AgeingParam) : Option Int32 → AgeingParam
  | none => param
  | some value => { param with fileSizeKbLimit := value.toInt }

def parseProductConfigJson (content : Option (List Char)) (parser : TraceJsonParser) :
    TraceJsonParser :=
  match parseJsonFromFile cJson content with
  | none => parser
  | some root =>
      let tRootAgeingEnable := getIntFromJson cJson root "root_ageing_enable".toList
      { parser with
        recordAgeingParam := setRootEnable
          (setFileSizeKbLimit parser.recordAgeingParam
            (getIntFromJson cJson root "record_file_kb_size".toList)) tRootAgeingEnable
        snapShotAgeingParam := setRootEnable
          (setFileSizeKbLimit parser.snapShotAgeingParam
            (getIntFromJson cJson root "snapshot_file_kb_size".toList)) tRootAgeingEnable
        snapshotBufSzKb :=
          (getIntFromJson cJson root "default_buffer_kb_size".toList).getD
            parser.snapshotBufSzKb }

/-- The constructor, on the contents of the two files. -/
def traceJsonParser (product : Product) (hitraceUtilsJson productConfigJson :
    Option (List Char)) : TraceJsonParser :=
  parseProductConfigJson cJson productConfigJson
    (parseHitraceUtilsJson cJson memory hitraceUtilsJson (init product))

end Parsing

def getAgeingParam (parser : TraceJsonParser) : TraceDumpType → AgeingParam
  | .traceRecording => parser.recordAgeingParam
  | .traceSnapshot => parser.snapShotAgeingParam
  | .traceCache | .traceAsyncRead | .traceAsyncWrite => {}

/-- The tags as the openings use them. -/
def tagTable (parser : TraceJsonParser) : TraceNodes.TagTable where
  entries := parser.traceTagInfos.entries.map fun entry => (entry.1, entry.2.2)
  unique := by
    rw [List.map_map]
    exact parser.traceTagInfos.nodup_keys

/-! What the parser makes of two files. -/

/-- The members of the node under `key`. -/
def members (root : Json) (key : List Char) : List (Option (List Char) × Json) :=
  match getObjectItem root key with
  | none => []
  | some node => children node

def named (name : List Char) (nodes : List (Option (List Char) × Json)) : List Json :=
  nodes.filterMap fun node => if node.1 = some name then some node.2 else none

/-- The tag with the paths of these nodes behind its own. -/
def withPaths (tag : List Char × TraceNodes.TagInfo) (nodes : List Json) :
    List Char × TraceNodes.TagInfo :=
  (tag.1,
    { tag.2 with
      enablePath := tag.2.enablePath ++
        nodes.flatMap fun node => getStringFromJsonVector node "enable_path".toList
      formatPath := tag.2.formatPath ++
        nodes.flatMap fun node => getStringFromJsonVector node "format_path".toList })

/-- The tag of the first node, with the paths of all of them. -/
def mergedTag (cJson : CJson) (found : TagMemory) :
    List Json → Option (List Char × TraceNodes.TagInfo)
  | [] => none
  | first :: rest => some (withPaths (newTag cJson first found) rest)

theorem tagTable_find (parser : TraceJsonParser) (name : List Char) :
    parser.tagTable.find name = (parser.traceTagInfos.lookup name).map Prod.snd :=
  SortedMap.lookup_map Prod.snd parser.traceTagInfos

section Tables

variable {cJson : CJson} {memory : List Char → TagMemory} {name other : List Char}
  {node : Json} {nodes : List (Option (List Char) × Json)}
  {tagInfos : SortedMap (List Char) (List Char × TraceNodes.TagInfo)}

@[simp] theorem named_nil : named name [] = [] :=
  rfl

theorem named_cons_self : named name ((some name, node) :: nodes) = node :: named name nodes := by
  simp [named]

theorem named_cons_of_ne {key : Option (List Char)} (hkey : key ≠ some name) :
    named name ((key, node) :: nodes) = named name nodes := by
  simp [named, hkey]

theorem withPaths_nil (tag : List Char × TraceNodes.TagInfo) : withPaths tag [] = tag := by
  simp [withPaths]

theorem withPaths_addPaths (tag : List Char × TraceNodes.TagInfo) (rest : List Json) :
    withPaths (addPaths node tag) rest = withPaths tag (node :: rest) := by
  simp [withPaths, addPaths]

theorem lookup_addTag_self :
    (addTag cJson memory tagInfos (some name, node)).lookup name =
      match tagInfos.lookup name with
      | some tag => some (addPaths node tag)
      | none => some (newTag cJson node (memory name)) := by
  cases hfound : tagInfos.lookup name with
  | none => simp [addTag, hfound]
  | some tag => simp [addTag, hfound]

theorem lookup_addTag_of_ne {key : Option (List Char)} (hkey : key ≠ some name) :
    (addTag cJson memory tagInfos (key, node)).lookup name = tagInfos.lookup name := by
  cases key with
  | none => rfl
  | some other =>
      have hne : ¬ name = other := fun heq => hkey (congrArg some heq.symm)
      cases hfound : tagInfos.lookup other with
      | none => simp [addTag, hfound, hne]
      | some tag => simp [addTag, hfound, hne]

theorem lookup_foldl_addTag :
    (nodes.foldl (addTag cJson memory) tagInfos).lookup name =
      match tagInfos.lookup name with
      | some tag => some (withPaths tag (named name nodes))
      | none => mergedTag cJson (memory name) (named name nodes) := by
  induction nodes generalizing tagInfos with
  | nil =>
      cases hfound : tagInfos.lookup name with
      | none => simp [hfound, mergedTag]
      | some tag => simp [hfound, withPaths_nil]
  | cons first rest ih =>
      obtain ⟨key, node⟩ := first
      rw [List.foldl_cons, ih]
      by_cases hkey : key = some name
      · rw [hkey, lookup_addTag_self, named_cons_self]
        cases tagInfos.lookup name with
        | none => rfl
        | some tag => exact congrArg some (withPaths_addPaths tag _)
      · rw [lookup_addTag_of_ne hkey, named_cons_of_ne hkey]

theorem lookup_foldl_addTagGroup (tagGroups : SortedMap (List Char) (List (List Char))) :
    (nodes.foldl addTagGroup tagGroups).lookup name =
      (tagGroups.lookup name).or ((named name nodes).head?.map tagList) := by
  induction nodes generalizing tagGroups with
  | nil => simp
  | cons first rest ih =>
      obtain ⟨key, node⟩ := first
      rw [List.foldl_cons, ih]
      cases key with
      | none => rw [named_cons_of_ne (by simp), addTagGroup]
      | some key =>
          by_cases hkey : key = name
          · subst hkey
            rw [named_cons_self, addTagGroup, SortedMap.lookup_insert, if_pos rfl]
            cases tagGroups.lookup key <;> rfl
          · rw [named_cons_of_ne (fun heq => hkey (Option.some.inj heq)), addTagGroup,
              SortedMap.lookup_insert, if_neg (Ne.symm hkey)]

theorem parseTagCategory_eq (root : Json) :
    parseTagCategory cJson memory root tagInfos =
      (members root "tag_category".toList).foldl (addTag cJson memory) tagInfos := by
  rw [parseTagCategory, members]
  cases getObjectItem root "tag_category".toList <;> rfl

theorem parseTagGroups_eq (root : Json)
    (tagGroups : SortedMap (List Char) (List (List Char))) :
    parseTagGroups root tagGroups =
      (members root "tag_groups".toList).foldl addTagGroup tagGroups := by
  rw [parseTagGroups, members]
  cases getObjectItem root "tag_groups".toList <;> rfl

end Tables

/-- A file that cannot be read is one without members. -/
def rootOf (cJson : CJson) (content : Option (List Char)) : Json :=
  (parseJsonFromFile cJson content).getD .null

/-- A switch that both files may set, the one of the product first. -/
def switched (product base : Option Int32) : Bool :=
  ((product.or base).map fun value => decide (value ≠ 0)).getD true

/-- The tag of a name is that of its first member, with the paths of all of them; a group is
that of its first member.  What the product says goes before what the system says, which goes
before the defaults. -/
structure Configured (cJson : CJson) (memory : List Char → TagMemory) (product : Product)
    (base config : Json) (parser : TraceJsonParser) : Prop where
  tags : ∀ name, parser.traceTagInfos.lookup name =
    mergedTag cJson (memory name) (named name (members base "tag_category".toList))
  table : ∀ name, parser.tagTable.find name =
    (mergedTag cJson (memory name) (named name (members base "tag_category".toList))).map
      Prod.snd
  groups : ∀ name, parser.tagGroups.lookup name =
    (named name (members base "tag_groups".toList)).head?.map tagList
  formats : parser.baseTraceFormats =
    getStringFromJsonVector base "base_format_path".toList
  buffer : parser.snapshotBufSzKb =
    ((getIntFromJson cJson config "default_buffer_kb_size".toList).or
      ((getIntFromJson cJson base "snapshot_buffer_kb".toList).filter (· ≠ 0))).getD
      (initSnapshotDefaultBufferSize product)
  snapShot : parser.snapShotAgeingParam =
    { rootEnable := switched (getIntFromJson cJson config "root_ageing_enable".toList)
        (getIntFromJson cJson base "snapshot_file_aging".toList)
      fileNumberLimit := (init product).snapShotAgeingParam.fileNumberLimit
      fileSizeKbLimit :=
        ((getIntFromJson cJson config "snapshot_file_kb_size".toList).map Int32.toInt).getD 0 }
  record : parser.recordAgeingParam =
    { rootEnable := switched (getIntFromJson cJson config "root_ageing_enable".toList)
        (getIntFromJson cJson base "record_file_aging".toList)
      fileNumberLimit := (init product).recordAgeingParam.fileNumberLimit
      fileSizeKbLimit :=
        ((getIntFromJson cJson config "record_file_kb_size".toList).map Int32.toInt).getD 0 }

section Parser

variable (cJson : CJson) (memory : List Char → TagMemory) (product : Product)

theorem ageingParam_eq (param : AgeingParam) (henable : param.rootEnable = true)
    (hsize : param.fileSizeKbLimit = 0) (enable limit base : Option Int32) :
    setRootEnable (setFileSizeKbLimit (setRootEnable param base) limit) enable =
      { rootEnable := switched enable base
        fileNumberLimit := param.fileNumberLimit
        fileSizeKbLimit := (limit.map Int32.toInt).getD 0 } := by
  obtain ⟨rootEnable, fileNumberLimit, fileSizeKbLimit⟩ := param
  subst henable hsize
  cases enable <;> cases limit <;> cases base <;> rfl

theorem setSnapshotBufSz_eq (snapshotBufSzKb : Int32) (value : Option Int32) :
    setSnapshotBufSz snapshotBufSzKb value =
      (value.filter (· ≠ 0)).getD snapshotBufSzKb := by
  cases value with
  | none => rfl
  | some value =>
      by_cases hvalue : value = 0
      · simp [setSnapshotBufSz, Option.filter, hvalue]
      · simp [setSnapshotBufSz, Option.filter, hvalue]

theorem parseHitraceUtilsJson_eq (content : Option (List Char)) (parser : TraceJsonParser) :
    parseHitraceUtilsJson cJson memory content parser =
      { traceTagInfos := (members (rootOf cJson content) "tag_category".toList).foldl
          (addTag cJson memory) parser.traceTagInfos
        baseTraceFormats := parser.baseTraceFormats ++
          getStringFromJsonVector (rootOf cJson content) "base_format_path".toList
        tagGroups := (members (rootOf cJson content) "tag_groups".toList).foldl addTagGroup
          parser.tagGroups
        snapShotAgeingParam := setRootEnable parser.snapShotAgeingParam
          (getIntFromJson cJson (rootOf cJson content) "snapshot_file_aging".toList)
        recordAgeingParam := setRootEnable parser.recordAgeingParam
          (getIntFromJson cJson (rootOf cJson content) "record_file_aging".toList)
        snapshotBufSzKb := setSnapshotBufSz parser.snapshotBufSzKb
          (getIntFromJson cJson (rootOf cJson content) "snapshot_buffer_kb".toList) } := by
  rw [parseHitraceUtilsJson, rootOf]
  cases parseJsonFromFile cJson content with
  | none =>
      rw [Option.getD_none]
      show parser = { parser with baseTraceFormats := parser.baseTraceFormats ++ [] }
      rw [List.append_nil]
  | some root =>
      rw [Option.getD_some, ← parseTagCategory_eq, ← parseTagGroups_eq]

theorem parseProductConfigJson_eq (content : Option (List Char)) (parser : TraceJsonParser) :
    parseProductConfigJson cJson content parser =
      { parser with
        recordAgeingParam := setRootEnable
          (setFileSizeKbLimit parser.recordAgeingParam
            (getIntFromJson cJson (rootOf cJson content) "record_file_kb_size".toList))
          (getIntFromJson cJson (rootOf cJson content) "root_ageing_enable".toList)
        snapShotAgeingParam := setRootEnable
          (setFileSizeKbLimit parser.snapShotAgeingParam
            (getIntFromJson cJson (rootOf cJson content) "snapshot_file_kb_size".toList))
          (getIntFromJson cJson (rootOf cJson content) "root_ageing_enable".toList)
        snapshotBufSzKb :=
          (getIntFromJson cJson (rootOf cJson content) "default_buffer_kb_size".toList).getD
            parser.snapshotBufSzKb } := by
  rw [parseProductConfigJson, rootOf]
  cases parseJsonFromFile cJson content <;> rfl

theorem trace_json_configured (hitraceUtilsJson productConfigJson : Option (List Char)) :
    Configured cJson memory product (rootOf cJson hitraceUtilsJson)
      (rootOf cJson productConfigJson)
      (traceJsonParser cJson memory product hitraceUtilsJson productConfigJson) := by
  have htags : ∀ name, (traceJsonParser cJson memory product hitraceUtilsJson
      productConfigJson).traceTagInfos.lookup name =
      mergedTag cJson (memory name)
        (named name (members (rootOf cJson hitraceUtilsJson) "tag_category".toList)) := by
    intro name
    rw [traceJsonParser, parseProductConfigJson_eq, parseHitraceUtilsJson_eq]
    exact lookup_foldl_addTag
  rw [traceJsonParser, parseProductConfigJson_eq, parseHitraceUtilsJson_eq] at htags ⊢
  exact
    { tags := htags
      table := by
        intro name
        rw [tagTable_find, htags]
      groups := fun name => lookup_foldl_addTagGroup SortedMap.empty
      formats := List.nil_append _
      buffer := by
        show (getIntFromJson cJson (rootOf cJson productConfigJson)
          "default_buffer_kb_size".toList).getD (setSnapshotBufSz
            (initSnapshotDefaultBufferSize product) (getIntFromJson cJson
              (rootOf cJson hitraceUtilsJson) "snapshot_buffer_kb".toList)) = _
        rw [setSnapshotBufSz_eq, Option.getD_or]
      snapShot := ageingParam_eq _ rfl rfl _ _ _
      record := ageingParam_eq _ rfl rfl _ _ _ }

end Parser

end TraceJsonParser

end Hitrace
