import Hitrace.HitraceDump.OpenTrace
import Hitrace.Library.Decimal
import Hitrace.Library.Overwrite
import Hitrace.Library.SortedSet
import Hitrace.Utils.WordSearch
import Mathlib.Data.Char
import Mathlib.Data.List.Lex

namespace Hitrace

open Library

/-! `SetTraceSetting` of `hitrace_dump.cpp` on the nodes below the trace root and the
parameter `debug.hitrace.tags.enableflags`, when every write succeeds. -/

namespace TraceNodes

def tracingOn : List Char := "tracing_on".toList
def bufferSizeKb : List Char := "buffer_size_kb".toList
def traceNode : List Char := "trace".toList
def tracePipeRaw : List Char := "trace_pipe_raw".toList
def setEventPid : List Char := "set_event_pid".toList
def currentTracer : List Char := "current_tracer".toList
def traceClock : List Char := "trace_clock".toList
def overwriteOption : List Char := "options/overwrite".toList
def savedCmdlinesSize : List Char := "saved_cmdlines_size".toList
def recordTgid : List Char := "options/record-tgid".toList
def recordCmd : List Char := "options/record-cmd".toList

/-- The nodes that paths below the trace root lead to.  `saved_cmdlines_size` is a node of
its own. -/
structure NodeTree (ν : Type) where
  node : List Char → ν
  apart : ∀ path ∈ [tracingOn, bufferSizeKb, traceNode, tracePipeRaw, setEventPid],
    node path ≠ node savedCmdlinesSize

structure NodeState (ν : Type) where
  nodes : ν → List Char
  enableFlags : List Char

/-- `TraceTag` with its paths; `type` is 0 for a user tag and 1 for a kernel tag. -/
structure TagInfo where
  tag : UInt64
  type : Int
  enablePath : List (List Char) := []
  formatPath : List (List Char) := []
deriving Repr, DecidableEq

/-- `std::map<std::string, TraceTag>`. -/
structure TagTable where
  entries : List (List Char × TagInfo)
  unique : (entries.map Prod.fst).Nodup

def TagTable.find (table : TagTable) (name : List Char) : Option TagInfo :=
  table.entries.lookup name

/-! `SearchWordsByKeyWord`. -/

def isWordBreak (char : Char) : Bool :=
  char == ' ' || char == '\n' || char == '\r' || char == '\t'

/-- Every turn gets past the keyword, so the length of the source bounds the turns. -/
def searchWords (source key : List Char) : Nat → Option Nat → List (List Char)
  | _, none => []
  | 0, some _ => []
  | turns + 1, some pos =>
      let left := ((source.take pos).reverse.takeWhile fun char => !isWordBreak char).length
      let right := pos + key.length +
        ((source.drop (pos + key.length)).takeWhile fun char => !isWordBreak char).length
      (source.drop (pos - left)).take (right - (pos - left)) ::
        searchWords source key turns (findWordFrom key source right)

def searchWordsByKeyWord (source key : List Char) : List (List Char) :=
  if key.isEmpty then []
  else searchWords source key (source.length + 1) (findWord key source)

/-- The clock to write; `none` means that it is set already. -/
def targetClock (clockType : List Char) : List (List Char) → Option (List Char)
  | [] => some "boot".toList
  | findType :: rest =>
      if findType.length = clockType.length then some clockType
      else if findType.length - clockType.length = 2 ∧ findType.head? = some '[' ∧
          findType.getLast? = some ']' then none
      else targetClock clockType rest

section Steps

variable {ν : Type} [DecidableEq ν] (tree : NodeTree ν)

namespace NodeState

variable (state : NodeState ν)

def writeStrToFile (filename str : List Char) : NodeState ν :=
  { state with nodes := Function.update state.nodes (tree.node filename) str }

def setTraceNodeStatus (path : List Char) (enabled : Bool) : NodeState ν :=
  state.writeStrToFile tree path (if enabled then "1".toList else "0".toList)

def truncateFile (path : List Char) : NodeState ν :=
  state.writeStrToFile tree path []

def readFile (filename : List Char) : List Char :=
  state.nodes (tree.node filename)

def setEnablePath (tag : TagInfo) (enabled : Bool) : NodeState ν :=
  tag.enablePath.foldl (fun state path => state.setTraceNodeStatus tree path enabled) state

def traceInit (allTags : TagTable) : NodeState ν :=
  let closed := allTags.entries.foldl
    (fun state entry =>
      if entry.2.type ≠ 1 then state else state.setEnablePath tree entry.2 false) state
  (({ closed with enableFlags := Decimal.text 0 }).setTraceNodeStatus tree tracingOn
    false).writeStrToFile tree bufferSizeKb "1".toList

def setClock (clockType : List Char) : NodeState ν :=
  match targetClock clockType
      (searchWordsByKeyWord (state.readFile tree traceClock) clockType) with
  | none => state
  | some targetClockType => state.writeStrToFile tree traceClock targetClockType

end NodeState

def insertGroup (tagGroupTable : List (List Char × List (List Char)))
    (set : List (List Char)) (groupName : List Char) : List (List Char) :=
  match tagGroupTable.lookup groupName with
  | none => set
  | some tags => SortedSet.insertAll tags set

/-- The `std::set` of `SetAllTags`. -/
def readyEnableTagList (tagGroupTable : List (List Char × List (List Char)))
    (savedCmdlinesSize : List Char) (traceParams : TraceParams) : List (List Char) :=
  let requested := SortedSet.insertAll traceParams.tags []
  let isSchedltExisting := traceParams.tags.contains "schedlt".toList
  let isSchedExisting := traceParams.tags.contains "sched".toList
  let supported :=
    if isSchedltExisting && !isSchedExisting &&
        (findWord "10240".toList savedCmdlinesSize).isNone then
      SortedSet.insert "sched".toList requested
    else requested
  traceParams.tagGroups.foldl (insertGroup tagGroupTable) supported

/-- What the last loop of `SetAllTags` has written and collected. -/
structure TagLoop (ν : Type) where
  state : NodeState ν
  enabledUserTags : UInt64
  tagFmts : List (List Char)

def TagLoop.enable (allTags : TagTable) (loop : TagLoop ν) (tagName : List Char) :
    TagLoop ν :=
  match allTags.find tagName with
  | none => loop
  | some tag =>
      if tag.type = 0 then { loop with enabledUserTags := loop.enabledUserTags ||| tag.tag }
      else if tag.type = 1 then
        { loop with
          state := loop.state.setEnablePath tree tag true
          tagFmts := loop.tagFmts ++ tag.formatPath }
      else loop

/-- The nodes and the parameter, and the format paths. -/
def setAllTags (traceParams : TraceParams) (allTags : TagTable)
    (tagGroupTable : List (List Char × List (List Char))) (tagFmts : List (List Char))
    (state : NodeState ν) : NodeState ν × List (List Char) :=
  let names := readyEnableTagList tagGroupTable (state.readFile tree savedCmdlinesSize)
    traceParams
  let loop := names.foldl (TagLoop.enable tree allTags) ⟨state, 0, tagFmts⟩
  ({ loop.state with enableFlags := Decimal.text loop.enabledUserTags.toNat }, loop.tagFmts)

/-- What `SetTraceSetting` writes behind `SetAllTags`. -/
def writeSettings (traceParams : TraceParams) (state : NodeState ν) : NodeState ν :=
  let state := state.writeStrToFile tree currentTracer "nop".toList
  let state := state.writeStrToFile tree bufferSizeKb traceParams.bufferSize
  let state := state.setClock tree traceParams.clockType
  let state := state.writeStrToFile tree overwriteOption
    (if traceParams.isOverWrite = "1".toList then "1".toList else "0".toList)
  let state := state.writeStrToFile tree savedCmdlinesSize (Decimal.text 3072)
  let state := state.writeStrToFile tree recordTgid "1".toList
  state.writeStrToFile tree recordCmd "1".toList

/-- `eventPids` is what `set_event_pid` holds behind `AddFilterPids`. -/
def setTraceSetting (eventPids : List Char) (traceParams : TraceParams) (allTags : TagTable)
    (tagGroupTable : List (List Char × List (List Char))) (tagFmts : List (List Char))
    (state : NodeState ν) : NodeState ν × List (List Char) :=
  let state :=
    if traceParams.filterPids.isEmpty then state
    else (state.writeStrToFile tree setEventPid eventPids).truncateFile tree tracePipeRaw
  let state := (state.traceInit tree allTags).truncateFile tree traceNode
  let (state, tagFmts) := setAllTags tree traceParams allTags tagGroupTable tagFmts state
  (writeSettings tree traceParams state, tagFmts)

end Steps

/-! The request. -/

/-- The nodes that `SetTraceSetting` itself writes or empties once the kernel tags are
closed, `tracing_on` apart. -/
def settingNodes : List (List Char) :=
  [traceNode, bufferSizeKb, currentTracer, traceClock, overwriteOption, savedCmdlinesSize,
    recordTgid, recordCmd]

/-- The kernel tags leave these nodes alone. -/
def TagTable.EventPaths {ν : Type} (tree : NodeTree ν) (table : TagTable) : Prop :=
  ∀ entry ∈ table.entries, entry.2.type = 1 → ∀ path ∈ entry.2.enablePath,
    ∀ setting ∈ settingNodes, tree.node path ≠ tree.node setting

section Request

variable (tagGroupTable : List (List Char × List (List Char))) (cmdlines : List Char)
  (traceParams : TraceParams)

/-- A tag of the request, of one of its groups, or `sched` in the place of a `schedlt` that
the device does not support. -/
def Requested (name : List Char) : Prop :=
  name ∈ traceParams.tags ∨
    (name = "sched".toList ∧ "schedlt".toList ∈ traceParams.tags ∧
      "sched".toList ∉ traceParams.tags ∧ ¬ "10240".toList <:+: cmdlines) ∨
    ∃ group ∈ traceParams.tagGroups, ∃ names, tagGroupTable.lookup group = some names ∧
      name ∈ names

variable {tagGroupTable cmdlines traceParams} {name : List Char}

theorem findWord_isNone_iff {word text : List Char} :
    (findWord word text).isNone = true ↔ ¬ word <:+: text := by
  rw [Option.isNone_iff_eq_none]
  constructor
  · rintro hnone ⟨front, back, htext⟩
    refine findWord_eq_none hnone front.length (occurs_iff.mpr ⟨front, back, ?_, rfl⟩)
    rw [← htext, List.append_assoc]
  · intro hinside
    cases hfound : findWord word text with
    | none => rfl
    | some index =>
        obtain ⟨front, back, htext, _⟩ := occurs_iff.mp (findWord_eq_some hfound).occurs
        exact absurd ⟨front, back, by rw [htext, List.append_assoc]⟩ hinside

theorem mem_insertGroup {set : List (List Char)} {group : List Char} :
    name ∈ insertGroup tagGroupTable set group ↔
      name ∈ set ∨ ∃ names, tagGroupTable.lookup group = some names ∧ name ∈ names := by
  rw [insertGroup]
  cases tagGroupTable.lookup group with
  | none => simp
  | some tags => simp [or_comm]

theorem mem_insertGroups {groups : List (List Char)} {set : List (List Char)} :
    name ∈ groups.foldl (insertGroup tagGroupTable) set ↔
      name ∈ set ∨ ∃ group ∈ groups, ∃ names, tagGroupTable.lookup group = some names ∧
        name ∈ names := by
  induction groups generalizing set with
  | nil => simp
  | cons group groups ih =>
      rw [List.foldl_cons, ih, mem_insertGroup, or_assoc]
      simp only [List.mem_cons, exists_eq_or_imp]

theorem pairwise_insertGroups {groups : List (List Char)} {set : List (List Char)}
    (hset : set.Pairwise (· < ·)) :
    (groups.foldl (insertGroup tagGroupTable) set).Pairwise (· < ·) := by
  induction groups generalizing set with
  | nil => exact hset
  | cons group groups ih =>
      apply ih
      rw [insertGroup]
      cases tagGroupTable.lookup group with
      | none => exact hset
      | some tags => exact SortedSet.pairwise_insertAll hset

/-- `sched` takes the place of `schedlt`. -/
theorem sched_fallback_iff {tags : List (List Char)} :
    (tags.contains "schedlt".toList && !tags.contains "sched".toList &&
        (findWord "10240".toList cmdlines).isNone) = true ↔
      "schedlt".toList ∈ tags ∧ "sched".toList ∉ tags ∧ ¬ "10240".toList <:+: cmdlines := by
  have hsched : (!tags.contains "sched".toList) = true ↔ "sched".toList ∉ tags := by
    rw [Bool.not_eq_true', Bool.eq_false_iff, ne_eq, List.contains_iff_mem]
  rw [Bool.and_eq_true, Bool.and_eq_true, findWord_isNone_iff, hsched, List.contains_iff_mem,
    and_assoc]

theorem mem_readyEnableTagList :
    name ∈ readyEnableTagList tagGroupTable cmdlines traceParams ↔
      Requested tagGroupTable cmdlines traceParams name := by
  rw [readyEnableTagList, mem_insertGroups, Requested, ← or_assoc]
  refine or_congr_left ?_
  split
  · next hsched =>
      rw [SortedSet.mem_insert, SortedSet.mem_insertAll, or_comm,
        or_iff_left List.not_mem_nil, and_iff_left (sched_fallback_iff.mp hsched)]
  · next hsched =>
      have hmiss : ¬ (name = "sched".toList ∧ "schedlt".toList ∈ traceParams.tags ∧
          "sched".toList ∉ traceParams.tags ∧ ¬ "10240".toList <:+: cmdlines) :=
        fun hall => hsched (sched_fallback_iff.mpr hall.2)
      rw [or_iff_left hmiss, SortedSet.mem_insertAll, or_iff_left List.not_mem_nil]

theorem pairwise_readyEnableTagList :
    (readyEnableTagList tagGroupTable cmdlines traceParams).Pairwise (· < ·) := by
  apply pairwise_insertGroups
  have hrequested : (SortedSet.insertAll traceParams.tags []).Pairwise (· < ·) :=
    SortedSet.pairwise_insertAll List.Pairwise.nil
  split
  · exact SortedSet.pairwise_insert hrequested
  · exact hrequested

/-- Neither order nor repetition counts. -/
theorem readyEnableTagList_congr {tags tagGroups : List (List Char)}
    (htags : ∀ name, name ∈ tags ↔ name ∈ traceParams.tags)
    (hgroups : ∀ name, name ∈ tagGroups ↔ name ∈ traceParams.tagGroups) :
    readyEnableTagList tagGroupTable cmdlines { traceParams with tags, tagGroups } =
      readyEnableTagList tagGroupTable cmdlines traceParams := by
  apply SortedSet.eq_of_mem_iff pairwise_readyEnableTagList pairwise_readyEnableTagList
  intro name
  rw [mem_readyEnableTagList, mem_readyEnableTagList, Requested, Requested]
  simp only [htags, hgroups]

end Request

/-! What each step makes of a node. -/

section Nodes

variable {ν : Type} [DecidableEq ν] {tree : NodeTree ν} {state : NodeState ν}
  {allTags : TagTable} {place : ν}

/-- The tag has the node among its own. -/
def TagInfo.Reaches (tree : NodeTree ν) (place : ν) (tag : TagInfo) : Prop :=
  tag.type = 1 ∧ ∃ path ∈ tag.enablePath, tree.node path = place

theorem writeStrToFile_ne {filename : List Char} (hplace : tree.node filename ≠ place)
    (str : List Char) :
    (state.writeStrToFile tree filename str).nodes place = state.nodes place :=
  Function.update_of_ne hplace.symm _ _

theorem setEnablePath_overwritten (tag : TagInfo) (enabled : Bool) :
    Overwritten (∃ path ∈ tag.enablePath, tree.node path = place)
      (if enabled then "1".toList else "0".toList) (state.nodes place)
      ((state.setEnablePath tree tag enabled).nodes place) := by
  refine overwritten_foldl (fun state : NodeState ν => state.nodes place) ?_ tag.enablePath
    state
  intro state path
  exact overwritten_update _ _ _ _

theorem closed_overwritten (entries : List (List Char × TagInfo)) :
    Overwritten (∃ entry ∈ entries, entry.2.Reaches tree place) "0".toList
      (state.nodes place)
      ((entries.foldl
        (fun state entry =>
          if entry.2.type ≠ 1 then state else state.setEnablePath tree entry.2 false)
        state).nodes place) := by
  refine overwritten_foldl (fun state : NodeState ν => state.nodes place) ?_ entries state
  intro state entry
  by_cases htype : entry.2.type = 1
  · rw [if_neg (not_not_intro htype)]
    exact (setEnablePath_overwritten entry.2 false).congr (iff_and_self.mpr fun _ => htype)
  · rw [if_pos htype]
    exact .inr ⟨fun hreaches => htype hreaches.1, rfl⟩

theorem enable_overwritten (loop : TagLoop ν) (tagName : List Char) :
    Overwritten (∃ tag, allTags.find tagName = some tag ∧ tag.Reaches tree place) "1".toList
      (loop.state.nodes place) ((loop.enable tree allTags tagName).state.nodes place) := by
  rw [TagLoop.enable]
  cases hfind : allTags.find tagName with
  | none => exact .inr ⟨by simp, rfl⟩
  | some tag =>
      have hreaches : (∃ other, some tag = some other ∧ other.Reaches tree place) ↔
          tag.Reaches tree place := by simp
      refine Overwritten.congr ?_ hreaches.symm
      dsimp only
      by_cases huser : tag.type = 0
      · rw [if_pos huser]
        refine .inr ⟨fun hkernel => ?_, rfl⟩
        have htype := hkernel.1
        omega
      · rw [if_neg huser]
        by_cases hkernel : tag.type = 1
        · rw [if_pos hkernel]
          exact (setEnablePath_overwritten tag true).congr (iff_and_self.mpr fun _ => hkernel)
        · rw [if_neg hkernel]
          exact .inr ⟨fun hreaches => hkernel hreaches.1, rfl⟩

/-- A node that `SetTraceSetting` does not write itself. -/
def Unset (tree : NodeTree ν) (place : ν) : Prop :=
  ∀ setting ∈ settingNodes, tree.node setting ≠ place

theorem setClock_nodes (hplace : tree.node traceClock ≠ place) (clockType : List Char) :
    (state.setClock tree clockType).nodes place = state.nodes place := by
  rw [NodeState.setClock]
  split
  · rfl
  · exact writeStrToFile_ne hplace _

theorem writeSettings_nodes (hplace : Unset tree place) (traceParams : TraceParams) :
    (writeSettings tree traceParams state).nodes place = state.nodes place := by
  rw [writeSettings, writeStrToFile_ne (hplace recordCmd (by simp [settingNodes])),
    writeStrToFile_ne (hplace recordTgid (by simp [settingNodes])),
    writeStrToFile_ne (hplace savedCmdlinesSize (by simp [settingNodes])),
    writeStrToFile_ne (hplace overwriteOption (by simp [settingNodes])),
    setClock_nodes (hplace traceClock (by simp [settingNodes])),
    writeStrToFile_ne (hplace bufferSizeKb (by simp [settingNodes])),
    writeStrToFile_ne (hplace currentTracer (by simp [settingNodes]))]

theorem TagTable.find_eq_some_iff {table : TagTable} {name : List Char} {tag : TagInfo} :
    table.find name = some tag ↔ (name, tag) ∈ table.entries := by
  obtain ⟨entries, hunique⟩ := table
  rw [TagTable.find]
  induction entries with
  | nil => simp
  | cons entry entries ih =>
      obtain ⟨key, value⟩ := entry
      rw [List.map_cons, List.nodup_cons] at hunique
      have hrest := ih hunique.2
      rw [List.lookup_cons, List.mem_cons, Prod.mk.injEq]
      by_cases hname : name = key
      · subst hname
        have hmiss : (name, tag) ∉ entries := fun hmem =>
          hunique.1 (List.mem_map.mpr ⟨_, hmem, rfl⟩)
        simp [hmiss, eq_comm]
      · have hkey : (name == key) = false := beq_false_of_ne hname
        simp only [hkey, hname, false_and, false_or]
        exact hrest

/-- A node of a kernel tag. -/
def KernelNode (tree : NodeTree ν) (allTags : TagTable) (place : ν) : Prop :=
  ∃ entry ∈ allTags.entries, entry.2.Reaches tree place

omit [DecidableEq ν] in
theorem KernelNode.unset (hpaths : allTags.EventPaths tree)
    (hkernel : KernelNode tree allTags place) : Unset tree place := by
  obtain ⟨entry, hentry, htype, path, hpath, rfl⟩ := hkernel
  intro setting hsetting
  exact (hpaths entry hentry htype path hpath setting hsetting).symm

/-- The passes that close leave 0 in the nodes of the kernel tags. -/
theorem traceInit_nodes (hpaths : allTags.EventPaths tree)
    (hkernel : KernelNode tree allTags place) :
    ((state.traceInit tree allTags).truncateFile tree traceNode).nodes place = "0".toList := by
  have hunset := hkernel.unset hpaths
  have hclosed := (@closed_overwritten _ _ tree state place allTags.entries).of_hit hkernel
  rw [NodeState.truncateFile, writeStrToFile_ne (hunset traceNode (by simp [settingNodes])),
    NodeState.traceInit, writeStrToFile_ne (hunset bufferSizeKb (by simp [settingNodes]))]
  by_cases hplace : tree.node tracingOn = place
  · subst hplace
    exact Function.update_self ..
  · rw [NodeState.setTraceNodeStatus, writeStrToFile_ne hplace]
    exact hclosed

/-- Nothing in front of `SetAllTags` writes `saved_cmdlines_size`. -/
theorem traceInit_cmdlines (hpaths : allTags.EventPaths tree) :
    ((state.traceInit tree allTags).truncateFile tree traceNode).readFile tree
        savedCmdlinesSize = state.readFile tree savedCmdlinesSize := by
  have hmiss : ¬ ∃ entry ∈ allTags.entries,
      entry.2.Reaches tree (tree.node savedCmdlinesSize) := by
    rintro ⟨entry, hentry, htype, path, hpath, hnode⟩
    exact hpaths entry hentry htype path hpath savedCmdlinesSize (by simp [settingNodes]) hnode
  rw [NodeState.readFile, NodeState.truncateFile,
    writeStrToFile_ne (tree.apart traceNode (by simp)), NodeState.traceInit,
    writeStrToFile_ne (tree.apart bufferSizeKb (by simp)), NodeState.setTraceNodeStatus,
    writeStrToFile_ne (tree.apart tracingOn (by simp))]
  exact (closed_overwritten allTags.entries).of_miss hmiss

/-! The flags. -/

theorem enable_userTags (loop : TagLoop ν) (tagName : List Char) (bit : Nat) :
    (loop.enable tree allTags tagName).enabledUserTags.toNat.testBit bit = true ↔
      loop.enabledUserTags.toNat.testBit bit = true ∨
        ∃ tag, allTags.find tagName = some tag ∧ tag.type = 0 ∧
          tag.tag.toNat.testBit bit = true := by
  rw [TagLoop.enable]
  cases allTags.find tagName with
  | none => simp
  | some tag =>
      simp only [Option.some.injEq, exists_eq_left']
      by_cases huser : tag.type = 0
      · simp [huser, Nat.testBit_or]
      · rw [if_neg huser]
        split <;> simp [huser]

theorem foldl_userTags (names : List (List Char)) (loop : TagLoop ν) (bit : Nat) :
    (names.foldl (TagLoop.enable tree allTags) loop).enabledUserTags.toNat.testBit bit = true ↔
      loop.enabledUserTags.toNat.testBit bit = true ∨
        ∃ name ∈ names, ∃ tag, allTags.find name = some tag ∧ tag.type = 0 ∧
          tag.tag.toNat.testBit bit = true := by
  exact raised_foldl (fun loop : TagLoop ν => loop.enabledUserTags.toNat.testBit bit = true)
    (fun loop name => enable_userTags loop name bit) names loop

theorem writeSettings_enableFlags (traceParams : TraceParams) :
    (writeSettings tree traceParams state).enableFlags = state.enableFlags := by
  have hclock (clockType : List Char) (state : NodeState ν) :
      (state.setClock tree clockType).enableFlags = state.enableFlags := by
    rw [NodeState.setClock]
    split <;> rfl
  exact hclock _ _

/-! The whole of `SetTraceSetting`. -/

section Setting

variable {tagGroupTable : List (List Char × List (List Char))} {cmdlines : List Char}
  {traceParams : TraceParams}

/-- A node of a requested kernel tag. -/
def RequestedNode (tree : NodeTree ν) (allTags : TagTable)
    (tagGroupTable : List (List Char × List (List Char))) (cmdlines : List Char)
    (traceParams : TraceParams) (place : ν) : Prop :=
  ∃ entry ∈ allTags.entries, Requested tagGroupTable cmdlines traceParams entry.1 ∧
    entry.2.Reaches tree place

/-- The nodes of kernel tags and the flags are those of the request. -/
structure AsRequested (tree : NodeTree ν) (allTags : TagTable)
    (tagGroupTable : List (List Char × List (List Char))) (cmdlines : List Char)
    (traceParams : TraceParams) (final : NodeState ν) : Prop where
  enabled : ∀ place, RequestedNode tree allTags tagGroupTable cmdlines traceParams place →
    final.nodes place = "1".toList
  disabled : ∀ place, KernelNode tree allTags place →
    ¬ RequestedNode tree allTags tagGroupTable cmdlines traceParams place →
      final.nodes place = "0".toList
  flags : ∃ flags : UInt64, final.enableFlags = Decimal.text flags.toNat ∧
    ∀ bit, flags.toNat.testBit bit = true ↔
      ∃ entry ∈ allTags.entries, Requested tagGroupTable cmdlines traceParams entry.1 ∧
        entry.2.type = 0 ∧ entry.2.tag.toNat.testBit bit = true

omit [DecidableEq ν] in
theorem RequestedNode.kernelNode
    (hrequested : RequestedNode tree allTags tagGroupTable cmdlines traceParams place) :
    KernelNode tree allTags place := by
  obtain ⟨entry, hentry, _, hreaches⟩ := hrequested
  exact ⟨entry, hentry, hreaches⟩

theorem exists_find_iff {property : TagInfo → Prop} :
    (∃ name ∈ readyEnableTagList tagGroupTable cmdlines traceParams,
        ∃ tag, allTags.find name = some tag ∧ property tag) ↔
      ∃ entry ∈ allTags.entries, Requested tagGroupTable cmdlines traceParams entry.1 ∧
        property entry.2 := by
  constructor
  · rintro ⟨name, hname, tag, hfind, hproperty⟩
    exact ⟨(name, tag), TagTable.find_eq_some_iff.mp hfind, mem_readyEnableTagList.mp hname,
      hproperty⟩
  · rintro ⟨⟨name, tag⟩, hentry, hrequested, hproperty⟩
    exact ⟨name, mem_readyEnableTagList.mpr hrequested, tag,
      TagTable.find_eq_some_iff.mpr hentry, hproperty⟩

theorem setAllTags_nodes (tagFmts : List (List Char)) :
    Overwritten
      (RequestedNode tree allTags tagGroupTable (state.readFile tree savedCmdlinesSize)
        traceParams place)
      "1".toList (state.nodes place)
      ((setAllTags tree traceParams allTags tagGroupTable tagFmts state).1.nodes place) := by
  have hloop := overwritten_foldl (fun loop : TagLoop ν => loop.state.nodes place)
    (@enable_overwritten _ _ tree allTags place)
    (readyEnableTagList tagGroupTable (state.readFile tree savedCmdlinesSize) traceParams)
    ⟨state, 0, tagFmts⟩
  exact hloop.congr exists_find_iff

/-- The filter pids reach neither an event node's value nor `saved_cmdlines_size`. -/
theorem filtered_cmdlines (eventPids : List Char) :
    (if traceParams.filterPids.isEmpty then state
      else (state.writeStrToFile tree setEventPid eventPids).truncateFile tree
        tracePipeRaw).readFile tree savedCmdlinesSize =
      state.readFile tree savedCmdlinesSize := by
  split
  · rfl
  · rw [NodeState.readFile, NodeState.truncateFile,
      writeStrToFile_ne (tree.apart tracePipeRaw (by simp)),
      writeStrToFile_ne (tree.apart setEventPid (by simp))]
    rfl

theorem setTraceSetting_congr {tags tagGroups : List (List Char)}
    (htags : ∀ name, name ∈ tags ↔ name ∈ traceParams.tags)
    (hgroups : ∀ name, name ∈ tagGroups ↔ name ∈ traceParams.tagGroups)
    (eventPids : List Char) (tagFmts : List (List Char)) :
    setTraceSetting tree eventPids { traceParams with tags, tagGroups } allTags tagGroupTable
        tagFmts state =
      setTraceSetting tree eventPids traceParams allTags tagGroupTable tagFmts state := by
  simp only [setTraceSetting, setAllTags, readyEnableTagList_congr htags hgroups]
  rfl

/-- The filter pids and the passes that close. -/
def closedState (tree : NodeTree ν) (eventPids : List Char) (traceParams : TraceParams)
    (allTags : TagTable) (state : NodeState ν) : NodeState ν :=
  ((if traceParams.filterPids.isEmpty then state
    else (state.writeStrToFile tree setEventPid eventPids).truncateFile tree
      tracePipeRaw).traceInit tree allTags).truncateFile tree traceNode

theorem closedState_cmdlines (hpaths : allTags.EventPaths tree) (eventPids : List Char) :
    (closedState tree eventPids traceParams allTags state).readFile tree savedCmdlinesSize =
      state.readFile tree savedCmdlinesSize :=
  (traceInit_cmdlines hpaths).trans (filtered_cmdlines eventPids)

theorem setTraceSetting_nodes (hpaths : allTags.EventPaths tree) (eventPids : List Char)
    (tagFmts : List (List Char)) (hkernel : KernelNode tree allTags place) :
    Overwritten
      (RequestedNode tree allTags tagGroupTable (state.readFile tree savedCmdlinesSize)
        traceParams place)
      "1".toList "0".toList
      ((setTraceSetting tree eventPids traceParams allTags tagGroupTable tagFmts
        state).1.nodes place) := by
  have hclosed : (closedState tree eventPids traceParams allTags state).nodes place =
      "0".toList := traceInit_nodes hpaths hkernel
  have hset := @setAllTags_nodes _ _ tree
    (closedState tree eventPids traceParams allTags state) allTags place tagGroupTable
    traceParams tagFmts
  rw [hclosed, closedState_cmdlines hpaths] at hset
  have hwritten := @writeSettings_nodes _ _ tree (setAllTags tree traceParams allTags
    tagGroupTable tagFmts (closedState tree eventPids traceParams allTags state)).1 place
    (hkernel.unset hpaths) traceParams
  rw [← hwritten] at hset
  exact hset

theorem setTraceSetting_flags (hpaths : allTags.EventPaths tree) (eventPids : List Char)
    (tagFmts : List (List Char)) :
    ∃ flags : UInt64,
      (setTraceSetting tree eventPids traceParams allTags tagGroupTable tagFmts
        state).1.enableFlags = Decimal.text flags.toNat ∧
      ∀ bit, flags.toNat.testBit bit = true ↔
        ∃ entry ∈ allTags.entries,
          Requested tagGroupTable (state.readFile tree savedCmdlinesSize) traceParams entry.1 ∧
            entry.2.type = 0 ∧ entry.2.tag.toNat.testBit bit = true := by
  let loop := (readyEnableTagList tagGroupTable (state.readFile tree savedCmdlinesSize)
    traceParams).foldl (TagLoop.enable tree allTags)
      ⟨closedState tree eventPids traceParams allTags state, 0, tagFmts⟩
  refine ⟨loop.enabledUserTags, ?_, fun bit => ?_⟩
  · show (writeSettings tree traceParams (setAllTags tree traceParams allTags tagGroupTable
      tagFmts (closedState tree eventPids traceParams allTags state)).1).enableFlags = _
    rw [writeSettings_enableFlags, setAllTags, closedState_cmdlines hpaths]
  · rw [foldl_userTags, exists_find_iff]
    simp

/-! The flags of the openings. -/

/-- The tag as an opening sees it. -/
def TagInfo.traceTag (tag : TagInfo) : TraceTag where
  tag := tag.tag
  type := if tag.type = 0 then .user else .kernel

theorem enabledUserTags_testBit (environment : OpenEnvironment)
    (htags : ∀ name, findTag environment name = (allTags.find name).map TagInfo.traceTag)
    (traceParams : TraceParams) (bit : Nat) :
    (enabledUserTags environment traceParams).toNat.testBit bit = true ↔
      ∃ name ∈ Hitrace.readyEnableTagList environment traceParams,
        ∃ tag, allTags.find name = some tag ∧ tag.type = 0 ∧
          tag.tag.toNat.testBit bit = true := by
  rw [enabledUserTags]
  refine (@raised_foldl _ _ _ (fun flags : UInt64 => flags.toNat.testBit bit = true)
    (fun name => ∃ tag, allTags.find name = some tag ∧ tag.type = 0 ∧
      tag.tag.toNat.testBit bit = true) ?_ _ 0).trans ?_
  · intro flags name
    rw [htags]
    cases allTags.find name with
    | none => simp
    | some tag =>
        by_cases huser : tag.type = 0
        · simp [TagInfo.traceTag, huser, Nat.testBit_or]
        · simp [TagInfo.traceTag, huser]
  · simp

/-- Both models request the same tags. -/
theorem mem_readyEnableTagList_iff (environment : OpenEnvironment) {name : List Char} :
    name ∈ Hitrace.readyEnableTagList environment traceParams ↔
      Requested environment.tagGroupTable environment.savedCmdlinesSize traceParams name := by
  rw [Hitrace.readyEnableTagList, Requested, List.mem_append, List.mem_append,
    List.mem_flatMap, or_assoc]
  refine or_congr_right (or_congr ?_ ?_)
  · split
    · next hsched =>
        rw [List.mem_singleton, and_iff_left (sched_fallback_iff.mp hsched)]
    · next hsched =>
        refine iff_of_false List.not_mem_nil ?_
        exact fun hall => hsched (sched_fallback_iff.mpr hall.2)
  · refine exists_congr fun group => and_congr_right fun _ => ?_
    rw [findTagGroup]
    cases environment.tagGroupTable.lookup group with
    | none => simp
    | some names => simp

/-- An opening with the same tables stores these flags. -/
theorem setTraceSetting_enabledUserTags (environment : OpenEnvironment)
    (hpaths : allTags.EventPaths tree)
    (htags : ∀ name, findTag environment name = (allTags.find name).map TagInfo.traceTag)
    (hgroups : environment.tagGroupTable = tagGroupTable)
    (hcmdlines : environment.savedCmdlinesSize = state.readFile tree savedCmdlinesSize)
    (eventPids : List Char) (tagFmts : List (List Char)) :
    (setTraceSetting tree eventPids traceParams allTags tagGroupTable tagFmts
        state).1.enableFlags =
      Decimal.text (enabledUserTags environment traceParams).toNat := by
  obtain ⟨flags, htext, hbits⟩ := @setTraceSetting_flags _ _ tree state allTags tagGroupTable
    traceParams hpaths eventPids tagFmts
  rw [htext]
  congr 1
  apply Nat.eq_of_testBit_eq
  intro bit
  rw [Bool.eq_iff_iff, hbits, enabledUserTags_testBit environment htags]
  refine (@exists_find_iff allTags tagGroupTable (state.readFile tree savedCmdlinesSize)
    traceParams fun tag => tag.type = 0 ∧ tag.tag.toNat.testBit bit = true).symm.trans ?_
  refine exists_congr fun name => and_congr_left fun _ => ?_
  rw [mem_readyEnableTagList, mem_readyEnableTagList_iff, hgroups, hcmdlines]

/-- From any state of the nodes and the parameter, `SetTraceSetting` leaves 1 in the nodes of
the requested kernel tags, 0 in those of the others and the bits of the requested user tags
in the parameter, whatever the order and the repetitions of the request. -/
theorem set_trace_setting_as_requested (hpaths : allTags.EventPaths tree)
    (eventPids : List Char) (traceParams : TraceParams)
    (tagGroupTable : List (List Char × List (List Char))) (tagFmts : List (List Char))
    (state : NodeState ν) :
    AsRequested tree allTags tagGroupTable (state.readFile tree savedCmdlinesSize) traceParams
        (setTraceSetting tree eventPids traceParams allTags tagGroupTable tagFmts state).1 ∧
      ∀ tags tagGroups, (∀ name, name ∈ tags ↔ name ∈ traceParams.tags) →
        (∀ name, name ∈ tagGroups ↔ name ∈ traceParams.tagGroups) →
          setTraceSetting tree eventPids { traceParams with tags, tagGroups } allTags
              tagGroupTable tagFmts state =
            setTraceSetting tree eventPids traceParams allTags tagGroupTable tagFmts state := by
  refine ⟨⟨?_, ?_, setTraceSetting_flags hpaths eventPids tagFmts⟩,
    fun tags tagGroups htags hgroups =>
      setTraceSetting_congr htags hgroups eventPids tagFmts⟩
  · intro place hrequested
    exact (setTraceSetting_nodes hpaths eventPids tagFmts hrequested.kernelNode).of_hit
      hrequested
  · intro place hkernel hother
    exact (setTraceSetting_nodes hpaths eventPids tagFmts hkernel).of_miss hother

/-- Every path is a node of its own. -/
def pathTree : NodeTree (List Char) where
  node := id
  apart := by decide

def threeTags : TagTable where
  entries :=
    [("binder".toList, ⟨1, 1, ["events/binder/enable".toList], []⟩),
      ("ohos".toList, ⟨(1 : UInt64) <<< 30, 0, [], []⟩),
      ("sched".toList, ⟨2, 1, ["events/sched/enable".toList], []⟩)]
  unique := by decide

/-- What a session with `binder` and another user tag has left. -/
def binderSession : NodeState (List Char) where
  nodes := fun path =>
    (List.lookup path [("events/binder/enable".toList, "1".toList),
      (tracingOn, "1".toList), (traceClock, "[boot] mono".toList)]).getD []
  enableFlags := "4".toList

def schedRequest : TraceParams where
  tags := ["sched".toList, "ohos".toList, "sched".toList]
  bufferSize := "2048".toList
  clockType := "mono".toList
  isOverWrite := "1".toList

theorem set_trace_setting_as_requested_sched :
    let final := (setTraceSetting pathTree [] schedRequest threeTags [] [] binderSession).1
    AsRequested pathTree threeTags [] [] schedRequest final ∧
      final.nodes "events/sched/enable".toList = "1".toList ∧
      final.nodes "events/binder/enable".toList = "0".toList ∧
      (setTraceSetting pathTree [] { schedRequest with tags := ["ohos".toList, "sched".toList] }
        threeTags [] [] binderSession).1 = final := by
  have hpaths : threeTags.EventPaths pathTree := by
    unfold TagTable.EventPaths
    decide
  obtain ⟨hrequested, hsame⟩ :=
    set_trace_setting_as_requested hpaths [] schedRequest [] [] binderSession
  refine ⟨hrequested, by decide, by decide, congrArg Prod.fst (hsame _ [] ?_ fun _ => Iff.rfl)⟩
  intro name
  rw [schedRequest]
  simp only [List.mem_cons, List.not_mem_nil, or_false]
  constructor
  · rintro (hohos | hsched)
    · exact .inr (.inl hohos)
    · exact .inl hsched
  · rintro (hsched | hohos | hsched)
    · exact .inr hsched
    · exact .inl hohos
    · exact .inr hsched

def bufferTable : TagTable where
  entries := [("binder".toList, ⟨1, 1, [bufferSizeKb], []⟩)]
  unique := by decide

/-- A kernel tag with the node of the buffer size: the size is written over its 1. -/
theorem buffer_size_is_written_over :
    ¬ ∀ (allTags : TagTable) (traceParams : TraceParams) (state : NodeState (List Char)),
      AsRequested pathTree allTags [] (state.readFile pathTree savedCmdlinesSize) traceParams
        (setTraceSetting pathTree [] traceParams allTags [] [] state).1 := by
  intro hall
  have hrequested := (hall bufferTable
    { tags := ["binder".toList], bufferSize := "1024".toList } ⟨fun _ => [], []⟩).enabled
    bufferSizeKb ⟨_, List.mem_cons_self, .inl List.mem_cons_self, rfl, bufferSizeKb,
      List.mem_cons_self, rfl⟩
  exact absurd hrequested (by decide)

end Setting

end Nodes

end TraceNodes

end Hitrace
