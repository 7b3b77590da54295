import Hitrace.HitraceDump.OpenTrace
import Hitrace.Library.Overwrite
import Hitrace.Library.SortedSet
import Hitrace.Utils.ScanNumber
import Mathlib.Data.Char
import Mathlib.Data.List.Lex
import Mathlib.Data.List.TakeWhile

namespace Hitrace

open Library

/-! `TraceFilterContext::FilterTraceContent` of `trace_context.cpp`. -/

namespace TraceContext

/-- The lines of `getline`, each with its line feed. -/
def getLinesFrom : List Char → List Char → List (List Char)
  | current, [] => if current.isEmpty then [] else [current]
  | current, char :: rest =>
      if char = '\n' then (current ++ [char]) :: getLinesFrom [] rest
      else getLinesFrom (current ++ [char]) rest

def getLines (text : List Char) : List (List Char) :=
  getLinesFrom [] text

/-- `content` is that of the opened file.  No handler here stops the loop. -/
def traverseFileLineByLine {σ : Type} (content : Option (List Char))
    (lineHandler : σ → List Char → σ) (state : σ) : Bool × σ :=
  match content with
  | none => (false, state)
  | some text => (true, ((getLines text).map cString).foldl lineHandler state)

def parseNumberStr (lineContent : List Char) : Option (List Char) :=
  let digits := lineContent.takeWhile Char.isDigit
  if digits.isEmpty then none else some digits

def parseTGid (lineContent : List Char) : Option (List Char × List Char) :=
  match parseNumberStr lineContent with
  | none => none
  | some tid =>
      match lineContent.drop tid.length with
      | [] => none
      | blank :: rest =>
          if isSpace blank then (parseNumberStr rest).map fun tgid => (tid, tgid) else none

/-- What the nodes below the trace root hold. -/
structure FilterNodes where
  traceRootPathEmpty : Bool := false
  setEventPid : Option (List Char)
  savedTgids : Option (List Char)
  savedCmdlines : Option (List Char)
deriving Repr, DecidableEq

structure FilterContent where
  filterPids : List (List Char) := []
  filterTGidsContent : List (List Char × List Char) := []
  filterCmdLines : List (List Char) := []
deriving Repr, DecidableEq

def insertTid (set : List (List Char)) (lineContent : List Char) : List (List Char) :=
  match parseNumberStr lineContent with
  | none => set
  | some tid => SortedSet.insert tid set

def getSetEventPid (nodes : FilterNodes) : Bool × List (List Char) :=
  if nodes.traceRootPathEmpty then (false, [])
  else traverseFileLineByLine nodes.setEventPid insertTid []

section Filter

variable (context : FilterContext) (nodes : FilterNodes)

def addFilterPid (set : List (List Char)) (filterPids : List (List Char))
    (lineContent : List Char) : List (List Char) :=
  match parseTGid lineContent with
  | none => filterPids
  | some (tid, tgid) =>
      if set.contains tid then
        if tid = intToString context.standInTid then filterPids
        else
          match context.originTGids.lookup tid with
          | none => SortedSet.insert tgid filterPids
          | some origin =>
              if origin ≠ tgid then filterPids else SortedSet.insert tgid filterPids
      else filterPids

def addTGid (filterPids : List (List Char)) (filterTGids : List (List Char × List Char))
    (lineContent : List Char) : List (List Char × List Char) :=
  match parseTGid lineContent with
  | none => filterTGids
  | some (tid, tgid) =>
      if filterPids.contains tgid then
        if tid ≠ intToString context.standInTid then filterTGids ++ [(tid, tgid)]
        else filterTGids
      else filterTGids

def addCmdLine (filterTGids : List (List Char × List Char))
    (filterCmdLines : List (List Char)) (lineContent : List Char) : List (List Char) :=
  match parseNumberStr lineContent with
  | none => filterCmdLines
  | some tid =>
      if filterTGids.any fun tgids => tid == tgids.1 then filterCmdLines ++ [lineContent]
      else filterCmdLines

def filterTGidsContent (content : FilterContent) : FilterContent :=
  let content := { content with filterTGidsContent := [], filterPids := [] }
  if nodes.traceRootPathEmpty then content
  else
    match getSetEventPid nodes with
    | (false, _) => content
    | (true, set) =>
        let filterPids :=
          (traverseFileLineByLine nodes.savedTgids (addFilterPid context set) []).2
        { content with
          filterPids
          filterTGidsContent :=
            (traverseFileLineByLine nodes.savedTgids (addTGid context filterPids) []).2 }

def filterSavedCmdLine (content : FilterContent) : FilterContent :=
  let content := { content with filterCmdLines := [] }
  if nodes.traceRootPathEmpty then content
  else
    { content with
      filterCmdLines := (traverseFileLineByLine nodes.savedCmdlines
        (addCmdLine content.filterTGidsContent) []).2 }

def filterTraceContent (content : FilterContent) : FilterContent :=
  filterSavedCmdLine nodes (filterTGidsContent context nodes content)

end Filter

/-! Lines. -/

/-- The line starts with the number. -/
def LeadingNumber (number line : List Char) : Prop :=
  number ≠ [] ∧ (∀ char ∈ number, char.isDigit = true) ∧
    ∃ rest, line = number ++ rest ∧ ∀ char ∈ rest.head?, char.isDigit = false

/-- Two numbers with one blank between them. -/
def TGidLine (tid tgid line : List Char) : Prop :=
  (tid ≠ [] ∧ ∀ char ∈ tid, char.isDigit = true) ∧
    ∃ blank rest, isSpace blank = true ∧ line = tid ++ blank :: rest ∧
      LeadingNumber tgid rest

section Lines

variable {line number tid tgid : List Char}

theorem flatten_getLinesFrom (current text : List Char) :
    (getLinesFrom current text).flatten = current ++ text := by
  induction text generalizing current with
  | nil =>
      rw [getLinesFrom, List.append_nil]
      split
      · next hempty => rw [List.isEmpty_iff.mp hempty, List.flatten_nil]
      · exact List.flatten_singleton
  | cons char rest ih =>
      rw [getLinesFrom]
      split
      · rw [List.flatten_cons, ih, List.nil_append, List.append_assoc]
        rfl
      · rw [ih, List.append_assoc]
        rfl

/-- The lines are all of the text. -/
theorem flatten_getLines (text : List Char) : (getLines text).flatten = text :=
  flatten_getLinesFrom [] text

theorem isDigit_head_dropWhile (line : List Char) :
    ∀ char ∈ (line.dropWhile Char.isDigit).head?, char.isDigit = false := by
  intro char hchar
  have hhead := List.head?_dropWhile_not Char.isDigit line
  rw [hchar] at hhead
  exact hhead

theorem takeWhile_digits {rest : List Char} (hdigits : ∀ char ∈ number, char.isDigit = true)
    (hrest : ∀ char ∈ rest.head?, char.isDigit = false) :
    (number ++ rest).takeWhile Char.isDigit = number := by
  rw [List.takeWhile_append_of_pos hdigits]
  cases rest with
  | nil => exact List.append_nil number
  | cons head tail =>
      have hhead : ¬ head.isDigit = true := Bool.eq_false_iff.mp (hrest head rfl)
      rw [List.takeWhile_cons_of_neg hhead, List.append_nil]

theorem parseNumberStr_eq_some :
    parseNumberStr line = some number ↔ LeadingNumber number line := by
  rw [parseNumberStr]
  constructor
  · intro hparse
    split at hparse
    · cases hparse
    · next hnonempty =>
        cases hparse
        refine ⟨fun hnil => hnonempty (List.isEmpty_iff.mpr hnil), ?_, _,
          List.takeWhile_append_dropWhile.symm, isDigit_head_dropWhile line⟩
        exact fun char hchar => List.mem_takeWhile_imp hchar
  · rintro ⟨hnonempty, hdigits, rest, rfl, hrest⟩
    rw [takeWhile_digits hdigits hrest, if_neg (by simpa using hnonempty)]

theorem parseTGid_eq_some :
    parseTGid line = some (tid, tgid) ↔ TGidLine tid tgid line := by
  rw [parseTGid]
  constructor
  · intro hparse
    split at hparse
    · cases hparse
    · next first hfirst =>
        obtain ⟨hnonempty, hdigits, rest, rfl, _⟩ := parseNumberStr_eq_some.mp hfirst
        rw [List.drop_left] at hparse
        cases rest with
        | nil => cases hparse
        | cons blank others =>
            dsimp only at hparse
            split at hparse
            · next hblank =>
                obtain ⟨second, hsecond, hpair⟩ := Option.map_eq_some_iff.mp hparse
                cases hpair
                exact ⟨⟨hnonempty, hdigits⟩, blank, others, hblank, rfl,
                  parseNumberStr_eq_some.mp hsecond⟩
            · cases hparse
  · rintro ⟨⟨hnonempty, hdigits⟩, blank, rest, hblank, rfl, hrest⟩
    have hhead : ∀ char ∈ (blank :: rest).head?, char.isDigit = false := by
      intro char hchar
      cases hchar
      by_contra hdigit
      have hspace := isSpace_of_isDigit (Bool.eq_true_of_not_eq_false hdigit)
      rw [hblank] at hspace
      cases hspace
    have hfirst : parseNumberStr (tid ++ blank :: rest) = some tid :=
      parseNumberStr_eq_some.mpr ⟨hnonempty, hdigits, _, rfl, hhead⟩
    rw [hfirst]
    dsimp only
    rw [List.drop_left]
    dsimp only
    rw [if_pos hblank, parseNumberStr_eq_some.mpr hrest]
    rfl

/-- A NUL ends no number in another place than a line does. -/
theorem parseNumberStr_cString (line : List Char) :
    parseNumberStr (cString line) = parseNumberStr line := by
  have hdigit (char : Char) :
      decide (char.isDigit = true ∧ (char != '\x00') = true) = char.isDigit := by
    by_cases hnul : char = '\x00'
    · subst hnul
      rfl
    · simp [hnul]
  rw [parseNumberStr, parseNumberStr, cString, List.takeWhile_takeWhile]
  simp only [hdigit]

theorem cString_append (hdigits : ∀ char ∈ number, char.isDigit = true) (rest : List Char) :
    cString (number ++ rest) = number ++ cString rest := by
  apply List.takeWhile_append_of_pos
  intro char hchar
  rw [bne_iff_ne]
  rintro rfl
  exact absurd (hdigits _ hchar) (by decide)

theorem parseTGid_cString (line : List Char) : parseTGid (cString line) = parseTGid line := by
  rw [parseTGid, parseTGid, parseNumberStr_cString]
  cases hfirst : parseNumberStr line with
  | none => rfl
  | some first =>
      obtain ⟨_, hdigits, rest, rfl, _⟩ := parseNumberStr_eq_some.mp hfirst
      dsimp only
      rw [cString_append hdigits, List.drop_left, List.drop_left]
      cases rest with
      | nil => rfl
      | cons blank rest =>
          by_cases hnul : blank = '\x00'
          · subst hnul
            rfl
          · have hcut : cString (blank :: rest) = blank :: cString rest :=
              List.takeWhile_cons_of_pos (bne_iff_ne.mpr hnul)
            rw [hcut]
            dsimp only
            rw [parseNumberStr_cString]

end Lines

/-! The three passes. -/

/-- The thread stands at the start of a line of `set_event_pid`. -/
def Listed (setEventPid tid : List Char) : Prop :=
  ∃ line ∈ getLines setEventPid, LeadingNumber tid line

/-- The line of `saved_tgids` brings its process into the filter. -/
def Selects (context : FilterContext) (setEventPid line tgid : List Char) : Prop :=
  ∃ tid, TGidLine tid tgid line ∧ Listed setEventPid tid ∧
    tid ≠ intToString context.standInTid ∧
    ∀ origin, context.originTGids.lookup tid = some origin → origin = tgid

/-- What the passes are to leave; `shown` is the text that is kept of a line of
`saved_cmdlines`. -/
structure Filtered (shown : List Char → List Char) (context : FilterContext)
    (setEventPid savedTgids savedCmdlines : List Char) (content : FilterContent) : Prop where
  pids : ∀ tgid, tgid ∈ content.filterPids ↔
    ∃ line ∈ getLines savedTgids, Selects context setEventPid line tgid
  ascending : content.filterPids.Pairwise (· < ·)
  tgids : content.filterTGidsContent = (getLines savedTgids).filterMap fun line =>
    (parseTGid line).filter fun tgid =>
      decide (tgid.2 ∈ content.filterPids ∧ tgid.1 ≠ intToString context.standInTid)
  cmdLines : content.filterCmdLines = ((getLines savedCmdlines).filter fun line =>
    (parseNumberStr line).any fun tid =>
      decide (tid ∈ content.filterTGidsContent.map Prod.fst)).map shown

section Passes

variable {context : FilterContext} {set filterPids : List (List Char)}

theorem mem_insertTid {line tid : List Char} :
    tid ∈ insertTid set line ↔ tid ∈ set ∨ LeadingNumber tid line := by
  rw [insertTid, ← parseNumberStr_eq_some]
  cases parseNumberStr line with
  | none => simp
  | some number =>
      simp only [SortedSet.mem_insert, Option.some.injEq, @eq_comm _ tid]
      exact or_comm

theorem leadingNumber_cString {number line : List Char} :
    LeadingNumber number (cString line) ↔ LeadingNumber number line := by
  rw [← parseNumberStr_eq_some, parseNumberStr_cString, parseNumberStr_eq_some]

/-- The first pass: the threads of `set_event_pid`. -/
theorem mem_insertTids {setEventPid tid : List Char} :
    tid ∈ ((getLines setEventPid).map cString).foldl insertTid [] ↔ Listed setEventPid tid := by
  have hstep (set : List (List Char)) (line : List Char) :
      tid ∈ insertTid set (cString line) ↔ tid ∈ set ∨ LeadingNumber tid line := by
    rw [mem_insertTid, leadingNumber_cString]
  rw [List.foldl_map, raised_foldl (fun set => tid ∈ set) hstep]
  simp only [List.not_mem_nil, false_or]
  rfl

theorem parseTGid_cases {line : List Char} :
    parseTGid line = none ∨ ∃ tid tgid, parseTGid line = some (tid, tgid) := by
  cases parseTGid line with
  | none => exact .inl rfl
  | some pair => exact .inr ⟨pair.1, pair.2, rfl⟩

/-- The thread with the process of its line is one of those that were asked for. -/
def Admits (context : FilterContext) (set : List (List Char)) (tid tgid : List Char) : Prop :=
  tid ∈ set ∧ tid ≠ intToString context.standInTid ∧
    ∀ origin, context.originTGids.lookup tid = some origin → origin = tgid

theorem addFilterPid_of_admits {line tid tgid : List Char}
    (hline : parseTGid line = some (tid, tgid)) (hadmits : Admits context set tid tgid) :
    addFilterPid context set filterPids line = SortedSet.insert tgid filterPids := by
  obtain ⟨hset, hstandIn, horigin⟩ := hadmits
  rw [addFilterPid, hline]
  dsimp only
  rw [if_pos (List.contains_iff_mem.mpr hset), if_neg hstandIn]
  cases hlookup : context.originTGids.lookup tid with
  | none => rfl
  | some origin => exact if_neg (not_not.mpr (horigin origin hlookup))

theorem addFilterPid_of_not_admits {line tid tgid : List Char}
    (hline : parseTGid line = some (tid, tgid)) (hadmits : ¬ Admits context set tid tgid) :
    addFilterPid context set filterPids line = filterPids := by
  rw [addFilterPid, hline]
  dsimp only
  split
  · next hset =>
      split
      · rfl
      · next hstandIn =>
          cases hlookup : context.originTGids.lookup tid with
          | none =>
              refine absurd ⟨List.contains_iff_mem.mp hset, hstandIn, ?_⟩ hadmits
              intro origin horigin
              rw [hlookup] at horigin
              cases horigin
          | some other =>
              refine if_pos fun heq => hadmits ⟨List.contains_iff_mem.mp hset, hstandIn, ?_⟩
              intro origin horigin
              rw [hlookup] at horigin
              cases horigin
              exact heq
  · rfl

theorem addFilterPid_of_none {line : List Char} (hline : parseTGid line = none) :
    addFilterPid context set filterPids line = filterPids := by
  rw [addFilterPid, hline]

theorem mem_addFilterPid {line tgid : List Char} :
    tgid ∈ addFilterPid context set filterPids line ↔
      tgid ∈ filterPids ∨ ∃ tid, parseTGid line = some (tid, tgid) ∧
        Admits context set tid tgid := by
  rcases @parseTGid_cases line with hline | ⟨tid, process, hline⟩
  · rw [addFilterPid_of_none hline]
    simp [hline]
  · by_cases hadmits : Admits context set tid process
    · rw [addFilterPid_of_admits hline hadmits, SortedSet.mem_insert, or_comm]
      refine or_congr_right ⟨?_, ?_⟩
      · rintro rfl
        exact ⟨tid, hline, hadmits⟩
      · rintro ⟨other, hother, _⟩
        rw [hline] at hother
        cases hother
        rfl
    · rw [addFilterPid_of_not_admits hline hadmits]
      refine (or_iff_left ?_).symm
      rintro ⟨other, hother, hadmitted⟩
      rw [hline] at hother
      cases hother
      exact hadmits hadmitted

theorem pairwise_addFilterPid {line : List Char} (hpids : filterPids.Pairwise (· < ·)) :
    (addFilterPid context set filterPids line).Pairwise (· < ·) := by
  rcases @parseTGid_cases line with hline | ⟨tid, tgid, hline⟩
  · rw [addFilterPid_of_none hline]
    exact hpids
  · by_cases hadmits : Admits context set tid tgid
    · rw [addFilterPid_of_admits hline hadmits]
      exact SortedSet.pairwise_insert hpids
    · rw [addFilterPid_of_not_admits hline hadmits]
      exact hpids

theorem pairwise_addFilterPids {lines : List (List Char)}
    (hpids : filterPids.Pairwise (· < ·)) :
    (lines.foldl (addFilterPid context set) filterPids).Pairwise (· < ·) := by
  induction lines generalizing filterPids with
  | nil => exact hpids
  | cons line rest ih => exact ih (pairwise_addFilterPid hpids)

/-- The second pass: the processes of those threads. -/
theorem mem_addFilterPids {savedTgids tgid : List Char} :
    tgid ∈ ((getLines savedTgids).map cString).foldl (addFilterPid context set) [] ↔
      ∃ line ∈ getLines savedTgids, ∃ tid, TGidLine tid tgid line ∧
        Admits context set tid tgid := by
  have hstep (filterPids : List (List Char)) (line : List Char) :
      tgid ∈ addFilterPid context set filterPids (cString line) ↔
        tgid ∈ filterPids ∨ ∃ tid, TGidLine tid tgid line ∧ Admits context set tid tgid := by
    simp only [mem_addFilterPid, parseTGid_cString, parseTGid_eq_some]
  rw [List.foldl_map, raised_foldl (fun filterPids => tgid ∈ filterPids) hstep]
  simp only [List.not_mem_nil, false_or]

/-- The third pass: every thread of those processes. -/
theorem addTGids_eq {savedTgids : List Char} :
    ((getLines savedTgids).map cString).foldl (addTGid context filterPids) [] =
      (getLines savedTgids).filterMap fun line =>
        (parseTGid line).filter fun tgid =>
          decide (tgid.2 ∈ filterPids ∧ tgid.1 ≠ intToString context.standInTid) := by
  have hstep (filterTGids : List (List Char × List Char)) (line : List Char) :
      addTGid context filterPids filterTGids (cString line) =
        filterTGids ++ ((parseTGid line).filter fun tgid =>
          decide (tgid.2 ∈ filterPids ∧ tgid.1 ≠ intToString context.standInTid)).toList := by
    rw [addTGid, parseTGid_cString]
    cases parseTGid line with
    | none => simp
    | some pair =>
        obtain ⟨tid, tgid⟩ := pair
        by_cases hpid : tgid ∈ filterPids
        · by_cases hstandIn : tid = intToString context.standInTid
          · simp [hpid, hstandIn]
          · simp [Option.filter, hpid, hstandIn]
        · simp [hpid]
  rw [List.foldl_map, appended_foldl hstep, List.nil_append]

/-- The last pass: the lines of those threads, each as far as its handler sees it. -/
theorem addCmdLines_eq {filterTGids : List (List Char × List Char)} {savedCmdlines : List Char} :
    ((getLines savedCmdlines).map cString).foldl (addCmdLine filterTGids) [] =
      ((getLines savedCmdlines).filter fun line =>
        (parseNumberStr line).any fun tid =>
          decide (tid ∈ filterTGids.map Prod.fst)).map cString := by
  have hany (tid : List Char) :
      (filterTGids.any fun tgids => tid == tgids.1) =
        decide (tid ∈ filterTGids.map Prod.fst) := by
    rw [Bool.eq_iff_iff, List.any_eq_true, decide_eq_true_iff, List.mem_map]
    refine exists_congr fun tgids => and_congr_right fun _ => ?_
    rw [beq_iff_eq, eq_comm]
  have hstep (cmdLines : List (List Char)) (line : List Char) :
      addCmdLine filterTGids cmdLines (cString line) =
        cmdLines ++ (((Option.guard (fun line => (parseNumberStr line).any fun tid =>
          decide (tid ∈ filterTGids.map Prod.fst)) line).map cString).toList) := by
    rw [addCmdLine, parseNumberStr_cString]
    cases hnumber : parseNumberStr line with
    | none => simp [Option.guard, hnumber]
    | some tid =>
        dsimp only
        rw [hany]
        by_cases hmem : tid ∈ filterTGids.map Prod.fst
        · simp only [Option.guard, hnumber, hmem, Option.any_some, decide_true, if_true,
            Option.map_some, Option.toList_some]
        · simp [Option.guard, hnumber, hmem]
  rw [List.foldl_map, appended_foldl hstep, List.nil_append, ← List.map_filterMap,
    List.filterMap_eq_filter]

end Passes

/-- The three files are read in full. -/
def readable (setEventPid savedTgids savedCmdlines : List Char) : FilterNodes where
  setEventPid := some setEventPid
  savedTgids := some savedTgids
  savedCmdlines := some savedCmdlines

theorem filter_trace_content_as_seen (context : FilterContext)
    (setEventPid savedTgids savedCmdlines : List Char) (content : FilterContent) :
    Filtered cString context setEventPid savedTgids savedCmdlines
      (filterTraceContent context (readable setEventPid savedTgids savedCmdlines) content) where
  pids tgid := by
    refine mem_addFilterPids.trans ?_
    simp only [Admits, mem_insertTids, Selects]
  ascending := pairwise_addFilterPids List.Pairwise.nil
  tgids := addTGids_eq
  cmdLines := addCmdLines_eq

/-- A command name after a NUL is not kept. -/
theorem filter_cmd_line_is_cut_at_nul :
    ¬ ∀ (context : FilterContext) (setEventPid savedTgids savedCmdlines : List Char)
      (content : FilterContent),
      Filtered id context setEventPid savedTgids savedCmdlines
        (filterTraceContent context (readable setEventPid savedTgids savedCmdlines) content) := by
  intro hall
  have hcmdLines := (hall ⟨7, []⟩ "12\n".toList "12 12\n".toList
    ['1', '2', ' ', 'a', '\x00', 'b', '\n'] {}).cmdLines
  revert hcmdLines
  decide

end TraceContext

end Hitrace
