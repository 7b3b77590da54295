import Hitrace.HitraceConverter.TextSegments
import Hitrace.Library.Decimal
import Mathlib.Data.List.Nodup

namespace Hitrace.HitraceConverter

open Library

/-! The tables of a file as texts, and what the parsers read back. -/

namespace TextTables

/-- A number whose text is not too long for `int`. -/
structure Readable where
  value : Nat
  short : (Decimal.text value).length ≤ maxStrDigits

def Readable.text (number : Readable) : List Char :=
  Decimal.text number.value

/-- `type name` of a field. -/
structure FieldDescription where
  type : List Char
  name : List Char
  offset : Readable
  size : Readable
  signed : Bool
  typePlain : ';' ∉ type ∧ '\n' ∉ type
  namePlain : ' ' ∉ name ∧ ';' ∉ name ∧ '\n' ∉ name

structure EventDescription where
  name : List Char
  id : Readable
  commonFields : List FieldDescription
  fields : List FieldDescription
  printFmt : List Char
  nameOneLine : '\n' ∉ name
  printFmtOneLine : '\n' ∉ printFmt

/-- A task with its name. -/
structure TaskName where
  tid : Readable
  name : List Char
  plain : '\t' ∉ name ∧ '\n' ∉ name

/-- A task with its group. -/
structure TaskGroup where
  tid : Readable
  tgid : Readable

/-! The texts. -/

def signedText (signed : Bool) : List Char :=
  if signed then ['1'] else ['0']

def FieldDescription.line (field : FieldDescription) : List Char :=
  '\t' :: fieldBody (field.type ++ ' ' :: field.name) field.offset.text field.size.text
    (signedText field.signed)

def EventDescription.lines (event : EventDescription) : List (List Char) :=
  formatLines event.name event.id.text (event.commonFields.map FieldDescription.line)
    (event.fields.map FieldDescription.line) event.printFmt

def TaskName.line (task : TaskName) : List Char :=
  task.tid.text ++ ' ' :: task.name

def TaskGroup.line (task : TaskGroup) : List Char :=
  task.tid.text ++ ' ' :: task.tgid.text

/-- The lines as a file, with or without a newline at its end. -/
def tableBytes (newline : Bool) (lines : List (List Char)) : SegmentData :=
  .bytes (encodeUtf8
    (if newline then lines.flatMap (· ++ ['\n']) else ['\n'].intercalate lines))

/-! What is read. -/

def FieldDescription.format (field : FieldDescription) : FormatField where
  type := field.type
  name := field.name
  offset := field.offset.value
  size := field.size.value
  signed := signedText field.signed

def EventDescription.format (event : EventDescription) : EventFormat where
  fields := (event.commonFields ++ event.fields).map FieldDescription.format
  name := some event.name
  id := some event.id.value
  printFmt := some event.printFmt

def EventDescription.entry (event : EventDescription) : Int × EventFormat :=
  (event.id.value, event.format)

def TaskName.entry (task : TaskName) : Int × List Char :=
  (task.tid.value, task.name)

def TaskGroup.entry (task : TaskGroup) : Int × Int :=
  (task.tid.value, task.tgid.value)

/-! Numbers. -/

namespace Readable

variable (number : Readable)

theorem isDigit_of_mem : ∀ digit ∈ number.text, digit.isDigit = true :=
  fun _ => Decimal.isDigit_of_mem_text

theorem pyInt_text : pyInt number.text = some (number.value : Int) := by
  rw [pyInt_digits number.isDigit_of_mem (Decimal.text_ne_nil _) number.short]
  congr 2
  exact Decimal.value_text number.value

end Readable

/-! The lines. -/

theorem splitLastBlank_append {type name : List Char} (hname : ' ' ∉ name) :
    splitLastBlank (type ++ ' ' :: name) = (type, name) := by
  have hunspaced : ∀ char ∈ name.reverse, (char != ' ') = true := by
    intro char hmem
    rw [bne_iff_ne]
    intro hblank
    exact hname (hblank ▸ List.mem_reverse.mp hmem)
  have hreverse : (type ++ ' ' :: name).reverse = name.reverse ++ ' ' :: type.reverse := by
    simp
  have hcontains : (type ++ ' ' :: name).contains ' ' = true := by simp
  have hfront : (type ++ ' ' :: name).rdropWhile (· != ' ') = type ++ [' '] := by
    rw [List.rdropWhile, hreverse, List.dropWhile_append_of_pos hunspaced]
    simp
  have hback : (type ++ ' ' :: name).rtakeWhile (· != ' ') = name := by
    rw [List.rtakeWhile, hreverse, List.takeWhile_append_of_pos hunspaced]
    simp
  rw [splitLastBlank, if_pos hcontains, hfront, hback, List.dropLast_concat]

theorem not_mem_signedText {char : Char} (hchar : char.isDigit = false) (signed : Bool) :
    char ∉ signedText signed := by
  apply not_mem_digits _ char hchar
  cases signed <;> exact List.all_eq_true.mp rfl

theorem Readable.not_mem (number : Readable) {char : Char} (hchar : char.isDigit = false) :
    char ∉ number.text :=
  not_mem_digits number.isDigit_of_mem char hchar

theorem addsField_line (field : FieldDescription) : AddsField field.line field.format := by
  intro eventsFormat eventFormat
  apply parseEventLine_field
  have hdeclaration : ';' ∉ field.type ++ ' ' :: field.name := by
    simp [field.typePlain.1, field.namePlain.2.1]
  rw [parseEventsFormatField_fieldBody hdeclaration (field.offset.not_mem rfl)
    (field.size.not_mem rfl) (not_mem_signedText rfl field.signed) field.offset.pyInt_text
    field.size.pyInt_text, ← List.append_assoc, splitLastBlank_append field.namePlain.1]
  rfl

theorem foldlM_lines (eventsFormat : Dict EventFormat) (event : EventDescription) :
    event.lines.foldlM parseEventLine (eventsFormat, {}) =
      some (event.entry :: eventsFormat, {}) :=
  foldlM_formatLines eventsFormat addsField_line event.id.pyInt_text event.commonFields
    event.fields

theorem parseCmdLine_task (cmdLines : Dict (List Char)) (task : TaskName) :
    parseCmdLine cmdLines task.line = some (task.entry :: cmdLines) := by
  have hname : task.name.filter (· != '\t') = task.name := by
    apply List.filter_eq_self.mpr
    intro char hmem
    rw [bne_iff_ne]
    intro htab
    exact task.plain.1 (htab ▸ hmem)
  rw [TaskName.line, parseCmdLine_digits cmdLines task.tid.isDigit_of_mem task.tid.pyInt_text,
    hname]
  rfl

theorem parseTgidsLine_task (tgids : Dict Int) (task : TaskGroup) :
    parseTgidsLine tgids task.line = some (task.entry :: tgids) :=
  parseTgidsLine_digits tgids task.tid.isDigit_of_mem task.tid.pyInt_text task.tgid.pyInt_text

theorem parseCmdLine_blank (cmdLines : Dict (List Char)) :
    parseCmdLine cmdLines [] = some cmdLines := rfl

theorem parseTgidsLine_blank (tgids : Dict Int) : parseTgidsLine tgids [] = some tgids := rfl

/-! No text has a newline. -/

theorem FieldDescription.oneLine (field : FieldDescription) : '\n' ∉ field.line := by
  have hlabel : '\n' ∉ fieldLinePrefix := by decide
  simp [FieldDescription.line, fieldBody, hlabel, field.typePlain.2, field.namePlain.2.2,
    field.offset.not_mem, field.size.not_mem, not_mem_signedText]

theorem EventDescription.oneLine (event : EventDescription) :
    ∀ line ∈ event.lines, '\n' ∉ line := by
  intro line hmem
  simp only [EventDescription.lines, formatLines, List.mem_cons, List.mem_append,
    List.mem_map, List.not_mem_nil, or_false] at hmem
  rcases hmem with rfl | rfl | rfl | ⟨field, _, rfl⟩ | rfl | ⟨field, _, rfl⟩ | rfl | rfl
  · exact not_mem_label nameLinePrefix '\n' (by decide) event.nameOneLine
  · exact not_mem_label idLinePrefix '\n' (by decide) (event.id.not_mem rfl)
  · decide
  · exact field.oneLine
  · simp
  · exact field.oneLine
  · simp
  · exact not_mem_label printFmtLinePrefix '\n' (by decide) event.printFmtOneLine

theorem TaskName.oneLine (task : TaskName) : '\n' ∉ task.line := by
  simp [TaskName.line, task.tid.not_mem, task.plain.2]

theorem TaskGroup.oneLine (task : TaskGroup) : '\n' ∉ task.line := by
  simp [TaskGroup.line, task.tid.not_mem, task.tgid.not_mem]

/-! The files. -/

/-- Lines that are read one by one, where a blank line is skipped, with or without the
newline at the end. -/
theorem foldlM_table {σ : Type} {parse : σ → List Char → Option σ}
    (hblank : ∀ state, parse state [] = some state) {lines : List (List Char)}
    (hlines : ∀ line ∈ lines, '\n' ∉ line) (newline : Bool) (state : σ) :
    ((if newline then lines.flatMap (· ++ ['\n'])
      else ['\n'].intercalate lines).splitOn '\n').foldlM parse state =
      lines.foldlM parse state := by
  cases newline with
  | true =>
      rw [if_pos rfl, splitOn_lines hlines, List.foldlM_append]
      simp [hblank]
  | false =>
      rw [if_neg Bool.false_ne_true]
      cases lines with
      | nil => simp [hblank]
      | cons line rest => rw [List.splitOn_intercalate '\n' hlines (List.cons_ne_nil _ _)]

theorem parseEventFormat_table (newline : Bool) (events : List EventDescription) :
    parseEventFormat (tableBytes newline (events.flatMap EventDescription.lines)) =
      some (events.map EventDescription.entry).reverse := by
  have hlines : ∀ line ∈ events.flatMap EventDescription.lines, '\n' ∉ line := by
    intro line hmem
    obtain ⟨event, _, hline⟩ := List.mem_flatMap.mp hmem
    exact event.oneLine line hline
  simp only [parseEventFormat, tableBytes, decodeUtf8_encodeUtf8, Option.bind_eq_bind,
    Option.bind_some, foldlM_table parseEventLine_blank hlines,
    foldlM_events _ foldlM_lines, List.append_nil]

theorem parseCmdLines_table (newline : Bool) (tasks : List TaskName) :
    parseCmdLines (tableBytes newline (tasks.map TaskName.line)) =
      some (tasks.map TaskName.entry).reverse := by
  have hlines : ∀ line ∈ tasks.map TaskName.line, '\n' ∉ line := by
    intro line hmem
    obtain ⟨task, _, rfl⟩ := List.mem_map.mp hmem
    exact task.oneLine
  simp only [parseCmdLines, tableBytes, decodeUtf8_encodeUtf8, Option.bind_eq_bind,
    Option.bind_some, foldlM_table parseCmdLine_blank hlines,
    foldlM_entries parseCmdLine_task, List.append_nil]

theorem parseTidGroups_table (newline : Bool) (tasks : List TaskGroup) :
    parseTidGroups (tableBytes newline (tasks.map TaskGroup.line)) =
      some (tasks.map TaskGroup.entry).reverse := by
  have hlines : ∀ line ∈ tasks.map TaskGroup.line, '\n' ∉ line := by
    intro line hmem
    obtain ⟨task, _, rfl⟩ := List.mem_map.mp hmem
    exact task.oneLine
  simp only [parseTidGroups, tableBytes, decodeUtf8_encodeUtf8, Option.bind_eq_bind,
    Option.bind_some, foldlM_table parseTgidsLine_blank hlines,
    foldlM_entries parseTgidsLine_task, List.append_nil]

/-! The dicts. -/

section Dicts

variable {ι α : Type}

/-- The last line of a key wins. -/
theorem lookup_reverse (key : ι → Int) (value : ι → α) (items : List ι) (place : Int) :
    ((items.map fun item => (key item, value item)).reverse : Dict α).lookup place =
      (items.filter fun item => decide (key item = place)).getLast?.map value := by
  induction items using List.reverseRecOn with
  | nil => rfl
  | append_singleton items last ih =>
      rw [List.map_append, List.reverse_append, List.filter_append, List.map_singleton,
        List.reverse_singleton, List.singleton_append, List.lookup_cons]
      by_cases hlast : key last = place
      · simp [hlast]
      · have hne : (place == key last) = false := by simp [Ne.symm hlast]
        simp [hne, hlast, ih]

/-- With one line for each key, every line is found. -/
theorem lookup_eq_some_iff {key : ι → Int} {value : ι → α} {items : List ι}
    (hdistinct : (items.map key).Nodup) (place : Int) (found : α) :
    ((items.map fun item => (key item, value item)).reverse : Dict α).lookup place =
        some found ↔
      ∃ item ∈ items, key item = place ∧ value item = found := by
  rw [lookup_reverse, Option.map_eq_some_iff]
  constructor
  · rintro ⟨last, hlast, hfound⟩
    obtain ⟨hmem, hkey⟩ := List.mem_filter.mp (List.mem_of_getLast? hlast)
    exact ⟨last, hmem, of_decide_eq_true hkey, hfound⟩
  · rintro ⟨item, hitem, hkey, hfound⟩
    have htied : item ∈ items.filter fun item => decide (key item = place) :=
      List.mem_filter.mpr ⟨hitem, decide_eq_true hkey⟩
    have hsome := List.getLast?_isSome.mpr (List.ne_nil_of_mem htied)
    obtain ⟨last, hlast⟩ := Option.isSome_iff_exists.mp hsome
    obtain ⟨hmem, hlastKey⟩ := List.mem_filter.mp (List.mem_of_getLast? hlast)
    have hsame : last = item := List.inj_on_of_nodup_map hdistinct hmem hitem
      ((of_decide_eq_true hlastKey).trans hkey.symm)
    exact ⟨last, hlast, hsame ▸ hfound⟩

end Dicts

/-- The three tables come back from their files: every format under its id, and the last
name and the last group of every task. -/
theorem text_tables_round_trip (newline : Bool) :
    (∀ events : List EventDescription, (events.map fun event => event.id.value).Nodup →
      ∃ eventsFormat,
        parseEventFormat (tableBytes newline (events.flatMap EventDescription.lines)) =
            some eventsFormat ∧
          ∀ (id : Int) (format : EventFormat), eventsFormat.lookup id = some format ↔
            ∃ event ∈ events, (event.id.value : Int) = id ∧ event.format = format) ∧
      (∀ tasks : List TaskName, ∃ cmdLines,
        parseCmdLines (tableBytes newline (tasks.map TaskName.line)) = some cmdLines ∧
          ∀ tid : Int, cmdLines.lookup tid =
            (tasks.filter fun task => decide ((task.tid.value : Int) = tid)).getLast?.map
              TaskName.name) ∧
      ∀ tasks : List TaskGroup, ∃ tgids,
        parseTidGroups (tableBytes newline (tasks.map TaskGroup.line)) = some tgids ∧
          ∀ tid : Int, tgids.lookup tid =
            (tasks.filter fun task => decide ((task.tid.value : Int) = tid)).getLast?.map
              fun task => (task.tgid.value : Int) := by
  refine ⟨?_, ?_, ?_⟩
  · intro events hdistinct
    refine ⟨_, parseEventFormat_table newline events, ?_⟩
    have hkeys : (events.map fun event => (event.id.value : Int)).Nodup := by
      have hcast := hdistinct.map fun _ _ heq => Int.ofNat.inj heq
      rwa [List.map_map] at hcast
    exact lookup_eq_some_iff hkeys
  · intro tasks
    exact ⟨_, parseCmdLines_table newline tasks, lookup_reverse _ _ tasks⟩
  · intro tasks
    exact ⟨_, parseTidGroups_table newline tasks, lookup_reverse _ _ tasks⟩

def commonTypeField : FieldDescription where
  type := "unsigned short".toList
  name := "common_type".toList
  offset := ⟨0, by decide⟩
  size := ⟨2, by decide⟩
  signed := false
  typePlain := by decide
  namePlain := by decide

def irqField : FieldDescription where
  type := "int".toList
  name := "irq".toList
  offset := ⟨8, by decide⟩
  size := ⟨4, by decide⟩
  signed := true
  typePlain := by decide
  namePlain := by decide

def commField : FieldDescription where
  type := "char".toList
  name := "comm[16]".toList
  offset := ⟨8, by decide⟩
  size := ⟨16, by decide⟩
  signed := false
  typePlain := by decide
  namePlain := by decide

def irqEvent : EventDescription where
  name := "irq_handler_exit".toList
  id := ⟨7, by decide⟩
  commonFields := [commonTypeField]
  fields := [irqField]
  printFmt := "\"irq=%d\", REC->irq".toList
  nameOneLine := by decide
  printFmtOneLine := by decide

def wakingEvent : EventDescription where
  name := "sched_waking".toList
  id := ⟨3, by decide⟩
  commonFields := [commonTypeField]
  fields := [commField]
  printFmt := "\"comm=%s\", REC->comm".toList
  nameOneLine := by decide
  printFmtOneLine := by decide

def sampleNames : List TaskName :=
  [⟨⟨5, by decide⟩, "render thread".toList, by decide⟩, ⟨⟨9, by decide⟩, "init".toList, by decide⟩,
    ⟨⟨5, by decide⟩, "Binder 5".toList, by decide⟩]

def sampleGroups : List TaskGroup :=
  [⟨⟨5, by decide⟩, ⟨1, by decide⟩⟩, ⟨⟨9, by decide⟩, ⟨9, by decide⟩⟩,
    ⟨⟨5, by decide⟩, ⟨4, by decide⟩⟩]

/-- Both events come back with their own fields, and the last line of task 5 wins. -/
theorem text_tables_round_trip_two_events :
    (∃ eventsFormat,
      parseEventFormat
          (tableBytes true ([irqEvent, wakingEvent].flatMap EventDescription.lines)) =
            some eventsFormat ∧
        eventsFormat.lookup 7 = some irqEvent.format ∧
        eventsFormat.lookup 3 = some wakingEvent.format) ∧
      (∃ cmdLines,
        parseCmdLines (tableBytes true (sampleNames.map TaskName.line)) = some cmdLines ∧
          cmdLines.lookup 5 = some "Binder 5".toList) ∧
      ∃ tgids,
        parseTidGroups (tableBytes true (sampleGroups.map TaskGroup.line)) = some tgids ∧
          tgids.lookup 5 = some 4 := by
  obtain ⟨hevents, hnames, hgroups⟩ := text_tables_round_trip true
  obtain ⟨eventsFormat, hformat, hfound⟩ := hevents [irqEvent, wakingEvent] (by decide)
  obtain ⟨cmdLines, hlines, hname⟩ := hnames sampleNames
  obtain ⟨tgids, htids, hgroup⟩ := hgroups sampleGroups
  refine ⟨⟨eventsFormat, hformat, ?_, ?_⟩, ⟨cmdLines, hlines, ?_⟩, tgids, htids, ?_⟩
  · exact (hfound 7 irqEvent.format).mpr ⟨irqEvent, List.mem_cons_self, rfl, rfl⟩
  · exact (hfound 3 wakingEvent.format).mpr ⟨wakingEvent, by simp, rfl, rfl⟩
  · rw [hname]
    rfl
  · rw [hgroup]
    rfl

end TextTables

end Hitrace.HitraceConverter
