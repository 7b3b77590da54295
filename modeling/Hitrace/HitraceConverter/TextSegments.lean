import Mathlib.Data.List.DropRight
import Mathlib.Tactic.Common

namespace Hitrace.HitraceConverter

/-! The parsers of the three text segments.  A function without a result raises. -/

/-! Python's strings. -/

def isPySpace (char : Char) : Bool :=
  let code := char.toNat
  (9 ≤ code && code ≤ 13) || (28 ≤ code && code ≤ 32) || code == 0x85 || code == 0xa0 ||
    code == 0x1680 || (0x2000 ≤ code && code ≤ 0x200a) || code == 0x2028 ||
    code == 0x2029 || code == 0x202f || code == 0x205f || code == 0x3000

def lstrip (text : List Char) : List Char :=
  text.dropWhile isPySpace

def rstrip (text : List Char) : List Char :=
  text.rdropWhile isPySpace

/-- The number of digits from which on `int` refuses a text. -/
def maxStrDigits : Nat := 4300

def splitSign : List Char → Bool × List Char
  | '-' :: rest => (true, rest)
  | '+' :: rest => (false, rest)
  | text => (false, text)

/-- `int` of a text.  Single underscores may stand between digits; the digits of
other scripts, which no kernel writes, are refused here. -/
def pyInt (text : List Char) : Option Int :=
  let (negative, digits) := splitSign (rstrip (lstrip text))
  let groups := digits.splitOn '_'
  if (groups.all fun group => !group.isEmpty && group.all Char.isDigit) &&
      decide (groups.flatten.length ≤ maxStrDigits) then
    let value : Int := Nat.ofDigitChars 10 groups.flatten 0
    some (if negative then -value else value)
  else none

/-- `data.decode('utf-8')`. -/
def decodeUtf8 (data : List UInt8) : Option (List Char) :=
  data.toByteArray.utf8Decode?.map Array.toList

def encodeUtf8 (text : List Char) : List UInt8 :=
  text.flatMap String.utf8EncodeChar

/-- The parts before and behind the first blank, if `find(" ")` has one. -/
def splitBlank (text : List Char) : Option (List Char × List Char) :=
  match text.dropWhile (· != ' ') with
  | [] => none
  | _ :: rest => some (text.takeWhile (· != ' '), rest)

/-- A dict; the latest entry of a key stands first. -/
abbrev Dict (α : Type) := List (Int × α)

/-- What `segment or []` makes of the data of a segment. -/
inductive SegmentData
  | emptyList
  | bytes (data : List UInt8)
deriving Repr, DecidableEq

def orEmptyList : Option (List UInt8) → SegmentData
  | none => .emptyList
  | some [] => .emptyList
  | some data => .bytes data

/-! `parse_cmd_lines` and `parse_tid_groups`. -/

def parseCmdLine (cmdLines : Dict (List Char)) (cmdLine : List Char) :
    Option (Dict (List Char)) :=
  match splitBlank (cmdLine.filter (· != '\t')) with
  | none => some cmdLines
  | some (front, back) => do
      let pid ← pyInt front
      some ((pid, back) :: cmdLines)

/-- The one parser that takes a list as well. -/
def parseCmdLines : SegmentData → Option (Dict (List Char))
  | .emptyList => some []
  | .bytes data => do
      let text ← decodeUtf8 data
      (text.splitOn '\n').foldlM parseCmdLine []

def parseTgidsLine (tgids : Dict Int) (tgidsLine : List Char) : Option (Dict Int) :=
  match splitBlank tgidsLine with
  | none => some tgids
  | some (front, back) => do
      let tid ← pyInt front
      let tgid ← pyInt back
      some ((tid, tgid) :: tgids)

/-- A list has no `decode`. -/
def parseTidGroups : SegmentData → Option (Dict Int)
  | .emptyList => none
  | .bytes data => do
      let text ← decodeUtf8 data
      (text.splitOn '\n').foldlM parseTgidsLine []

/-! `parse_event_format`. -/

structure FormatField where
  type : List Char
  name : List Char
  offset : Int
  size : Int
  signed : List Char
deriving Repr, DecidableEq

structure EventFormat where
  fields : List FormatField := []
  name : Option (List Char) := none
  id : Option Int := none
  printFmt : Option (List Char) := none
deriving Repr, DecidableEq

/-- The texts before and behind the last blank; without one, `rfind` gives -1. -/
def splitLastBlank (text : List Char) : List Char × List Char :=
  if text.contains ' ' then
    ((text.rdropWhile (· != ' ')).dropLast, text.rtakeWhile (· != ' '))
  else (text.dropLast, text)

def parseEventsFormatField (fieldLine : List Char) : Option FormatField :=
  match fieldLine.splitOn ';' with
  | declaration :: offset :: size :: signed :: _ => do
      let (type, name) := splitLastBlank (lstrip declaration)
      let offset ← pyInt ((lstrip offset).drop "offset:".length)
      let size ← pyInt ((lstrip size).drop "size:".length)
      some
        { type := type.drop "field:".length
          name
          offset
          size
          signed := (lstrip signed).drop "signed:".length }
  | _ => none

def nameLinePrefix : List Char := "name: ".toList
def idLinePrefix : List Char := "ID: ".toList
def fieldLinePrefix : List Char := "field:".toList
def printFmtLinePrefix : List Char := "print fmt: ".toList

def parseEventLine (state : Dict EventFormat × EventFormat) (line : List Char) :
    Option (Dict EventFormat × EventFormat) :=
  let (eventsFormat, eventFormat) := state
  let line := lstrip line
  if nameLinePrefix.isPrefixOf line then
    some (eventsFormat, { eventFormat with name := some (line.drop nameLinePrefix.length) })
  else if idLinePrefix.isPrefixOf line then do
    let id ← pyInt (line.drop idLinePrefix.length)
    some (eventsFormat, { eventFormat with id := some id })
  else if fieldLinePrefix.isPrefixOf line then do
    let field ← parseEventsFormatField line
    some (eventsFormat, { eventFormat with fields := eventFormat.fields ++ [field] })
  else if printFmtLinePrefix.isPrefixOf line then do
    let id ← eventFormat.id
    let printFmt := line.drop printFmtLinePrefix.length
    some ((id, { eventFormat with printFmt := some printFmt }) :: eventsFormat, {})
  else some (eventsFormat, eventFormat)

def parseEventFormat : SegmentData → Option (Dict EventFormat)
  | .emptyList => none
  | .bytes data => do
      let text ← decodeUtf8 data
      let (eventsFormat, _) ← (text.splitOn '\n').foldlM parseEventLine ([], {})
      some eventsFormat

/-! What the kernel writes to `saved_cmdlines`, `saved_tgids` and the `format` files
of its events. -/

/-- A number as `%d` and `%u` print it. -/
structure Number where
  digits : List Char
  nonempty : digits ≠ []
  isDigit : ∀ digit ∈ digits, digit.isDigit = true
  short : digits.length ≤ 10

/-- A text on one line. -/
structure LineText where
  text : List Char
  oneLine : '\n' ∉ text

structure CmdLine where
  tid : Number
  comm : LineText

def CmdLine.line (cmdLine : CmdLine) : List Char :=
  cmdLine.tid.digits ++ ' ' :: cmdLine.comm.text

structure TgidLine where
  tid : Number
  tgid : Number

def TgidLine.line (tgidLine : TgidLine) : List Char :=
  tgidLine.tid.digits ++ ' ' :: tgidLine.tgid.digits

structure FieldLine where
  declaration : LineText
  noSemicolon : ';' ∉ declaration.text
  offset : Number
  size : Number
  signed : Number

/-- A line of a field behind its tab. -/
def FieldLine.body (field : FieldLine) : List Char :=
  (fieldLinePrefix ++ field.declaration.text) ++ ';' ::
    (('\t' :: "offset:".toList ++ field.offset.digits) ++ ';' ::
      (('\t' :: "size:".toList ++ field.size.digits) ++ ';' ::
        (('\t' :: "signed:".toList ++ field.signed.digits) ++ [';'])))

def FieldLine.line (field : FieldLine) : List Char :=
  '\t' :: field.body

structure EventText where
  name : LineText
  id : Number
  commonFields : List FieldLine
  fields : List FieldLine
  printFmt : LineText

def EventText.lines (event : EventText) : List (List Char) :=
  (nameLinePrefix ++ event.name.text) :: (idLinePrefix ++ event.id.digits) ::
    "format:".toList :: (event.commonFields.map FieldLine.line ++
      [] :: (event.fields.map FieldLine.line ++
        [[], printFmtLinePrefix ++ event.printFmt.text]))

/-- The bytes of a file of lines. -/
def textBytes (lines : List (List Char)) : List UInt8 :=
  encodeUtf8 (lines.flatMap (· ++ ['\n']))

theorem decodeUtf8_encodeUtf8 (text : List Char) :
    decodeUtf8 (encodeUtf8 text) = some text := by
  have hdecode : (encodeUtf8 text).toByteArray.utf8Decode? = some text.toArray :=
    List.utf8Decode?_utf8Encode
  rw [decodeUtf8, hdecode, Option.map_some]

theorem splitOn_lines {lines : List (List Char)} (hlines : ∀ line ∈ lines, '\n' ∉ line) :
    (lines.flatMap (· ++ ['\n'])).splitOn '\n' = lines ++ [[]] := by
  induction lines with
  | nil => rfl
  | cons line rest ih =>
      obtain ⟨hline, hrest⟩ := List.forall_mem_cons.mp hlines
      rw [List.flatMap_cons, List.append_assoc, List.singleton_append,
        List.splitOn_append_cons_self_of_not_mem hline, ih hrest, List.cons_append]

/-! Numbers. -/

theorem isPySpace_eq_false {digit : Char} (hdigit : digit.isDigit = true) :
    isPySpace digit = false := by
  have hrange : 48 ≤ digit.toNat ∧ digit.toNat ≤ 57 := Char.isDigit_iff_toNat.mp hdigit
  simp only [isPySpace, Bool.or_eq_false_iff, Bool.and_eq_false_iff, decide_eq_false_iff_not,
    beq_eq_false_iff_ne]
  omega

section Digits

variable {digits : List Char}

theorem not_mem_digits (hdigits : ∀ digit ∈ digits, digit.isDigit = true) (char : Char)
    (hchar : char.isDigit = false) : char ∉ digits := by
  intro hmem
  rw [hdigits char hmem] at hchar
  cases hchar

theorem strip_digits (hdigits : ∀ digit ∈ digits, digit.isDigit = true) :
    rstrip (lstrip digits) = digits := by
  have hleft : lstrip digits = digits := by
    rw [lstrip, List.dropWhile_eq_self_iff]
    intro hlength
    rw [isPySpace_eq_false (hdigits _ (List.getElem_mem hlength))]
    exact nofun
  rw [hleft, rstrip, List.rdropWhile_eq_self_iff]
  intro hnonempty
  rw [isPySpace_eq_false (hdigits _ (List.getLast_mem hnonempty))]
  exact nofun

theorem splitSign_digits (hdigits : ∀ digit ∈ digits, digit.isDigit = true) :
    splitSign digits = (false, digits) := by
  have hminus := not_mem_digits hdigits '-' rfl
  have hplus := not_mem_digits hdigits '+' rfl
  unfold splitSign
  split
  · exact absurd List.mem_cons_self hminus
  · exact absurd List.mem_cons_self hplus
  · rfl

theorem pyInt_digits (hdigits : ∀ digit ∈ digits, digit.isDigit = true)
    (hnonempty : digits ≠ []) (hshort : digits.length ≤ maxStrDigits) :
    pyInt digits = some (Nat.ofDigitChars 10 digits 0 : Int) := by
  have hgroups : digits.splitOn '_' = [digits] :=
    List.splitOn_eq_singleton (not_mem_digits hdigits '_' rfl)
  have hall : digits.all Char.isDigit = true := List.all_eq_true.mpr hdigits
  simp [pyInt, strip_digits hdigits, splitSign_digits hdigits, hgroups, hall, hshort,
    hnonempty]

theorem splitBlank_digits (hdigits : ∀ digit ∈ digits, digit.isDigit = true)
    (rest : List Char) : splitBlank (digits ++ ' ' :: rest) = some (digits, rest) := by
  have hunspaced : ∀ digit ∈ digits, (digit != ' ') = true := by
    intro digit hmem
    rw [bne_iff_ne]
    intro hblank
    exact not_mem_digits hdigits ' ' rfl (hblank ▸ hmem)
  have hdrop : (digits ++ ' ' :: rest).dropWhile (· != ' ') = ' ' :: rest := by
    rw [List.dropWhile_append_of_pos hunspaced]
    rfl
  have htake : (digits ++ ' ' :: rest).takeWhile (· != ' ') = digits := by
    rw [List.takeWhile_append_of_pos hunspaced]
    simp
  simp only [splitBlank, hdrop, htake]

end Digits

namespace Number

variable (number : Number)

theorem not_mem (char : Char) (hchar : char.isDigit = false) : char ∉ number.digits :=
  not_mem_digits number.isDigit char hchar

def value : Int :=
  Nat.ofDigitChars 10 number.digits 0

theorem pyInt_number : pyInt number.digits = some number.value :=
  pyInt_digits number.isDigit number.nonempty (number.short.trans (by decide))

end Number

/-! The lines of tasks. -/

/-- A line as the two parsers of tasks take it apart. -/
theorem parseCmdLine_digits {digits comm : List Char} {tid : Int}
    (cmdLines : Dict (List Char)) (hdigits : ∀ digit ∈ digits, digit.isDigit = true)
    (htid : pyInt digits = some tid) :
    parseCmdLine cmdLines (digits ++ ' ' :: comm) =
      some ((tid, comm.filter (· != '\t')) :: cmdLines) := by
  have hfilter : (digits ++ ' ' :: comm).filter (· != '\t') =
      digits ++ ' ' :: comm.filter (· != '\t') := by
    rw [List.filter_append, List.filter_eq_self.mpr]
    · rfl
    · intro digit hmem
      rw [bne_iff_ne]
      intro htab
      exact not_mem_digits hdigits '\t' rfl (htab ▸ hmem)
  simp [parseCmdLine, hfilter, splitBlank_digits hdigits, htid]

theorem parseTgidsLine_digits {digits tgidDigits : List Char} {tid tgid : Int}
    (tgids : Dict Int) (hdigits : ∀ digit ∈ digits, digit.isDigit = true)
    (htid : pyInt digits = some tid) (htgid : pyInt tgidDigits = some tgid) :
    parseTgidsLine tgids (digits ++ ' ' :: tgidDigits) = some ((tid, tgid) :: tgids) := by
  simp [parseTgidsLine, splitBlank_digits hdigits, htid, htgid]

/-- Lines that add one entry each. -/
theorem foldlM_entries {ι α : Type} {parse : Dict α → List Char → Option (Dict α)}
    {line : ι → List Char} {entry : ι → Int × α}
    (hline : ∀ dict item, parse dict (line item) = some (entry item :: dict))
    (dict : Dict α) (items : List ι) :
    (items.map line).foldlM parse dict = some ((items.map entry).reverse ++ dict) := by
  induction items generalizing dict with
  | nil => rfl
  | cons item rest ih =>
      rw [List.map_cons, List.foldlM_cons, hline]
      simp [ih]

/-- The entry of a line; tabs are dropped. -/
def CmdLine.entry (cmdLine : CmdLine) : Int × List Char :=
  (cmdLine.tid.value, cmdLine.comm.text.filter (· != '\t'))

theorem parseCmdLine_line (cmdLines : Dict (List Char)) (cmdLine : CmdLine) :
    parseCmdLine cmdLines cmdLine.line = some (cmdLine.entry :: cmdLines) :=
  parseCmdLine_digits cmdLines cmdLine.tid.isDigit cmdLine.tid.pyInt_number

theorem CmdLine.oneLine (cmdLine : CmdLine) : '\n' ∉ cmdLine.line := by
  simp [CmdLine.line, cmdLine.tid.not_mem '\n' rfl, cmdLine.comm.oneLine]

theorem parseCmdLines_textBytes (lines : List CmdLine) :
    parseCmdLines (.bytes (textBytes (lines.map CmdLine.line))) =
      some (lines.map CmdLine.entry).reverse := by
  have hlines : ∀ line ∈ lines.map CmdLine.line, '\n' ∉ line := by
    intro line hmem
    obtain ⟨cmdLine, _, rfl⟩ := List.mem_map.mp hmem
    exact cmdLine.oneLine
  simp only [parseCmdLines, textBytes, decodeUtf8_encodeUtf8, Option.bind_eq_bind,
    Option.bind_some, splitOn_lines hlines, List.foldlM_append,
    foldlM_entries parseCmdLine_line, List.append_nil]
  rfl

def TgidLine.entry (tgidLine : TgidLine) : Int × Int :=
  (tgidLine.tid.value, tgidLine.tgid.value)

theorem parseTgidsLine_line (tgids : Dict Int) (tgidLine : TgidLine) :
    parseTgidsLine tgids tgidLine.line = some (tgidLine.entry :: tgids) :=
  parseTgidsLine_digits tgids tgidLine.tid.isDigit tgidLine.tid.pyInt_number
    tgidLine.tgid.pyInt_number

theorem TgidLine.oneLine (tgidLine : TgidLine) : '\n' ∉ tgidLine.line := by
  simp [TgidLine.line, tgidLine.tid.not_mem '\n' rfl, tgidLine.tgid.not_mem '\n' rfl]

theorem parseTidGroups_textBytes (lines : List TgidLine) :
    parseTidGroups (.bytes (textBytes (lines.map TgidLine.line))) =
      some (lines.map TgidLine.entry).reverse := by
  have hlines : ∀ line ∈ lines.map TgidLine.line, '\n' ∉ line := by
    intro line hmem
    obtain ⟨tgidLine, _, rfl⟩ := List.mem_map.mp hmem
    exact tgidLine.oneLine
  simp only [parseTidGroups, textBytes, decodeUtf8_encodeUtf8, Option.bind_eq_bind,
    Option.bind_some, splitOn_lines hlines, List.foldlM_append,
    foldlM_entries parseTgidsLine_line, List.append_nil]
  rfl

/-! The formats of events. -/

theorem not_mem_label (label : List Char) {text : List Char} (char : Char)
    (hlabel : char ∉ label) (htext : char ∉ text) : char ∉ label ++ text := by
  rw [List.mem_append, not_or]
  exact ⟨hlabel, htext⟩

/-- A line of a field behind its tab, from its texts. -/
def fieldBody (declaration offset size signed : List Char) : List Char :=
  (fieldLinePrefix ++ declaration) ++ ';' ::
    (('\t' :: "offset:".toList ++ offset) ++ ';' ::
      (('\t' :: "size:".toList ++ size) ++ ';' ::
        (('\t' :: "signed:".toList ++ signed) ++ [';'])))

section FieldBody

variable {declaration offset size signed : List Char}

theorem splitOn_fieldBody (hdeclaration : ';' ∉ declaration) (hoffset : ';' ∉ offset)
    (hsize : ';' ∉ size) (hsigned : ';' ∉ signed) :
    (fieldBody declaration offset size signed).splitOn ';' =
      [fieldLinePrefix ++ declaration, '\t' :: "offset:".toList ++ offset,
        '\t' :: "size:".toList ++ size, '\t' :: "signed:".toList ++ signed, []] := by
  have hfirst := not_mem_label fieldLinePrefix ';' (by decide) hdeclaration
  have hsecond := not_mem_label ('\t' :: "offset:".toList) ';' (by decide) hoffset
  have hthird := not_mem_label ('\t' :: "size:".toList) ';' (by decide) hsize
  have hfourth := not_mem_label ('\t' :: "signed:".toList) ';' (by decide) hsigned
  rw [fieldBody, List.splitOn_append_cons_self_of_not_mem hfirst,
    List.splitOn_append_cons_self_of_not_mem hsecond,
    List.splitOn_append_cons_self_of_not_mem hthird,
    List.splitOn_append_cons_self_of_not_mem hfourth]
  rfl

theorem parseEventsFormatField_fieldBody {offsetValue sizeValue : Int}
    (hdeclaration : ';' ∉ declaration) (hoffset : ';' ∉ offset) (hsize : ';' ∉ size)
    (hsigned : ';' ∉ signed) (hoffsetValue : pyInt offset = some offsetValue)
    (hsizeValue : pyInt size = some sizeValue) :
    parseEventsFormatField (fieldBody declaration offset size signed) =
      some
        { type := (splitLastBlank (fieldLinePrefix ++ declaration)).1.drop "field:".length
          name := (splitLastBlank (fieldLinePrefix ++ declaration)).2
          offset := offsetValue
          size := sizeValue
          signed } := by
  have hoffsetText : (lstrip ('\t' :: "offset:".toList ++ offset)).drop "offset:".length =
      offset := rfl
  have hsizeText : (lstrip ('\t' :: "size:".toList ++ size)).drop "size:".length =
      size := rfl
  simp only [parseEventsFormatField, splitOn_fieldBody hdeclaration hoffset hsize hsigned,
    hoffsetText, hsizeText, hoffsetValue, hsizeValue]
  rfl

end FieldBody

/-- What the parser makes of a field. -/
def FieldLine.parsed (field : FieldLine) : FormatField :=
  let (type, name) := splitLastBlank (fieldLinePrefix ++ field.declaration.text)
  { type := type.drop "field:".length
    name
    offset := field.offset.value
    size := field.size.value
    signed := field.signed.digits }

theorem parseEventsFormatField_body (field : FieldLine) :
    parseEventsFormatField field.body = some field.parsed :=
  parseEventsFormatField_fieldBody field.noSemicolon (field.offset.not_mem ';' rfl)
    (field.size.not_mem ';' rfl) (field.signed.not_mem ';' rfl) field.offset.pyInt_number
    field.size.pyInt_number

/-- What the parser makes of an event. -/
def EventText.parsed (event : EventText) : EventFormat :=
  { fields := (event.commonFields ++ event.fields).map FieldLine.parsed
    name := some event.name.text
    id := some event.id.value
    printFmt := some event.printFmt.text }

def EventText.entry (event : EventText) : Int × EventFormat :=
  (event.id.value, event.parsed)

section EventLines

variable (eventsFormat : Dict EventFormat) (eventFormat : EventFormat)

theorem parseEventLine_name (text : List Char) :
    parseEventLine (eventsFormat, eventFormat) (nameLinePrefix ++ text) =
      some (eventsFormat, { eventFormat with name := some text }) := rfl

theorem parseEventLine_id {digits : List Char} {id : Int} (hid : pyInt digits = some id) :
    parseEventLine (eventsFormat, eventFormat) (idLinePrefix ++ digits) =
      some (eventsFormat, { eventFormat with id := some id }) := by
  have hint : parseEventLine (eventsFormat, eventFormat) (idLinePrefix ++ digits) =
      (pyInt digits).bind fun id =>
        some (eventsFormat, { eventFormat with id := some id }) := rfl
  rw [hint, hid, Option.bind_some]

theorem parseEventLine_field {declaration offset size signed : List Char}
    {field : FormatField}
    (hfield : parseEventsFormatField (fieldBody declaration offset size signed) = some field) :
    parseEventLine (eventsFormat, eventFormat)
        ('\t' :: fieldBody declaration offset size signed) =
      some (eventsFormat, { eventFormat with fields := eventFormat.fields ++ [field] }) := by
  have hline : parseEventLine (eventsFormat, eventFormat)
      ('\t' :: fieldBody declaration offset size signed) =
      (parseEventsFormatField (fieldBody declaration offset size signed)).bind fun field =>
        some (eventsFormat, { eventFormat with
          fields := eventFormat.fields ++ [field] }) := rfl
  rw [hline, hfield, Option.bind_some]

theorem parseEventLine_printFmt {id : Int} (hid : eventFormat.id = some id)
    (text : List Char) :
    parseEventLine (eventsFormat, eventFormat) (printFmtLinePrefix ++ text) =
      some ((id, { eventFormat with printFmt := some text }) :: eventsFormat, {}) := by
  have hprint : parseEventLine (eventsFormat, eventFormat) (printFmtLinePrefix ++ text) =
      eventFormat.id.bind fun id =>
        some ((id, { eventFormat with printFmt := some text }) :: eventsFormat, {}) := rfl
  rw [hprint, hid, Option.bind_some]

theorem parseEventLine_blank (state : Dict EventFormat × EventFormat) :
    parseEventLine state [] = some state := rfl

/-- A line that adds one field. -/
def AddsField (line : List Char) (field : FormatField) : Prop :=
  ∀ eventsFormat eventFormat, parseEventLine (eventsFormat, eventFormat) line =
    some (eventsFormat, { eventFormat with fields := eventFormat.fields ++ [field] })

theorem FieldLine.addsField (field : FieldLine) : AddsField field.line field.parsed :=
  fun eventsFormat eventFormat =>
    parseEventLine_field eventsFormat eventFormat (parseEventsFormatField_body field)

section Fields

variable {ι : Type} {line : ι → List Char} {parsed : ι → FormatField}

theorem foldlM_fields (hline : ∀ field, AddsField (line field) (parsed field))
    (fields : List ι) :
    (fields.map line).foldlM parseEventLine (eventsFormat, eventFormat) =
      some (eventsFormat, { eventFormat with
        fields := eventFormat.fields ++ fields.map parsed }) := by
  induction fields generalizing eventFormat with
  | nil => simp
  | cons field rest ih =>
      rw [List.map_cons, List.foldlM_cons, hline, Option.bind_eq_bind, Option.bind_some, ih]
      simp

/-- The lines of an event from its texts. -/
def formatLines (name id : List Char) (commonFields fields : List (List Char))
    (printFmt : List Char) : List (List Char) :=
  (nameLinePrefix ++ name) :: (idLinePrefix ++ id) :: "format:".toList ::
    (commonFields ++ [] :: (fields ++ [[], printFmtLinePrefix ++ printFmt]))

/-- The event is complete with its last line, and the next one starts anew. -/
theorem foldlM_formatLines (hline : ∀ field, AddsField (line field) (parsed field))
    {name id printFmt : List Char} {value : Int} (hid : pyInt id = some value)
    (commonFields fields : List ι) :
    (formatLines name id (commonFields.map line) (fields.map line) printFmt).foldlM
        parseEventLine (eventsFormat, {}) =
      some ((value,
        { fields := (commonFields ++ fields).map parsed
          name := some name
          id := some value
          printFmt := some printFmt }) :: eventsFormat, {}) := by
  have hother : ∀ state, parseEventLine state "format:".toList = some state := fun _ => rfl
  simp only [formatLines, List.foldlM_cons, List.foldlM_append, List.foldlM_nil,
    parseEventLine_name, parseEventLine_id _ _ hid, hother, parseEventLine_blank,
    foldlM_fields _ _ hline, Option.bind_eq_bind, Option.bind_some]
  rw [parseEventLine_printFmt _ _ rfl, Option.bind_some, List.map_append, List.nil_append]
  rfl

end Fields

theorem foldlM_eventText (event : EventText) :
    event.lines.foldlM parseEventLine (eventsFormat, {}) =
      some (event.entry :: eventsFormat, {}) :=
  foldlM_formatLines eventsFormat FieldLine.addsField event.id.pyInt_number
    event.commonFields event.fields

/-- Texts that add one event each. -/
theorem foldlM_events {ι : Type} {lines : ι → List (List Char)}
    {entry : ι → Int × EventFormat}
    (hlines : ∀ eventsFormat event, (lines event).foldlM parseEventLine (eventsFormat, {}) =
      some (entry event :: eventsFormat, {})) (events : List ι) :
    (events.flatMap lines).foldlM parseEventLine (eventsFormat, {}) =
      some ((events.map entry).reverse ++ eventsFormat, {}) := by
  induction events generalizing eventsFormat with
  | nil => rfl
  | cons event rest ih =>
      rw [List.flatMap_cons, List.foldlM_append, hlines, Option.bind_eq_bind,
        Option.bind_some, ih]
      simp

end EventLines

theorem FieldLine.oneLine (field : FieldLine) : '\n' ∉ field.line := by
  have hlabel : '\n' ∉ fieldLinePrefix := by decide
  simp [FieldLine.line, FieldLine.body, hlabel, field.declaration.oneLine,
    field.offset.not_mem '\n' rfl, field.size.not_mem '\n' rfl,
    field.signed.not_mem '\n' rfl]

theorem EventText.oneLine (event : EventText) : ∀ line ∈ event.lines, '\n' ∉ line := by
  intro line hmem
  simp only [EventText.lines, List.mem_cons, List.mem_append, List.mem_map,
    List.not_mem_nil, or_false] at hmem
  rcases hmem with rfl | rfl | rfl | ⟨field, _, rfl⟩ | rfl | ⟨field, _, rfl⟩ | rfl | rfl
  · exact not_mem_label nameLinePrefix '\n' (by decide) event.name.oneLine
  · exact not_mem_label idLinePrefix '\n' (by decide) (event.id.not_mem '\n' rfl)
  · decide
  · exact field.oneLine
  · simp
  · exact field.oneLine
  · simp
  · exact not_mem_label printFmtLinePrefix '\n' (by decide) event.printFmt.oneLine

theorem parseEventFormat_textBytes (events : List EventText) :
    parseEventFormat (.bytes (textBytes (events.flatMap EventText.lines))) =
      some (events.map EventText.entry).reverse := by
  have hlines : ∀ line ∈ events.flatMap EventText.lines, '\n' ∉ line := by
    intro line hmem
    obtain ⟨event, _, hline⟩ := List.mem_flatMap.mp hmem
    exact event.oneLine line hline
  have hfold : (events.flatMap EventText.lines ++ [[]]).foldlM parseEventLine ([], {}) =
      some ((events.map EventText.entry).reverse, {}) := by
    rw [List.foldlM_append, foldlM_events _ foldlM_eventText, Option.bind_eq_bind, Option.bind_some,
      List.foldlM_cons, parseEventLine_blank, Option.bind_eq_bind, Option.bind_some,
      List.foldlM_nil, List.append_nil]
    rfl
  simp only [parseEventFormat, textBytes, decodeUtf8_encodeUtf8, Option.bind_eq_bind,
    Option.bind_some, splitOn_lines hlines, hfold]

end Hitrace.HitraceConverter
