import Hitrace.HitraceCmd.BootTraceJson
import Hitrace.Library.QuotedText

namespace Hitrace

open Library

/-! The text of a boot-trace configuration: its members line by line, and its strings. -/

namespace BootTraceJson

/-- The text behind the comma or brace before the key. -/
def lineText (indent key front : List Char) : List Char :=
  "\n".toList ++ indent ++ '"' :: (key ++ '"' :: ':' :: ' ' :: front)

def quote (text rest : List Char) : List Char :=
  '"' :: (text ++ '"' :: rest)

def kernelText (config : BootTraceConfig) (rest : List Char) : List Char :=
  '{' :: lineText "    ".toList "enabled".toList (boolText (!config.kernelTags.isEmpty) ++
    ',' :: lineText "    ".toList "tags".toList ('[' :: (tagsText config.kernelTags ++
    ']' :: ',' :: lineText "    ".toList "buffer_size_kb".toList
      (intToString config.bufferSizeKb.toInt ++
    ',' :: lineText "    ".toList "clock".toList (quote config.clockType
      ("\n  ".toList ++ '}' :: rest))))))

def userSpaceText (config : BootTraceConfig) (rest : List Char) : List Char :=
  '{' :: lineText "    ".toList "enabled".toList (boolText (!config.userTags.isEmpty) ++
    ',' :: lineText "    ".toList "tags".toList ('[' :: (tagsText config.userTags ++
    ']' :: ("\n  ".toList ++ '}' :: rest))))

def outputPath (config : BootTraceConfig) : List Char :=
  BootTrace.buildBootTraceOutputPathForPrefix config.filePrefix config.incrementIndex

def configText (config : BootTraceConfig) : List Char :=
  '{' :: lineText "  ".toList "version".toList ("1".toList ++
    ',' :: lineText "  ".toList "description".toList
      (quote "Boot-time trace configuration".toList (
    ',' :: lineText "  ".toList "duration_sec".toList (intToString config.durationSec.toInt ++
    ',' :: lineText "  ".toList "output".toList (quote (outputPath config) (
    ',' :: lineText "  ".toList "file_size_kb".toList (intToString config.fileSizeKb.toInt ++
    ',' :: lineText "  ".toList "file_prefix".toList (quote config.filePrefix (
    ',' :: lineText "  ".toList "overwrite".toList (boolText config.overwrite ++
    ',' :: lineText "  ".toList "inline_event_format".toList ("true".toList ++
    ',' :: lineText "  ".toList "increment_index".toList
      (intToString config.incrementIndex.toInt ++
    ',' :: lineText "  ".toList "kernel".toList (kernelText config (
    ',' :: lineText "  ".toList "userspace".toList (userSpaceText config
      ("\n".toList ++ '}' :: "\n".toList))))))))))))))))

theorem buildKernelSectionJson_append (config : BootTraceConfig) (rest : List Char) :
    '\n' :: (buildKernelSectionJson config.kernelTags config.bufferSizeKb config.clockType ++
      rest) =
      lineText "  ".toList "kernel".toList (kernelText config (',' :: '\n' :: rest)) := by
  unfold buildKernelSectionJson kernelText quote lineText
  simp only [String.reduceToList, List.cons_append, List.nil_append, List.append_assoc]

theorem buildUserSpaceSectionJson_append (config : BootTraceConfig) (rest : List Char) :
    '\n' :: (buildUserSpaceSectionJson config.userTags ++ rest) =
      lineText "  ".toList "userspace".toList (userSpaceText config ('\n' :: rest)) := by
  unfold buildUserSpaceSectionJson userSpaceText lineText
  simp only [String.reduceToList, List.cons_append, List.nil_append, List.append_assoc]

set_option maxRecDepth 4000 in
theorem buildBootTraceConfigJson_eq (config : BootTraceConfig) :
    buildBootTraceConfigJson config = configText config := by
  unfold buildBootTraceConfigJson configText quote outputPath
  simp only [String.reduceToList, List.cons_append, List.nil_append, List.append_assoc]
  rw [buildKernelSectionJson_append, buildUserSpaceSectionJson_append]
  unfold lineText
  simp only [String.reduceToList, List.cons_append, List.nil_append]

/-! The same text as strings in quotes with what stands between them. -/

def tagPieces : List Char → List (List Char) → List (List Char × List Char)
  | _, [] => []
  | gap, tag :: rest => (gap, tag) :: tagPieces ", ".toList rest

/-- What is left of the gap if there are no tags. -/
def gapBehind (gap : List Char) (tags : List (List Char)) : List Char :=
  if tags.isEmpty then gap else []

theorem quotedText_append (left right : List (List Char × List Char)) (last : List Char) :
    Json.quotedText (left ++ right) last = Json.quotedText left (Json.quotedText right last) := by
  induction left with
  | nil => rfl
  | cons piece rest ih =>
      rw [List.cons_append, Json.quotedText, ih, Json.quotedText]

theorem quotedText_tagPieces (gap : List Char) (tags : List (List Char)) (rest : List Char) :
    Json.quotedText (tagPieces gap tags) (gapBehind gap tags ++ rest) =
      gap ++ (tagsText tags ++ rest) := by
  induction tags generalizing gap with
  | nil => rfl
  | cons tag others ih =>
      rw [tagPieces, Json.quotedText]
      cases others with
      | nil => simp [tagPieces, Json.quotedText, gapBehind, tagsText]
      | cons next more =>
          have hmore := ih ", ".toList
          have hbehind : gapBehind gap (tag :: next :: more) =
              gapBehind ", ".toList (next :: more) := rfl
          rw [hbehind, hmore, tagsText]
          simp

def kernelPieces (config : BootTraceConfig) : List (List Char × List Char) :=
  (": \x7b\n    ".toList, "enabled".toList) ::
  (": ".toList ++ boolText (!config.kernelTags.isEmpty) ++ ",\n    ".toList, "tags".toList) ::
  tagPieces ": [".toList config.kernelTags ++
  [(gapBehind ": [".toList config.kernelTags ++ "],\n    ".toList, "buffer_size_kb".toList),
    (": ".toList ++ intToString config.bufferSizeKb.toInt ++ ",\n    ".toList, "clock".toList),
    (": ".toList, config.clockType)]

def userSpacePieces (config : BootTraceConfig) : List (List Char × List Char) :=
  (": \x7b\n    ".toList, "enabled".toList) ::
  (": ".toList ++ boolText (!config.userTags.isEmpty) ++ ",\n    ".toList, "tags".toList) ::
  tagPieces ": [".toList config.userTags

def rootPieces (config : BootTraceConfig) : List (List Char × List Char) :=
  [("\x7b\n  ".toList, "version".toList),
    (": 1,\n  ".toList, "description".toList),
    (": ".toList, "Boot-time trace configuration".toList),
    (",\n  ".toList, "duration_sec".toList),
    (": ".toList ++ intToString config.durationSec.toInt ++ ",\n  ".toList, "output".toList),
    (": ".toList, outputPath config),
    (",\n  ".toList, "file_size_kb".toList),
    (": ".toList ++ intToString config.fileSizeKb.toInt ++ ",\n  ".toList,
      "file_prefix".toList),
    (": ".toList, config.filePrefix),
    (",\n  ".toList, "overwrite".toList),
    (": ".toList ++ boolText config.overwrite ++ ",\n  ".toList,
      "inline_event_format".toList),
    (": true,\n  ".toList, "increment_index".toList),
    (": ".toList ++ intToString config.incrementIndex.toInt ++ ",\n  ".toList,
      "kernel".toList)]

def pieces (config : BootTraceConfig) : List (List Char × List Char) :=
  rootPieces config ++ (kernelPieces config ++
    ("\n  \x7d".toList ++ ",\n  ".toList, "userspace".toList) :: userSpacePieces config)

def lastPiece (config : BootTraceConfig) : List Char :=
  gapBehind ": [".toList config.userTags ++ "]\n  \x7d\n\x7d\n".toList

theorem userSpaceText_eq (config : BootTraceConfig) :
    ':' :: ' ' :: userSpaceText config ("\n".toList ++ '}' :: "\n".toList) =
      Json.quotedText (userSpacePieces config) (lastPiece config) := by
  unfold userSpacePieces lastPiece userSpaceText lineText
  rw [Json.quotedText, Json.quotedText, quotedText_tagPieces]
  simp only [String.reduceToList, List.cons_append, List.nil_append, List.append_assoc]

theorem kernelText_eq (config : BootTraceConfig) (rest : List (List Char × List Char))
    (last gap chars : List Char) :
    ':' :: ' ' :: kernelText config (gap ++ '"' :: (chars ++ '"' :: Json.quotedText rest last)) =
      Json.quotedText (kernelPieces config ++ ("\n  \x7d".toList ++ gap, chars) :: rest) last := by
  unfold kernelPieces kernelText lineText quote
  rw [quotedText_append, quotedText_append]
  rw [Json.quotedText, Json.quotedText, Json.quotedText, Json.quotedText, Json.quotedText,
    Json.quotedText, Json.quotedText]
  rw [List.append_assoc _ "],\n    ".toList, quotedText_tagPieces]
  simp only [String.reduceToList, List.cons_append, List.nil_append, List.append_assoc]

set_option maxRecDepth 4000 in
theorem configText_eq (config : BootTraceConfig) :
    configText config = Json.quotedText (pieces config) (lastPiece config) := by
  rw [pieces, quotedText_append, ← kernelText_eq, ← userSpaceText_eq]
  unfold rootPieces configText quote lineText
  simp only [Json.quotedText, String.reduceToList, List.cons_append, List.nil_append,
    List.append_assoc]

/-! What stands in the pieces. -/

theorem intToString_cases (number : Int) :
    ∃ digits : Nat, intToString number = Decimal.text digits ∨
      intToString number = '-' :: Decimal.text digits := by
  cases number with
  | ofNat value => exact ⟨value, .inl rfl⟩
  | negSucc value =>
      refine ⟨value + 1, .inr ?_⟩
      change ("-" ++ toString (value + 1)).toList = _
      rw [String.toList_append]
      rfl

theorem isNumber_intToString (number : Int) : Json.isNumber (intToString number) = true := by
  rcases intToString_cases number with ⟨digits, htext | htext⟩
  · rw [htext]
    exact Json.isNumber_text digits
  · rw [htext]
    exact Json.isNumber_neg_text digits

theorem clean_intToString (number : Int) : Json.weight (intToString number) = 0 := by
  have hnumber := isNumber_intToString number
  rw [Json.isNumber, Bool.and_eq_true, List.all_eq_true] at hnumber
  refine Json.weight_eq_zero.mpr fun char hchar => ?_
  have hnumberChar := hnumber.1 char hchar
  simp [Json.isSpecial, @Json.ne_of_isNumberChar char '"' hnumberChar rfl,
    @Json.ne_of_isNumberChar char '\\' hnumberChar rfl,
    @Json.ne_of_isNumberChar char '\x00' hnumberChar rfl]

theorem clean_boolText (value : Bool) : Json.weight (boolText value) = 0 := by
  cases value with
  | false => decide
  | true => decide

theorem gap_of {gap : List Char} {mark char : Char} (hclean : Json.weight gap = 0)
    (hmark : Json.lastMark gap = some mark) (hlast : gap.getLast? = some char)
    (hends : Json.isOpener char = true) : Json.Gap gap :=
  ⟨hclean, ⟨mark, hmark⟩, ⟨char, hlast, hends⟩⟩

theorem clean_append {front gap : List Char} (hfront : Json.weight front = 0)
    (hgap : Json.weight gap = 0) : Json.weight (front ++ gap) = 0 := by
  rw [Json.weight_append, hfront, hgap]

theorem gap_append {front gap : List Char} (hclean : Json.weight front = 0)
    (hgap : Json.Gap gap) : Json.Gap (front ++ gap) := by
  obtain ⟨mark, hmark⟩ := hgap.mark
  obtain ⟨char, hlast, hends⟩ := hgap.ends
  refine gap_of (clean_append hclean hgap.clean) (Json.lastMark_append hmark) ?_ hends
  rw [List.getLast?_append, hlast]
  rfl

theorem gap_colon : Json.Gap ": ".toList :=
  @gap_of _ ':' ' ' (by decide) (by decide) (by decide) rfl

theorem gap_root : Json.Gap ",\n  ".toList :=
  @gap_of _ ',' ' ' (by decide) (by decide) (by decide) rfl

theorem gap_section : Json.Gap ",\n    ".toList :=
  @gap_of _ ',' ' ' (by decide) (by decide) (by decide) rfl

theorem gap_comma : Json.Gap ", ".toList :=
  @gap_of _ ',' ' ' (by decide) (by decide) (by decide) rfl

theorem gap_brace : Json.Gap ": \x7b\n    ".toList :=
  @gap_of _ '{' ' ' (by decide) (by decide) (by decide) rfl

theorem gap_bracket : Json.Gap ": [".toList :=
  @gap_of _ '[' '[' (by decide) (by decide) (by decide) rfl

/-- The gap behind a value without quotes. -/
theorem gap_value {value gap : List Char} (hvalue : Json.weight value = 0)
    (hgap : Json.Gap gap) : Json.Gap (": ".toList ++ value ++ gap) :=
  gap_append (clean_append (by decide) hvalue) hgap

def tags (config : BootTraceConfig) : List (List Char) :=
  config.kernelTags ++ config.userTags

/-- A string that is always the same, the path or the prefix behind a colon, or a tag behind a
bracket or a comma. -/
def Classified (config : BootTraceConfig) (piece : List Char × List Char) : Prop :=
  Json.Gap piece.1 ∧ (Json.weight piece.2 = 0 ∨
    (Json.lastMark piece.1 = some ':' ∧
      (piece.2 = outputPath config ∨ piece.2 = config.filePrefix)) ∨
    ((Json.lastMark piece.1 = some '[' ∨ Json.lastMark piece.1 = some ',') ∧
      piece.2 ∈ tags config))

section Classify

variable {config : BootTraceConfig} {gap chars : List Char}

theorem classified_fixed (hgap : Json.Gap gap) (hweight : Json.weight chars = 0) :
    Classified config (gap, chars) :=
  ⟨hgap, .inl hweight⟩

theorem classified_tagPieces {list : List (List Char)} (hlist : ∀ tag ∈ list, tag ∈ tags config)
    (hgap : Json.Gap gap) (hmark : Json.lastMark gap = some '[' ∨ Json.lastMark gap = some ',') :
    ∀ piece ∈ tagPieces gap list, Classified config piece := by
  induction list generalizing gap with
  | nil => exact fun piece hpiece => absurd hpiece List.not_mem_nil
  | cons tag rest ih =>
      obtain ⟨htag, hrest⟩ := List.forall_mem_cons.mp hlist
      refine List.forall_mem_cons.mpr ⟨⟨hgap, .inr (.inr ⟨hmark, htag⟩)⟩, ?_⟩
      exact ih hrest gap_comma (.inr (by decide))

theorem clean_gapBehind {list : List (List Char)} (hgap : Json.Gap gap) :
    Json.weight (gapBehind gap list) = 0 := by
  rw [gapBehind]
  split
  · exact hgap.clean
  · rfl

theorem classified_kernelPieces (hclock : Json.weight config.clockType = 0) :
    ∀ piece ∈ kernelPieces config, Classified config piece := by
  rw [kernelPieces]
  refine List.forall_mem_append.mpr ⟨List.forall_mem_cons.mpr ⟨?_,
    List.forall_mem_cons.mpr ⟨?_, ?_⟩⟩, ?_⟩
  · exact classified_fixed gap_brace rfl
  · exact classified_fixed (gap_value (clean_boolText _) gap_section) rfl
  · refine classified_tagPieces ?_ gap_bracket (.inl (by decide))
    exact fun tag htag => List.mem_append_left _ htag
  · refine List.forall_mem_cons.mpr ⟨?_, List.forall_mem_cons.mpr ⟨?_,
      List.forall_mem_singleton.mpr ?_⟩⟩
    · refine classified_fixed (gap_append (clean_gapBehind gap_bracket) ?_) rfl
      exact gap_append (by decide : Json.weight "]".toList = 0) gap_section
    · exact classified_fixed (gap_value (clean_intToString _) gap_section) rfl
    · exact classified_fixed gap_colon hclock

theorem classified_userSpacePieces : ∀ piece ∈ userSpacePieces config, Classified config piece := by
  rw [userSpacePieces]
  refine List.forall_mem_cons.mpr ⟨?_, List.forall_mem_cons.mpr ⟨?_, ?_⟩⟩
  · exact classified_fixed gap_brace rfl
  · exact classified_fixed (gap_value (clean_boolText _) gap_section) rfl
  · refine classified_tagPieces ?_ gap_bracket (.inl (by decide))
    exact fun tag htag => List.mem_append_right _ htag

theorem classified_rootPieces : ∀ piece ∈ rootPieces config, Classified config piece := by
  have hopen : Json.Gap "\x7b\n  ".toList :=
    @gap_of _ '{' ' ' (by decide) (by decide) (by decide) rfl
  have hversion : Json.Gap ": 1,\n  ".toList :=
    @gap_of _ ',' ' ' (by decide) (by decide) (by decide) rfl
  have hinline : Json.Gap ": true,\n  ".toList :=
    @gap_of _ ',' ' ' (by decide) (by decide) (by decide) rfl
  have hcolon : Json.lastMark ": ".toList = some ':' := by decide
  simp only [rootPieces, List.forall_mem_cons]
  refine ⟨?_, ?_, ?_, ?_, ?_, ?_, ?_, ?_, ?_, ?_, ?_, ?_, ?_, List.forall_mem_nil _⟩
  · exact classified_fixed hopen rfl
  · exact classified_fixed hversion rfl
  · exact classified_fixed gap_colon rfl
  · exact classified_fixed gap_root rfl
  · exact classified_fixed (gap_value (clean_intToString _) gap_root) rfl
  · exact ⟨gap_colon, .inr (.inl ⟨hcolon, .inl rfl⟩)⟩
  · exact classified_fixed gap_root rfl
  · exact classified_fixed (gap_value (clean_intToString _) gap_root) rfl
  · exact ⟨gap_colon, .inr (.inl ⟨hcolon, .inr rfl⟩)⟩
  · exact classified_fixed gap_root rfl
  · exact classified_fixed (gap_value (clean_boolText _) gap_root) rfl
  · exact classified_fixed hinline rfl
  · exact classified_fixed (gap_value (clean_intToString _) gap_root) rfl

theorem classified_pieces (hclock : Json.weight config.clockType = 0) :
    ∀ piece ∈ pieces config, Classified config piece := by
  rw [pieces]
  refine List.forall_mem_append.mpr ⟨classified_rootPieces, List.forall_mem_append.mpr
    ⟨classified_kernelPieces hclock, List.forall_mem_cons.mpr
      ⟨?_, classified_userSpacePieces⟩⟩⟩
  exact classified_fixed (gap_append (by decide) gap_root) rfl

theorem framed_pieces (hclock : Json.weight config.clockType = 0) :
    Json.Framed (pieces config) (lastPiece config) where
  gaps piece hpiece := (classified_pieces hclock piece hpiece).1
  clean := clean_append (clean_gapBehind gap_bracket) (by decide)

end Classify

end BootTraceJson

end Hitrace
