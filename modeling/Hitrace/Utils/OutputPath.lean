import Hitrace.Library.LexicalPath
import Hitrace.Utils.TraceDirectory

namespace Hitrace

open Library

/-! The names of trace files in a directory of the caller, and where such a path
leads, from `utils/trace_file_utils.cpp`. -/

/-- What the clocks answer to one call: the `strftime` text of the local time, digits
and the sign of the year, or nothing, and `CLOCK_BOOTTIME`. -/
structure FileNameClock where
  localTime : Option (List Char)
  digits : ∀ timeBuf, localTime = some timeBuf →
    ∀ char ∈ timeBuf, char.isDigit = true ∨ char = '-'
  bootSec : Int
  bootNsec : Int

def generateTraceFileNameInner (clock : FileNameClock) (traceType : TraceDumpType) :
    List Char :=
  match clock.localTime with
  | none => []
  | some timeBuf =>
      tracePrefixMap traceType ++ timeBuf ++ '@' :: (toString clock.bootSec).toList ++
        '-' :: (toString clock.bootNsec).toList ++ ".sys".toList

def isWritableDir (fileName : List Char) : Bool :=
  traceWritablePath.isPrefixOf fileName &&
    (fileName.length == traceWritablePath.length ||
      (fileName.length == traceWritablePath.length + 1 &&
        fileName[traceWritablePath.length]? == some '/'))

def generateTraceFileName (clock : FileNameClock) (traceType : TraceDumpType)
    (outputPath : List Char) : List Char :=
  if outputPath.isEmpty then
    traceFileDefaultDir ++ generateTraceFileNameInner clock traceType
  else if isWritable outputPath then
    if isWritableDir outputPath then
      outputPath ++ (if outputPath.getLast? = some '/' then [] else ['/']) ++
        generateTraceFileNameInner clock traceType
    else outputPath
  else []

namespace OutputPath

def writableDir : List LexicalPath.Component :=
  ["data".toList, "local".toList, "tmp".toList]

theorem normalize_traceWritablePath :
    LexicalPath.normalize traceWritablePath = writableDir := by
  decide

theorem containsWord_iff (word text : List Char) :
    containsWord word text = true ↔ word <:+: text := by
  rw [containsWord, List.any_eq_true, List.infix_iff_prefix_suffix]
  constructor
  · rintro ⟨rest, hmem, hstart⟩
    exact ⟨rest, List.isPrefixOf_iff_prefix.mp hstart, (List.mem_tails _ _).mp hmem⟩
  · rintro ⟨rest, hstart, hend⟩
    exact ⟨rest, (List.mem_tails _ _).mpr hend, List.isPrefixOf_iff_prefix.mpr hstart⟩

theorem isWritable_append (rest : List Char) :
    isWritable (traceWritablePath ++ '/' :: rest) = true ↔
      ¬ ['.', '/'] <:+: rest ∧ ¬ ['.', '\\'] <:+: rest := by
  have hfront : traceWritablePath.isPrefixOf (traceWritablePath ++ '/' :: rest) = true :=
    List.isPrefixOf_iff_prefix.mpr (List.prefix_append _ _)
  have hslash : ∀ char, ['.', char] <:+: '/' :: rest ↔ ['.', char] <:+: rest := by
    intro char
    rw [List.infix_cons_iff, List.cons_prefix_cons]
    simp
  have hdots : ∀ char, ¬ ['.', char] <:+: rest → ¬ ['.', '.', char] <:+: '/' :: rest := by
    intro char hdot hinfix
    have hshort : ['.', char] <:+: ['.', '.', char] := ⟨['.'], [], rfl⟩
    exact hdot ((hslash char).mp (hshort.trans hinfix))
  rw [isWritable, if_pos hfront, List.drop_left]
  simp only [Bool.and_eq_true, Bool.not_eq_true', ← Bool.not_eq_true, containsWord_iff,
    beq_self_eq_true, true_and]
  constructor
  · rintro ⟨⟨_, hslashes⟩, hbackslashes⟩
    exact ⟨fun h => hslashes ((hslash _).mpr h), fun h => hbackslashes ((hslash _).mpr h)⟩
  · rintro ⟨hslashes, hbackslashes⟩
    exact ⟨⟨⟨hdots _ hslashes, hdots _ hbackslashes⟩,
      fun h => hslashes ((hslash _).mp h)⟩, fun h => hbackslashes ((hslash _).mp h)⟩

theorem isWritable_cases {fileName : List Char} (hwritable : isWritable fileName = true) :
    fileName = traceWritablePath ∨ ∃ rest, fileName = traceWritablePath ++ '/' :: rest := by
  rw [isWritable] at hwritable
  split at hwritable
  · next hfront =>
      obtain ⟨tail, rfl⟩ := List.isPrefixOf_iff_prefix.mp hfront
      rw [List.drop_left] at hwritable
      cases tail with
      | nil => exact Or.inl (List.append_nil _)
      | cons head rest =>
          simp only [Bool.and_eq_true, beq_iff_eq] at hwritable
          obtain ⟨⟨⟨⟨rfl, _⟩, _⟩, _⟩, _⟩ := hwritable
          exact Or.inr ⟨rest, rfl⟩
  · cases hwritable

theorem under_append_iff {rest : List Char} (hdots : ¬ ['.', '/'] <:+: rest) :
    LexicalPath.Under writableDir (traceWritablePath ++ '/' :: rest) ↔
      ¬ ∃ count, rest = List.replicate count '/' ++ ['.', '.'] := by
  have hfront : LexicalPath.resolve traceWritablePath ≠ [] := by decide
  rw [← normalize_traceWritablePath]
  exact LexicalPath.under_iff hfront hdots

/-! A made-up name is one component, and not a dot. -/

theorem slash_not_mem_repr (number : Int) : '/' ∉ number.repr.toList := by
  have hdigits : ∀ value : Nat, '/' ∉ value.repr.toList := by
    intro value hmem
    rw [Nat.repr_eq_ofList_toDigits, String.toList_ofList] at hmem
    have hdigit := Nat.isDigit_of_mem_toDigits (by decide) (by decide) hmem
    exact absurd hdigit (by decide)
  cases number with
  | ofNat value => exact hdigits value
  | negSucc value =>
      change '/' ∉ ("-" ++ value.succ.repr).toList
      rw [String.toList_append, List.mem_append]
      rintro (hsign | hvalue)
      · exact absurd hsign (by decide)
      · exact hdigits _ hvalue

theorem slash_not_mem_generateTraceFileNameInner (clock : FileNameClock)
    (traceType : TraceDumpType) : '/' ∉ generateTraceFileNameInner clock traceType := by
  rw [generateTraceFileNameInner]
  cases hlocal : clock.localTime with
  | none => exact List.not_mem_nil
  | some timeBuf =>
      have htime : '/' ∉ timeBuf := by
        intro hmem
        have hchar := clock.digits timeBuf hlocal _ hmem
        exact absurd hchar (by decide)
      have hstart : '/' ∉ tracePrefixMap traceType := by cases traceType <;> decide
      simp [hstart, htime, slash_not_mem_repr]

theorem generateTraceFileNameInner_ne_dots (clock : FileNameClock)
    (traceType : TraceDumpType) :
    generateTraceFileNameInner clock traceType ≠ ['.', '.'] := by
  rw [generateTraceFileNameInner]
  cases clock.localTime with
  | none => simp
  | some timeBuf =>
      intro hdots
      have hat : '@' ∈ ['.', '.'] := by
        rw [← hdots]
        simp
      exact absurd hat (by decide)

theorem under_append_inner (clock : FileNameClock) (traceType : TraceDumpType) :
    LexicalPath.Under writableDir
      (traceWritablePath ++ '/' :: generateTraceFileNameInner clock traceType) := by
  have hslash := slash_not_mem_generateTraceFileNameInner clock traceType
  rw [under_append_iff]
  · rintro ⟨count, hname⟩
    cases count with
    | zero => exact generateTraceFileNameInner_ne_dots clock traceType hname
    | succ count =>
        rw [hname] at hslash
        exact hslash (by simp)
  · intro hdots
    exact hslash (hdots.mem (by simp))

/-- Only the directory itself is a writable directory, with a slash or without. -/
theorem isWritableDir_append (rest : List Char) :
    isWritableDir (traceWritablePath ++ '/' :: rest) = rest.isEmpty := by
  have hfront : traceWritablePath.isPrefixOf (traceWritablePath ++ '/' :: rest) = true :=
    List.isPrefixOf_iff_prefix.mpr (List.prefix_append _ _)
  rw [isWritableDir, hfront, List.length_append, List.length_cons,
    List.getElem?_append_right (le_refl _), Nat.sub_self]
  cases rest <;> simp

theorem generateTraceFileName_writable (clock : FileNameClock) (traceType : TraceDumpType)
    {outputPath : List Char} (hwritable : isWritable outputPath = true) :
    generateTraceFileName clock traceType outputPath =
        traceWritablePath ++ '/' :: generateTraceFileNameInner clock traceType ∨
      generateTraceFileName clock traceType outputPath = outputPath := by
  have hname : outputPath.isEmpty = false := by
    cases outputPath with
    | nil => exact absurd hwritable (by decide)
    | cons head tail => rfl
  rw [generateTraceFileName, if_pos hwritable, hname]
  rcases isWritable_cases hwritable with rfl | ⟨rest, rfl⟩
  · left
    have hdir : isWritableDir traceWritablePath = true := by decide
    have hlast : traceWritablePath.getLast? ≠ some '/' := by decide
    rw [if_pos hdir, if_neg hlast, List.append_assoc]
    rfl
  · rw [isWritableDir_append]
    cases rest with
    | nil =>
        left
        have hlast : (traceWritablePath ++ ['/']).getLast? = some '/' := by decide
        rw [List.isEmpty_nil, if_pos rfl, if_pos hlast, List.append_nil,
          List.append_assoc]
        rfl
    | cons head rest => exact Or.inr rfl

theorem not_infix_replicate (count : Nat) :
    ¬ ['.', '/'] <:+: List.replicate count '/' ++ ['.', '.'] := by
  induction count with
  | zero => decide
  | succ count ih =>
      rw [List.replicate_succ, List.cons_append, List.infix_cons_iff,
        List.cons_prefix_cons]
      rintro (⟨hchar, _⟩ | hinfix)
      · exact absurd hchar (by decide)
      · exact ih hinfix

/-- The check looks for dots in front of a slash only, so the one way out is a last
component `..` right below the directory. -/
theorem output_path_inside_iff (fileName : List Char) :
    ((isWritable fileName = true → LexicalPath.Under writableDir fileName) ∧
        ∀ (clock : FileNameClock) (traceType : TraceDumpType), fileName ≠ [] →
          generateTraceFileName clock traceType fileName ≠ [] →
            LexicalPath.Under writableDir
              (generateTraceFileName clock traceType fileName)) ↔
      ¬ ∃ count, fileName =
        traceWritablePath ++ List.replicate (count + 1) '/' ++ ['.', '.'] := by
  constructor
  · rintro ⟨hinside, _⟩ ⟨count, rfl⟩
    have hpath : traceWritablePath ++ List.replicate (count + 1) '/' ++ ['.', '.'] =
        traceWritablePath ++ '/' :: (List.replicate count '/' ++ ['.', '.']) := by
      rw [List.replicate_succ, List.append_assoc, List.cons_append]
    have hslashes := not_infix_replicate count
    have hbackslashes : ¬ ['.', '\\'] <:+: List.replicate count '/' ++ ['.', '.'] := by
      intro hdots
      have hmem : '\\' ∈ List.replicate count '/' ++ ['.', '.'] :=
        hdots.mem (by simp)
      simp at hmem
    rw [hpath] at hinside
    exact (under_append_iff hslashes).mp
      (hinside ((isWritable_append _).mpr ⟨hslashes, hbackslashes⟩)) ⟨count, rfl⟩
  · intro hcondition
    have hinside : isWritable fileName = true →
        LexicalPath.Under writableDir fileName := by
      intro hwritable
      rcases isWritable_cases hwritable with rfl | ⟨rest, rfl⟩
      · decide
      · rw [under_append_iff ((isWritable_append rest).mp hwritable).1]
        rintro ⟨count, rfl⟩
        exact hcondition ⟨count, by simp [List.replicate_succ]⟩
    refine ⟨hinside, ?_⟩
    intro clock traceType hname hgenerated
    by_cases hwritable : isWritable fileName = true
    · rcases generateTraceFileName_writable clock traceType hwritable with heq | heq
      · rw [heq]
        exact under_append_inner clock traceType
      · rw [heq]
        exact hinside hwritable
    · rw [generateTraceFileName] at hgenerated
      simp [hname, hwritable] at hgenerated

theorem parent_of_writable_is_accepted :
    isWritable "/data/local/tmp/..".toList = true ∧
      LexicalPath.normalize "/data/local/tmp/..".toList =
        ["data".toList, "local".toList] ∧
      ¬ LexicalPath.Under writableDir "/data/local/tmp/..".toList := by
  decide

end OutputPath

end Hitrace
