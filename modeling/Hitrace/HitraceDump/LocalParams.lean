import Hitrace.HitraceDump.FileSizeThreshold
import Hitrace.Library.Dependence

namespace Hitrace

open Library

/-! The numbers of a session, when the local `TraceParams` of an opening starts with
whatever the stack holds. -/

structure TraceParamsMemory where
  fileLimit : Int32 := 0
  fileSize : Int32 := 0
  appPid : Int32 := 0
  totalSize : Int64 := 0
deriving Repr, DecidableEq

/-- The strings and vectors have their constructors. -/
def TraceParamsMemory.traceParams (memory : TraceParamsMemory) : TraceParams where
  fileLimit := memory.fileLimit.toInt
  fileSize := memory.fileSize.toInt
  appPid := memory.appPid.toInt
  totalSize := memory.totalSize.toInt

def OpenEnvironment.onStack (environment : OpenEnvironment) (memory : TraceParamsMemory) :
    OpenEnvironment :=
  { environment with uninitialized := memory.traceParams }

inductive NumericField
  | fileLimit
  | fileSize
  | appPid
  | totalSize
  deriving DecidableEq, Repr

namespace NumericField

def get (traceParams : TraceParams) : NumericField → Int
  | .fileLimit => traceParams.fileLimit
  | .fileSize => traceParams.fileSize
  | .appPid => traceParams.appPid
  | .totalSize => traceParams.totalSize

/-- The item of an argument string that sets the field. -/
def argName : NumericField → Option ArgName
  | .fileLimit => some .fileLimit
  | .fileSize => some .fileSize
  | .appPid => some .appPid
  | .totalSize => none

end NumericField

def itemArg (item : List Char) : Option ArgName :=
  (splitItem item).bind fun parts => ArgName.all.lookup parts.1

/-- The call has a value for the field. -/
def OpenCall.Assigns (field : NumericField) : OpenCall → Prop
  | .tagGroups _ => field = .fileSize
  | .traceArgs _ => True
  | .args text =>
      ∃ name, field.argName = some name ∧ ∃ item ∈ argList text, itemArg item = some name

/-- `g_currentTraceParams` behind the call. -/
def OpenCall.paramsAfter (call : OpenCall) (environment : OpenEnvironment)
    (globals : TraceGlobals) (memory : TraceParamsMemory) : TraceParams :=
  (globals.openTrace (environment.onStack memory) call).2.currentTraceParams

/-- The field is the same in any two runs of the call. -/
def OpenCall.Determined (call : OpenCall) (environment : OpenEnvironment)
    (globals : TraceGlobals) (field : NumericField) : Prop :=
  ∀ first second, field.get (call.paramsAfter environment globals first) =
    field.get (call.paramsAfter environment globals second)

namespace LocalParams

variable {field : NumericField}

/-- What an item writes to the field. -/
def itemNumber (field : NumericField) (item : List Char) : Option Int :=
  match splitItem item with
  | none => none
  | some (itemName, value) =>
      match ArgName.all.lookup itemName with
      | none => none
      | some name =>
          if field.argName = some name then some (setCmdTraceIntParams value) else none

/-- What an argument writes to the field. -/
def numberWrite (field : NumericField) (name : ArgName) (value : List Char) : Option Int :=
  if field.argName = some name then some (setCmdTraceIntParams value) else none

theorem itemWritten_number (item : List Char) :
    itemWritten (numberWrite field) item = itemNumber field item := by
  rw [itemWritten, itemNumber]
  cases splitItem item with
  | none => rfl
  | some parts =>
      dsimp only [Option.bind_some]
      cases ArgName.all.lookup parts.1 <;> rfl

theorem get_setArg (name : ArgName) (value : List Char) (traceParams : TraceParams) :
    field.get (setArg name value traceParams) =
      (numberWrite field name value).getD (field.get traceParams) := by
  cases name <;> cases field <;> rfl

theorem parseItems_get {items : List (List Char)} {traceParams parsed : TraceParams}
    {appPid : List Char} (hparsed : (parseItems items traceParams appPid).1 = some parsed) :
    field.get parsed =
      (items.filterMap (itemNumber field)).getLast?.getD (field.get traceParams) := by
  have hwritten := @parseItems_written _ field.get (numberWrite field) get_setArg _ _ _ _
    hparsed
  rw [funext itemWritten_number] at hwritten
  exact hwritten

/-! The rest of the parameters, and whether the call succeeds, do not depend on the
memory. -/

/-- The parameters without their numbers. -/
def texts (traceParams : TraceParams) : TraceParams :=
  { traceParams with fileLimit := 0, fileSize := 0, appPid := 0, totalSize := 0 }

theorem texts_setArg {first second : TraceParams} (name : ArgName) (value : List Char)
    (htexts : texts first = texts second) :
    texts (setArg name value first) = texts (setArg name value second) := by
  simp only [texts, TraceParams.mk.injEq] at htexts
  cases name <;> simp [texts, setArg, htexts]

theorem parseItem_texts {first second : TraceParams} (item appPid : List Char)
    (htexts : texts first = texts second) :
    Option.Rel (fun left right => texts left.1 = texts right.1 ∧ left.2 = right.2)
      (parseItem item first appPid) (parseItem item second appPid) := by
  rw [parseItem, parseItem]
  cases splitItem item with
  | none => exact .some ⟨htexts, rfl⟩
  | some parts =>
      dsimp only
      cases ArgName.all.lookup parts.1 with
      | none => exact .none
      | some name =>
          have hset := texts_setArg name parts.2 htexts
          cases name with
          | appPid =>
              dsimp only
              split
              · exact .none
              · exact .some ⟨hset, rfl⟩
          | _ => exact .some ⟨hset, rfl⟩

theorem parseItems_texts {first second : TraceParams} (items : List (List Char))
    (appPid : List Char) (htexts : texts first = texts second) :
    Option.Rel (fun left right => texts left = texts right)
      (parseItems items first appPid).1 (parseItems items second appPid).1 := by
  induction items generalizing first second appPid with
  | nil => exact .some htexts
  | cons item rest ih =>
      have hitem := parseItem_texts item appPid htexts
      rw [parseItems, parseItems]
      cases hfirst : parseItem item first appPid with
      | none =>
          cases hsecond : parseItem item second appPid with
          | none => exact .none
          | some right =>
              rw [hfirst, hsecond] at hitem
              cases hitem
      | some left =>
          cases hsecond : parseItem item second appPid with
          | none =>
              rw [hfirst, hsecond] at hitem
              cases hitem
          | some right =>
              rw [hfirst, hsecond] at hitem
              cases hitem with
              | some hpair =>
                  dsimp only
                  rw [hpair.2]
                  exact ih right.2 hpair.1

variable {environment : OpenEnvironment} {globals : TraceGlobals}

theorem parseArgs_isSome {first second : TraceParams} (args appPid : List Char)
    (htexts : texts first = texts second) :
    (parseArgs environment args first appPid).1.isSome =
      (parseArgs environment args second appPid).1.isSome := by
  have hitems := parseItems_texts (argList args) appPid htexts
  have hpids : (parseItems (argList args) first appPid).2 =
      (parseItems (argList args) second appPid).2 := by
    rw [parseItems_appPid, parseItems_appPid]
  rw [parseArgs, parseArgs]
  cases hfirst : parseItems (argList args) first appPid with
  | mk left leftPid =>
      cases hsecond : parseItems (argList args) second appPid with
      | mk right rightPid =>
          rw [hfirst, hsecond] at hitems
          cases hitems with
          | none => rfl
          | some hpair =>
              simp only [texts, TraceParams.mk.injEq] at hpair
              dsimp only
              rw [hpair.1, hpair.2.1]
              split <;> rfl

theorem fst_ite_congr {α β : Type} {condition : Prop} [Decidable condition] {code : α}
    {left left' : β} {rest rest' : α × β} (hrest : rest.1 = rest'.1) :
    (if condition then (code, left) else rest).1 =
      (if condition then (code, left') else rest').1 := by
  split
  · rfl
  · exact hrest

theorem fst_mk_congr {α β : Type} (code : α) (left left' : β) :
    (code, left).1 = (code, left').1 :=
  rfl

section Codes

variable (first second : TraceParams)

theorem openTagGroups_code (tagGroups : List (List Char)) :
    (globals.openTagGroups { environment with uninitialized := first } tagGroups).1 =
      (globals.openTagGroups { environment with uninitialized := second } tagGroups).1 := by
  rw [TraceGlobals.openTagGroups, TraceGlobals.openTagGroups]
  dsimp only
  cases bootTraceArbShouldReturnLocked environment.boot false with
  | some bootGate => rfl
  | none =>
      apply fst_ite_congr
      apply fst_ite_congr
      apply fst_ite_congr
      apply fst_ite_congr
      apply fst_mk_congr

theorem openTraceArgs_code (traceArgs : TraceArgs) :
    (globals.openTraceArgs { environment with uninitialized := first } traceArgs).1 =
      (globals.openTraceArgs { environment with uninitialized := second } traceArgs).1 := by
  rw [TraceGlobals.openTraceArgs, TraceGlobals.openTraceArgs]
  dsimp only
  cases bootTraceArbShouldReturnLocked environment.boot false with
  | some bootGate => rfl
  | none =>
      apply fst_ite_congr
      apply fst_ite_congr
      apply fst_ite_congr
      apply fst_mk_congr

theorem openArgs_code (args : List Char) :
    (globals.openArgs { environment with uninitialized := first } args).1 =
      (globals.openArgs { environment with uninitialized := second } args).1 := by
  rw [TraceGlobals.openArgs, TraceGlobals.openArgs]
  dsimp only
  cases bootTraceArbShouldReturnLocked environment.boot false with
  | some bootGate => rfl
  | none =>
      apply fst_ite_congr
      apply fst_ite_congr
      apply fst_ite_congr
      have hparsed : (parseArgs { environment with uninitialized := first } args
            (TraceGlobals.uninitializedParams { environment with uninitialized := first })
            globals.appPid).1.isSome =
          (parseArgs { environment with uninitialized := second } args
            (TraceGlobals.uninitializedParams { environment with uninitialized := second })
            globals.appPid).1.isSome :=
        @parseArgs_isSome environment _ _ args globals.appPid rfl
      split
      · next hfirst =>
          rw [hfirst] at hparsed
          split
          · apply fst_mk_congr
          · next hsecond =>
              rw [hsecond] at hparsed
              cases hparsed
      · next hfirst =>
          rw [hfirst] at hparsed
          split
          · next hsecond =>
              rw [hsecond] at hparsed
              cases hparsed
          · apply fst_mk_congr

end Codes

/-- The memory does not decide about success. -/
theorem openTrace_code (call : OpenCall) (first second : TraceParamsMemory) :
    (globals.openTrace (environment.onStack first) call).1 =
      (globals.openTrace (environment.onStack second) call).1 := by
  cases call with
  | tagGroups tagGroups => exact openTagGroups_code _ _ tagGroups
  | traceArgs traceArgs => exact openTraceArgs_code _ _ traceArgs
  | args args => exact openArgs_code _ _ args

theorem openTagGroups_params {tagGroups : List (List Char)}
    (hsuccess : (globals.openTagGroups environment tagGroups).1 = .success) :
    (globals.openTagGroups environment tagGroups).2.currentTraceParams =
      TraceGlobals.defaultTraceParams environment tagGroups := by
  cases hboot : bootTraceArbShouldReturnLocked environment.boot false with
  | some bootGate =>
      simp only [TraceGlobals.openTagGroups, hboot] at hsuccess
      exact absurd hsuccess (boot_ne_success hboot)
  | none =>
      revert hsuccess
      simp only [TraceGlobals.openTagGroups, hboot]
      split
      · intro hfailed
        cases hfailed
      · split
        · intro hfailed
          cases hfailed
        · split
          · intro hfailed
            cases hfailed
          · split
            · intro hfailed
              cases hfailed
            · exact fun _ => rfl

theorem defaultTraceParams_fileSize (environment : OpenEnvironment)
    (tagGroups : List (List Char)) :
    NumericField.fileSize.get (TraceGlobals.defaultTraceParams environment tagGroups) =
      defaultFileSize :=
  rfl

theorem buildTraceParamsFromArgs_onStack (environment : OpenEnvironment)
    (memory : TraceParamsMemory) (traceArgs : TraceArgs) :
    TraceGlobals.buildTraceParamsFromArgs (environment.onStack memory) traceArgs =
      TraceGlobals.buildTraceParamsFromArgs environment traceArgs :=
  rfl

theorem itemNumber_isSome_iff {item : List Char} :
    (itemNumber field item).isSome ↔
      ∃ name, field.argName = some name ∧ itemArg item = some name := by
  rw [itemNumber, itemArg]
  cases splitItem item with
  | none => simp
  | some parts =>
      rw [Option.bind_some]
      dsimp only
      cases ArgName.all.lookup parts.1 with
      | none => simp
      | some name =>
          dsimp only
          split
          · next hname => simp [hname]
          · next hname =>
              refine iff_of_false (by simp) ?_
              rintro ⟨other, hfield, hother⟩
              exact hname (hfield.trans hother.symm)

theorem assigns_args_iff {text : List Char} :
    (OpenCall.args text).Assigns field ↔
      (argList text).filterMap (itemNumber field) ≠ [] := by
  rw [OpenCall.Assigns, ne_eq, List.filterMap_eq_nil_iff]
  constructor
  · rintro ⟨name, hfield, item, hmem, hitem⟩ hnone
    have hsome := itemNumber_isSome_iff.mpr ⟨name, hfield, hitem⟩
    rw [hnone item hmem] at hsome
    cases hsome
  · intro hsome
    obtain ⟨item, hmem, hitem⟩ : ∃ item ∈ argList text, itemNumber field item ≠ none := by
      simpa using hsome
    obtain ⟨name, hfield, harg⟩ :=
      itemNumber_isSome_iff.mp (Option.isSome_iff_ne_none.mpr hitem)
    exact ⟨name, hfield, item, hmem, harg⟩

section Runs

variable {call : OpenCall} {memory : TraceParamsMemory}

theorem openArgs_get {args : List Char}
    (hsuccess : (globals.openArgs (environment.onStack memory) args).1 = .success) :
    field.get ((OpenCall.args args).paramsAfter environment globals memory) =
      ((argList args).filterMap (itemNumber field)).getLast?.getD
        (field.get memory.traceParams) := by
  rw [OpenCall.paramsAfter, TraceGlobals.openTrace,
    parseItems_get (FileSizeThreshold.openArgs_params hsuccess)]
  cases field <;> rfl

theorem get_of_assigns (hsuccess : ∀ memory,
      (globals.openTrace (environment.onStack memory) call).1 = .success)
    (hassigns : call.Assigns field) : call.Determined environment globals field := by
  intro first second
  cases call with
  | tagGroups tagGroups =>
      cases hassigns
      rw [OpenCall.paramsAfter, OpenCall.paramsAfter, TraceGlobals.openTrace,
        TraceGlobals.openTrace, openTagGroups_params (hsuccess first),
        openTagGroups_params (hsuccess second), defaultTraceParams_fileSize,
        defaultTraceParams_fileSize]
  | traceArgs traceArgs =>
      rw [OpenCall.paramsAfter, OpenCall.paramsAfter, TraceGlobals.openTrace,
        TraceGlobals.openTrace, FileSizeThreshold.openTraceArgs_params (hsuccess first),
        FileSizeThreshold.openTraceArgs_params (hsuccess second),
        buildTraceParamsFromArgs_onStack, buildTraceParamsFromArgs_onStack]
  | args text =>
      rw [openArgs_get (hsuccess first), openArgs_get (hsuccess second)]
      cases hlast : ((argList text).filterMap (itemNumber field)).getLast? with
      | none => exact absurd (List.getLast?_eq_none_iff.mp hlast) (assigns_args_iff.mp hassigns)
      | some value => rw [Option.getD_some, Option.getD_some]

/-- A field without a value is what the stack held. -/
theorem get_of_not_assigns
    (hsuccess : (globals.openTrace (environment.onStack memory) call).1 = .success)
    (hassigns : ¬ call.Assigns field) :
    field.get (call.paramsAfter environment globals memory) =
      field.get memory.traceParams := by
  cases call with
  | tagGroups tagGroups =>
      rw [OpenCall.paramsAfter, TraceGlobals.openTrace, openTagGroups_params hsuccess]
      cases field with
      | fileSize => exact absurd rfl hassigns
      | _ => rfl
  | traceArgs traceArgs => exact absurd trivial hassigns
  | args text =>
      have hnone : (argList text).filterMap (itemNumber field) = [] := by
        by_contra hsome
        exact hassigns (assigns_args_iff.mpr hsome)
      rw [openArgs_get hsuccess, hnone]
      rfl

theorem determined_iff_assigns
    (hsuccess : (globals.openTrace (environment.onStack memory) call).1 = .success)
    (field : NumericField) :
    call.Determined environment globals field ↔ call.Assigns field := by
  have hall (other : TraceParamsMemory) :
      (globals.openTrace (environment.onStack other) call).1 = .success :=
    (openTrace_code call other memory).trans hsuccess
  refine ⟨fun hdetermined => ?_, get_of_assigns hall⟩
  by_contra hassigns
  have hsame := hdetermined ⟨0, 0, 0, 0⟩ ⟨1, 1, 1, 1⟩
  rw [get_of_not_assigns (hall _) hassigns, get_of_not_assigns (hall _) hassigns] at hsame
  cases field <;> exact absurd hsame (by decide)

theorem assigns_all_iff :
    (∀ field, call.Assigns field) ↔ ∃ traceArgs, call = .traceArgs traceArgs := by
  constructor
  · intro hall
    cases call with
    | tagGroups tagGroups => cases hall .totalSize
    | traceArgs traceArgs => exact ⟨traceArgs, rfl⟩
    | args text =>
        obtain ⟨name, hname, _⟩ := hall .totalSize
        cases hname
  · rintro ⟨traceArgs, rfl⟩ field
    trivial

/-- Of an opening that succeeds, on some memory, exactly the numbers it has a value for are
the same whatever the memory was; these are all of them only for a `TraceArgs`. -/
theorem open_params_determined_iff
    (hsuccess : (globals.openTrace (environment.onStack memory) call).1 = .success) :
    (∀ field, call.Determined environment globals field ↔ call.Assigns field) ∧
      ((∀ field, call.Determined environment globals field) ↔
        ∃ traceArgs, call = .traceArgs traceArgs) := by
  refine ⟨determined_iff_assigns hsuccess, ?_⟩
  rw [← assigns_all_iff]
  exact forall_congr' (determined_iff_assigns hsuccess)

def oneTagEnvironment : OpenEnvironment where
  allTags := [("ace".toList, ⟨1, .user⟩)]
  tagGroupTable := [("scene".toList, ["ace".toList])]

/-- `tags:ace fileSize:5` -/
theorem open_params_determined_iff_ace :
    (OpenCall.args "tags:ace fileSize:5".toList).Determined oneTagEnvironment {} .fileSize ∧
      ¬ (OpenCall.args "tags:ace fileSize:5".toList).Determined oneTagEnvironment {}
        .fileLimit := by
  have hiff := (@open_params_determined_iff oneTagEnvironment {}
    (.args "tags:ace fileSize:5".toList) {} (by decide)).1
  rw [hiff, hiff]
  constructor
  · exact ⟨.fileSize, rfl, by decide⟩
  · rintro ⟨name, hname, hitem⟩
    cases hname
    revert hitem
    decide

/-- `tags:ace` leaves the number of files to the stack. -/
theorem file_limit_is_stack_content :
    ¬ ∀ (call : OpenCall) (environment : OpenEnvironment) (globals : TraceGlobals),
      (∀ memory, (globals.openTrace (environment.onStack memory) call).1 = .success) →
        ∀ field, call.Determined environment globals field := by
  intro hall
  have hsame := hall (.args "tags:ace".toList) oneTagEnvironment {} ?_ .fileLimit {}
    { fileLimit := 1 }
  · exact absurd hsame (by decide)
  · intro memory
    exact (openTrace_code _ memory {}).trans (by decide)

end Runs

end LocalParams

end Hitrace
