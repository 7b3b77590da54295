import Hitrace.HitraceCmd.BootTraceOptions
import Hitrace.Library.JsonPrinter

namespace Hitrace

open Library

/-! `RunBootTraceControl` on the text of the config file. -/

namespace BootTraceJson

open Json (Within Document)

/-- `cJSON_Print`; its result is a C string. -/
structure CJsonPrinter extends CJson where
  print : Json → List Char

def hasName (name : List Char) (member : List Char × Json) : Bool :=
  (cString member.1).map Char.toLower == name.map Char.toLower

/-- `cJSON_DeleteItemFromObject`: the first member with the name goes. -/
def deleteItemFromObject (object : Json) (name : List Char) : Json :=
  match object with
  | .object members => .object (members.eraseP (hasName name))
  | other => other

/-- `cJSON_AddItemToObject`: the item becomes the last member. -/
def addItemToObject (object : Json) (name : List Char) (item : Json) : Json :=
  match object with
  | .object members => .object (members ++ [(name, item)])
  | other => other

def createNumber (number : Int32) : Json :=
  .number (intToString number.toInt)

section Control

variable (cJson : CJsonPrinter) (allTagInfos : List (List Char × TraceTag))

/-- The prefix is looked up as in `ResolveBootTraceFilePrefixFromJson`. -/
def applyBootTraceIncrementBump (root : Json) : Json :=
  let incNode := numberItem cJson.toCJson (getObjectItem root "increment_index".toList)
  match incNode.bind BootTrace.nextIndex with
  | none => root
  | some newIdx =>
      let root := addItemToObject (deleteItemFromObject root "increment_index".toList)
        "increment_index".toList (createNumber newIdx)
      let newOut := BootTrace.buildBootTraceOutputPathForPrefix
        (resolveBootTraceFilePrefixFromJson root) newIdx
      addItemToObject (deleteItemFromObject root "output".toList) "output".toList
        (.string (cString newOut))

def loadBootTraceConfigJsonForUpdate (content : List Char) : Option Json :=
  if content.isEmpty then none else objectItem (cJson.parse (cString content))

/-- The content of the config file afterwards, if it can be read and written. -/
def saveBootTraceResultToConfig (content : List Char) (resultCode : BootTrace.ExitCode) :
    List Char :=
  match loadBootTraceConfigJsonForUpdate cJson content with
  | none => content
  | some root =>
      let root := addItemToObject (deleteItemFromObject root "result".toList) "result".toList
        (createNumber (Int32.ofInt resultCode.value))
      let root := if resultCode = .ok then applyBootTraceIncrementBump cJson root else root
      cString (cJson.print root)

/-- What a run meets: the active flag, whether it can be set, and whether
`ExecuteBootTraceCapture` succeeds. -/
structure Launch where
  active : Bool
  flagSet : Bool
  captured : Bool
deriving Repr, DecidableEq

/-- The exit code, the path `ExecuteBootTraceCapture` has written to, and the config file
afterwards. -/
structure Outcome where
  resultCode : BootTrace.ExitCode
  capture : Option (List Char)
  content : List Char
deriving Repr, DecidableEq

def Outcome.succeeded (outcome : Outcome) : Bool :=
  outcome.resultCode = .ok

def runBootTraceControl (content : List Char) (launch : Launch) : Outcome :=
  if launch.active then
    ⟨.duplicate, none, saveBootTraceResultToConfig cJson content .duplicate⟩
  else if !launch.flagSet then
    ⟨.configError, none, saveBootTraceResultToConfig cJson content .configError⟩
  else
    match loadBootTraceCaptureConfig cJson.toCJson allTagInfos content with
    | none => ⟨.configError, none, saveBootTraceResultToConfig cJson content .configError⟩
    | some cfg =>
        let resultCode := if launch.captured then .ok else .configError
        ⟨resultCode, some cfg.outputPath, saveBootTraceResultToConfig cJson content resultCode⟩

/-- One run after another. -/
def runs : List Char → List Launch → List Outcome
  | _, [] => []
  | content, launch :: rest =>
      let outcome := runBootTraceControl cJson allTagInfos content launch
      outcome :: runs outcome.content rest

end Control

/-! Values that are printed and parsed without a change. -/

/-- The numbers are `int`s and the strings C strings. -/
structure Tidy (value : Json) : Prop where
  numbers : ∀ literal, Within (.number literal) value →
    ∃ number : Int32, literal = intToString number.toInt
  texts : ∀ text, Within (.string text) value → '\x00' ∉ text
  keys : ∀ members, Within (.object members) value → ∀ member ∈ members, '\x00' ∉ member.1

/-- The parser and the printer of standard JSON. -/
structure IsPrinter (raw : Char → Bool) (cJson : CJsonPrinter) : Prop where
  isCJson : IsCJson raw cJson.toCJson
  print : ∀ value, Tidy value → Document raw (cString (cJson.print value)) value

section Values

variable {name other key : List Char} {item value : Json} {members : List (List Char × Json)}

theorem tidy_createNumber (number : Int32) : Tidy (createNumber number) where
  numbers literal hwithin := by
    cases hwithin
    exact ⟨number, rfl⟩
  texts text hwithin := by cases hwithin
  keys members hwithin := by cases hwithin

theorem tidy_bool (flag : Bool) : Tidy (.bool flag) where
  numbers literal hwithin := by cases hwithin
  texts text hwithin := by cases hwithin
  keys members hwithin := by cases hwithin

theorem tidy_string {text : List Char} (hnul : '\x00' ∉ text) : Tidy (.string text) where
  numbers literal hwithin := by cases hwithin
  texts text hwithin := by
    cases hwithin
    exact hnul
  keys members hwithin := by cases hwithin

theorem tidy_array {elements : List Json} (helements : ∀ element ∈ elements, Tidy element) :
    Tidy (.array elements) where
  numbers literal hwithin := by
    cases hwithin with
    | element hmem hinner => exact (helements _ hmem).numbers literal hinner
  texts text hwithin := by
    cases hwithin with
    | element hmem hinner => exact (helements _ hmem).texts text hinner
  keys members hwithin := by
    cases hwithin with
    | element hmem hinner => exact (helements _ hmem).keys members hinner

theorem tidy_object : Tidy (.object members) ↔
    ∀ member ∈ members, '\x00' ∉ member.1 ∧ Tidy member.2 := by
  constructor
  · intro htidy member hmem
    refine ⟨htidy.keys members .self member hmem, ?_, ?_, ?_⟩
    · exact fun literal hwithin => htidy.numbers literal (.member hmem hwithin)
    · exact fun text hwithin => htidy.texts text (.member hmem hwithin)
    · exact fun inner hwithin => htidy.keys inner (.member hmem hwithin)
  · intro hmembers
    refine ⟨fun literal hwithin => ?_, fun text hwithin => ?_, fun inner hwithin => ?_⟩
    · cases hwithin with
      | member hmem hinner => exact (hmembers _ hmem).2.numbers literal hinner
    · cases hwithin with
      | member hmem hinner => exact (hmembers _ hmem).2.texts text hinner
    · cases hwithin with
      | self => exact fun member hmem => (hmembers member hmem).1
      | member hmem hinner => exact (hmembers _ hmem).2.keys inner hinner

/-! An object whose member is replaced. -/

def replaceItem (members : List (List Char × Json)) (name : List Char) (item : Json) :
    List (List Char × Json) :=
  members.eraseP (hasName name) ++ [(name, item)]

/-- The names are the same to cJSON. -/
def SameName (first second : List Char) : Prop :=
  first.map Char.toLower = second.map Char.toLower

instance (first second : List Char) : Decidable (SameName first second) :=
  inferInstanceAs (Decidable (first.map Char.toLower = second.map Char.toLower))

def Once (members : List (List Char × Json)) (name : List Char) : Prop :=
  members.countP (hasName name) ≤ 1

theorem find?_eraseP_of_disjoint {α : Type} {goes seeks : α → Bool} {list : List α}
    (hdisjoint : ∀ element ∈ list, goes element = true → seeks element = false) :
    (list.eraseP goes).find? seeks = list.find? seeks := by
  induction list with
  | nil => rfl
  | cons head rest ih =>
      obtain ⟨hhead, hrest⟩ := List.forall_mem_cons.mp hdisjoint
      by_cases hgoes : goes head = true
      · rw [List.eraseP_cons_of_pos hgoes, List.find?_cons_of_neg (by simp [hhead hgoes])]
      · rw [List.eraseP_cons_of_neg hgoes]
        cases hseeks : seeks head with
        | true => rw [List.find?_cons_of_pos hseeks, List.find?_cons_of_pos hseeks]
        | false =>
            rw [List.find?_cons_of_neg (by simp [hseeks]),
              List.find?_cons_of_neg (by simp [hseeks]), ih hrest]

theorem getObjectItem_object (members : List (List Char × Json)) (name : List Char) :
    getObjectItem (.object members) name = (members.find? (hasName name)).map Prod.snd := rfl

theorem hasName_self (hname : '\x00' ∉ name) (item : Json) :
    hasName name (name, item) = true := by
  rw [hasName, cString_eq hname]
  exact beq_self_eq_true _

theorem hasName_of_ne {member : List Char × Json} (hne : ¬ SameName name other)
    (hmember : hasName name member = true) : hasName other member = false := by
  rw [hasName, beq_iff_eq] at hmember
  rw [hasName, hmember]
  exact beq_eq_false_iff_ne.mpr hne

theorem countP_eraseP (members : List (List Char × Json)) :
    (members.eraseP (hasName name)).countP (hasName name) =
      members.countP (hasName name) - 1 := by
  induction members with
  | nil => rfl
  | cons head rest ih =>
      by_cases hhead : hasName name head = true
      · rw [List.eraseP_cons_of_pos hhead, List.countP_cons_of_pos hhead]
        rfl
      · rw [List.eraseP_cons_of_neg hhead, List.countP_cons_of_neg hhead,
          List.countP_cons_of_neg hhead, ih]

theorem getObjectItem_replace (hname : '\x00' ∉ name) (honce : Once members name) :
    getObjectItem (.object (replaceItem members name item)) name = some item := by
  have hgone : (members.eraseP (hasName name)).find? (hasName name) = none := by
    rw [List.find?_eq_none]
    have hcount := @countP_eraseP name members
    rw [Once] at honce
    exact List.countP_eq_zero.mp (by omega)
  rw [getObjectItem_object, replaceItem, List.find?_append, hgone, Option.none_or,
    List.find?_singleton, if_pos (hasName_self hname item)]
  rfl

theorem getObjectItem_replace_of_ne (hname : '\x00' ∉ name) (hne : ¬ SameName name other) :
    getObjectItem (.object (replaceItem members name item)) other =
      getObjectItem (.object members) other := by
  have hself := hasName_of_ne hne (hasName_self hname item)
  rw [getObjectItem_object, getObjectItem_object, replaceItem, List.find?_append,
    find?_eraseP_of_disjoint fun member _ hmember => hasName_of_ne hne hmember,
    List.find?_singleton, if_neg (by simp [hself]), Option.or_none]

theorem once_replace (hname : '\x00' ∉ name) (honce : Once members name) :
    Once (replaceItem members name item) name := by
  have hcount := @countP_eraseP name members
  rw [Once] at honce
  rw [Once, replaceItem, List.countP_append, List.countP_singleton,
    if_pos (hasName_self hname item)]
  omega

theorem once_replace_of_ne (hname : '\x00' ∉ name) (hne : ¬ SameName name other)
    (honce : Once members other) : Once (replaceItem members name item) other := by
  have hself := hasName_of_ne hne (hasName_self hname item)
  have hle : (members.eraseP (hasName name)).countP (hasName other) ≤
      members.countP (hasName other) := List.Sublist.countP_le List.eraseP_sublist
  rw [Once, replaceItem, List.countP_append, List.countP_singleton, if_neg (by simp [hself])]
  exact Nat.le_trans hle honce

theorem tidy_replace (hname : '\x00' ∉ name) (hitem : Tidy item)
    (htidy : Tidy (.object members)) : Tidy (.object (replaceItem members name item)) := by
  rw [tidy_object] at htidy ⊢
  refine List.forall_mem_append.mpr ⟨?_, List.forall_mem_singleton.mpr ⟨hname, hitem⟩⟩
  exact fun member hmem => htidy member (List.mem_of_mem_eraseP hmem)

end Values

end BootTraceJson

end Hitrace
